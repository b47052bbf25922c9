import VerifyServer.Reasoning.JavaString

/-!
# NetSocketData — the messages of the client and their way to the socket

`prepare_data` of a `NetSocketData` builds a JSON message, `be_send` hands its bytes to a
`SocketProxy`, and the proxies of `OnlineClientUser` pass them on to the client's socket.  The JSON
library is a parameter; the text of an object appears as the bytes `toString().getBytes()` gives.
-/

open VerifyServer.Reasoning

namespace VerifyServer.Client

-- the bytes of an ASCII literal
def ascii (s : String) : List UInt8 := s.toList.map fun c => UInt8.ofNat c.toNat

/-! ## 1. JSON objects -/

inductive Json where
  | string (s : JavaString)
  | int (n : Int32)
  | object (members : List (JavaString × Json))
  -- an array, a boolean, a number that is no `int`, or `null`
  | other (text : List UInt8)

abbrev JsonObject := List (JavaString × Json)

/-- `JSONObject.put(key, value)`: a `null` value removes the key, a new value takes the place of an
old one. -/
def JsonObject.put (o : JsonObject) (key : JavaString) : Option Json → JsonObject
  | none => o.filter fun m => m.1 ≠ key
  | some v =>
    if o.any fun m => m.1 = key then o.map fun m => if m.1 = key then (key, v) else m
    else o ++ [(key, v)]

def JsonObject.get (o : JsonObject) (key : JavaString) : Option Json :=
  (o.find? fun m => m.1 = key).map (·.2)

structure JsonLibrary where
  -- `toString().getBytes()`
  text : Json → List UInt8
  -- `new JSONObject(new String(in_buf, "UTF-8"))`, `none` when it throws
  parse : List UInt8 → Option JsonObject

/-- The bytes of one member in an object's text: the quoted name, a colon, the value. -/
def JsonLibrary.member (lib : JsonLibrary) (m : JavaString × Json) : Nat :=
  (lib.text (.string m.1)).length + 1 + (lib.text m.2).length

/-- The letters and the underscore that the names in `Jsonkey` are made of. -/
def isNameUnit (c : UInt16) : Bool := 0x61 ≤ c && c ≤ 0x7A || c = 0x5F

/-- `toString` yields JSON text: a name of letters and `_` only needs no escapes, and an object is
its members between braces with commas in between, in whatever order. -/
structure JsonLibrary.Prints (lib : JsonLibrary) : Prop where
  name : ∀ s : JavaString, s.all isNameUnit = true →
    (lib.text (.string s)).length = s.length + 2
  object : ∀ o : JsonObject, (o.map (·.1)).Nodup →
    (lib.text (.object o)).length = (o.map lib.member).sum + (o.length - 1) + 2

/-- The object read back from an object's text has its members, each with the same text. -/
def JsonLibrary.ReadsBack (lib : JsonLibrary) (o : JsonObject) : Prop :=
  ∃ o', lib.parse (lib.text (.object o)) = some o' ∧
    ∀ key v, o.get key = some (.object v) →
      ∃ v', o'.get key = some (.object v') ∧ lib.text (.object v') = lib.text (.object v)

/-- One unit of a string in a JSON text, for strings of ASCII. -/
def escapeUnit (c : UInt16) : List UInt8 :=
  if c = 0x22 ∨ c = 0x5C ∨ c = 0x2F then [0x5C, c.toUInt8] else [c.toUInt8]

def quote (s : JavaString) : List UInt8 := [0x22] ++ s.flatMap escapeUnit ++ [0x22]

mutual

def jsonText : Json → List UInt8
  | .string s => quote s
  | .int n => ascii (toString n.toInt)
  | .object o => [0x7B] ++ jsonMembers o ++ [0x7D]
  | .other text => text

def jsonMembers : List (JavaString × Json) → List UInt8
  | [] => []
  | (key, v) :: ms =>
    quote key ++ [0x3A] ++ jsonText v ++ (if ms.isEmpty then [] else [0x2C]) ++ jsonMembers ms

end

/-- A library that reads back the one object `o`; its strings are ASCII. -/
def asciiJson (o : JsonObject) : JsonLibrary :=
  ⟨jsonText, fun in_buf => if in_buf = jsonText (.object o) then some o else none⟩

theorem quote_length {s : JavaString} (h : s.all isNameUnit = true) :
    (quote s).length = s.length + 2 := by
  have hflat : (s.flatMap escapeUnit).length = s.length := by
    induction s with
    | nil => rfl
    | cons c s ih =>
      rw [List.all_cons, Bool.and_eq_true] at h
      have hescape : ¬ (c = 0x22 ∨ c = 0x5C ∨ c = 0x2F) := by
        rintro (rfl | rfl | rfl) <;> exact absurd h.1 (by decide)
      rw [List.flatMap_cons, List.length_append, ih h.2, escapeUnit, if_neg hescape,
        List.length_singleton, List.length_cons, Nat.add_comm]
  simp only [quote, List.length_append, List.length_singleton, hflat]
  omega

theorem jsonMembers_length (o : JsonObject) :
    (jsonMembers o).length =
      (o.map fun m => (quote m.1).length + 1 + (jsonText m.2).length).sum + (o.length - 1) := by
  induction o with
  | nil => rfl
  | cons m ms ih =>
    obtain ⟨key, v⟩ := m
    rw [jsonMembers, List.map_cons, List.sum_cons, List.length_cons]
    simp only [List.length_append, List.length_singleton, ih]
    cases ms with
    | nil => simp
    | cons m ms =>
      simp only [List.isEmpty_cons, Bool.false_eq_true, if_false, List.length_cons,
        List.length_nil]
      omega

theorem asciiJson_prints (o : JsonObject) : (asciiJson o).Prints where
  name s hs := by
    change (jsonText (.string s)).length = _
    rw [jsonText, quote_length hs]
  object ms _ := by
    have hmember : (asciiJson o).member = fun m =>
        (quote m.1).length + 1 + (jsonText m.2).length := by
      funext m
      simp only [JsonLibrary.member, asciiJson, jsonText]
    change (jsonText (.object ms)).length = _
    rw [jsonText, hmember]
    simp only [List.length_append, List.length_singleton, jsonMembers_length]
    omega

theorem asciiJson_readsBack (o : JsonObject) : (asciiJson o).ReadsBack o :=
  ⟨o, if_pos rfl, fun _ v hv => ⟨v, hv, rfl⟩⟩

/-! ## 2. The two card messages -/

structure CardRegistInfo where
  string_card_number : Option JavaString
  string_phone : Option JavaString
  string_password : Option JavaString
  n_sex : Int32
  string_first_name : Option JavaString

structure CardVerifyInfo where
  string_card_number : Option JavaString
  string_card_password : Option JavaString

/-- The classes that `NetDataParsesCollection.NetDataParses` lists. -/
inductive NetDataParse where
  | cardRegistResult
  | serverInfo
  | userRegist
  | verifyLogin
  | cardVerifyResult
  deriving DecidableEq, Repr

/-- The enumeration `NetDataParses`: a class, `none` for `null`, and its request type. -/
def netDataParses : List (Option NetDataParse × JavaString) :=
  [(none, []),
    (some .cardRegistResult, lit "card_regist_request"),
    (some .serverInfo, lit "search_server_request"),
    (some .userRegist, lit "user_regist_request"),
    (some .verifyLogin, lit "verify_login_request"),
    (some .cardVerifyResult, lit "card_verify_request")]

/-- `NetDataParsesCollection.getRequestType`. -/
def getRequestType (objClass : NetDataParse) : JavaString :=
  ((netDataParses.find? fun a => a.1 = some objClass).map (·.2)).getD []

/-- The message of both `prepare_data` methods around their `cvalue`. -/
def message (ctype : JavaString) (cvalue : JsonObject) : JsonObject :=
  let content : JsonObject :=
    JsonObject.put (JsonObject.put [] (lit "ctype") (some (.string ctype)))
      (lit "cvalue") (some (.object cvalue))
  JsonObject.put
    (JsonObject.put
      (JsonObject.put [] (lit "transitionid") (some (.string [])))
      (lit "magicid") (some (.string [])))
    (lit "content") (some (.object content))

/-- `RegistCardNetSocketData.prepare_data`, the JSON object; `info` may be `null`. -/
def registCardMessage (info : Option CardRegistInfo) : JsonObject :=
  message (getRequestType .cardRegistResult) <|
    match info with
    | none => []
    | some info =>
      let o := JsonObject.put [] (lit "card_number") (info.string_card_number.map .string)
      let o := JsonObject.put o (lit "card_password") (info.string_password.map .string)
      let o := JsonObject.put o (lit "card_user_name") (info.string_first_name.map .string)
      let o := JsonObject.put o (lit "phone_number") (info.string_phone.map .string)
      JsonObject.put o (lit "sex") (some (.int info.n_sex))

/-- `VerifyCardNetSocketData.prepare_data`, the JSON object. -/
def verifyCardMessage (info : Option CardVerifyInfo) : JsonObject :=
  message (getRequestType .cardVerifyResult) <|
    match info with
    | none => []
    | some info =>
      let o := JsonObject.put [] (lit "card_number") (info.string_card_number.map .string)
      JsonObject.put o (lit "card_password") (info.string_card_password.map .string)

/-- A `NetSocketData` is its `prepare_data`; the array is never `null`, no key put is. -/
structure NetSocketData where
  prepareData : List UInt8

def registCardNetSocketData (lib : JsonLibrary) (info : Option CardRegistInfo) : NetSocketData :=
  ⟨lib.text (.object (registCardMessage info))⟩

def verifyCardNetSocketData (lib : JsonLibrary) (info : Option CardVerifyInfo) : NetSocketData :=
  ⟨lib.text (.object (verifyCardMessage info))⟩

/-! ## 3. The way to the socket -/

/-- `MyTcpClientSocket` as far as sending goes: whether `out` is set, and how many bytes the stream
still takes before it throws an `IOException`. -/
structure MyTcpClientSocket where
  out : Bool
  takes : Nat

/-- `how_send_data`: the bytes that reach the stream, and the result. -/
def MyTcpClientSocket.howSendData (s : MyTcpClientSocket) (data : List UInt8) (len : Int) :
    List UInt8 × Int :=
  if s.out then
    if data.length ≤ s.takes then (data, len) else (data.take s.takes, -1)
  else ([], -1)

/-- `MyClientSocket.send_data`: both branches of its test call `how_send_data`. -/
def MyTcpClientSocket.sendData (s : MyTcpClientSocket) (data : List UInt8) (len : Int) :
    List UInt8 × Int :=
  ((s.howSendData data len).1, 0)

/-- `OnlineClientUser`: its socket, `none` for `null`, and whether it has a `send_thread`. -/
structure OnlineClientUser where
  client_socket : Option MyTcpClientSocket
  send_thread : Bool

/-- `send_data` of the proxies in `commit_regist` and `commit_verify`; without a socket it throws
before anything is written. -/
def OnlineClientUser.proxySendData (user : OnlineClientUser) (send_byte : List UInt8) (len : Int) :
    List UInt8 × Option Int :=
  match user.client_socket with
  | none => ([], none)
  | some s => ((s.sendData send_byte len).1, some 0)

/-- `NetSocketData.be_send`. -/
def NetSocketData.beSend (data : NetSocketData) (user : OnlineClientUser) :
    List UInt8 × Option Int :=
  user.proxySendData data.prepareData data.prepareData.length

/-- What committing `data` writes to the stream.  With a `send_thread` the operator is posted and
runs later, in the state `later`, `none` if it never runs; otherwise `ToDoOperate` runs at once. -/
def OnlineClientUser.commit (user : OnlineClientUser) (later : Option OnlineClientUser)
    (data : NetSocketData) : List UInt8 :=
  if user.send_thread then
    match later with
    | none => []
    | some user => (data.beSend user).1
  else (data.beSend user).1

def OnlineClientUser.commitRegist (lib : JsonLibrary) (user : OnlineClientUser)
    (later : Option OnlineClientUser) (info : CardRegistInfo) : List UInt8 :=
  user.commit later (registCardNetSocketData lib (some info))

def OnlineClientUser.commitVerify (lib : JsonLibrary) (user : OnlineClientUser)
    (later : Option OnlineClientUser) (info : CardVerifyInfo) : List UInt8 :=
  user.commit later (verifyCardNetSocketData lib (some info))

/-! ## 4. What reaches the stream -/

theorem howSendData_prefix (s : MyTcpClientSocket) (data : List UInt8) (len : Int) :
    (s.howSendData data len).1 <+: data := by
  unfold MyTcpClientSocket.howSendData
  by_cases hout : s.out
  · rw [if_pos hout]
    by_cases hfit : data.length ≤ s.takes
    · rw [if_pos hfit]
    · rw [if_neg hfit]
      exact List.take_prefix ..
  · rw [if_neg hout]
    exact List.nil_prefix

theorem beSend_prefix (data : NetSocketData) (user : OnlineClientUser) :
    (data.beSend user).1 <+: data.prepareData := by
  unfold NetSocketData.beSend OnlineClientUser.proxySendData
  cases user.client_socket with
  | none => exact List.nil_prefix
  | some s => exact howSendData_prefix s _ _

/-- A commit writes the bare message or a first part of it. -/
theorem commit_prefix (user : OnlineClientUser) (later : Option OnlineClientUser)
    (data : NetSocketData) : user.commit later data <+: data.prepareData := by
  unfold OnlineClientUser.commit
  by_cases hthread : user.send_thread
  · rw [if_pos hthread]
    cases later with
    | none => exact List.nil_prefix
    | some user => exact beSend_prefix data user
  · rw [if_neg hthread]
    exact beSend_prefix data user

end VerifyServer.Client
