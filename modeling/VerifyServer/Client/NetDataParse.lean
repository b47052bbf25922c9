import VerifyServer.Client.NetSocketData

/-!
# NetDataParse — the client's parsers of server responses

A response is a JSON object whose `content` names its type under `ctype` and has its values under
`cvalue`.  Five parsers, one a response type, read the values into fields of their own; an exception
of the JSON library ends a parser where it stands.
-/

open VerifyServer.Reasoning

namespace VerifyServer.Client

/-! ## 1. Reading with `org.json` -/

/-- The getters return a member of the requested type; what they make of another one is up to the
library.  No result is a `JSONException`. -/
structure OrgJson where
  -- `new JSONObject(new String(buf_data))`
  parse : List UInt8 → Option JsonObject
  intOf : Json → Option Int32
  stringOf : Json → Option JavaString
  intOf_int : ∀ n, intOf (.int n) = some n
  stringOf_string : ∀ s, stringOf (.string s) = some s

def OrgJson.getInt (lib : OrgJson) (o : JsonObject) (key : JavaString) : Option Int32 :=
  (o.get key).bind lib.intOf

def OrgJson.getString (lib : OrgJson) (o : JsonObject) (key : JavaString) : Option JavaString :=
  (o.get key).bind lib.stringOf

def getJSONObject (o : JsonObject) (key : JavaString) : Option JsonObject :=
  match o.get key with
  | some (.object v) => some v
  | _ => none

theorem getJSONObject_eq {o v : JsonObject} {key : JavaString} (h : o.get key = some (.object v)) :
    getJSONObject o key = some v := by rw [getJSONObject, h]

theorem OrgJson.getInt_eq (lib : OrgJson) {o : JsonObject} {key : JavaString} {n : Int32}
    (h : o.get key = some (.int n)) : lib.getInt o key = some n := by
  rw [OrgJson.getInt, h, Option.bind_some, lib.intOf_int]

theorem OrgJson.getString_eq (lib : OrgJson) {o : JsonObject} {key s : JavaString}
    (h : o.get key = some (.string s)) : lib.getString o key = some s := by
  rw [OrgJson.getString, h, Option.bind_some, lib.stringOf_string]

theorem OrgJson.getInt_missing (lib : OrgJson) {o : JsonObject} {key : JavaString}
    (h : o.get key = none) : lib.getInt o key = none := by
  rw [OrgJson.getInt, h, Option.bind_none]

theorem OrgJson.getString_missing (lib : OrgJson) {o : JsonObject} {key : JavaString}
    (h : o.get key = none) : lib.getString o key = none := by
  rw [OrgJson.getString, h, Option.bind_none]

/-- The type under `ctype`. -/
def ctypeOf (lib : OrgJson) (buf_data : List UInt8) : Option JavaString := do
  let json_object ← lib.parse buf_data
  let json_content ← getJSONObject json_object (lit "content")
  lib.getString json_content (lit "ctype")

/-- The values under `cvalue`. -/
def cvalueOf (lib : OrgJson) (buf_data : List UInt8) : Option JsonObject := do
  let json_object ← lib.parse buf_data
  let json_content ← getJSONObject json_object (lit "content")
  getJSONObject json_content (lit "cvalue")

/-- The method `is_type` of all five parsers. -/
def isType (reponse : JavaString) (lib : OrgJson) (buf_data : List UInt8) : Bool :=
  match ctypeOf lib buf_data with
  | some string_type => equalsIgnoreCase string_type reponse
  | none => false

/-- The assignments of a `try` block, up to the first that throws, and whether none did. -/
def assignAll {σ : Type} (p : σ) : List (σ → Option σ) → σ × Bool
  | [] => (p, true)
  | a :: as =>
    match a p with
    | some p' => assignAll p' as
    | none => (p, false)

/-- A `parse_data` that makes `assignments` from the values of the message. -/
def parseDataWith {σ : Type} (assignments : OrgJson → JsonObject → List (σ → Option σ)) (p : σ)
    (lib : OrgJson) (buf_data : List UInt8) : σ × Bool :=
  match cvalueOf lib buf_data with
  | some json_cvalue => assignAll p (assignments lib json_cvalue)
  | none => (p, false)

/-- `NetDataParse.Parse`. -/
def parseWith {σ : Type} (reponse : JavaString) (parse_data : σ → OrgJson → List UInt8 → σ × Bool)
    (p : σ) (lib : OrgJson) (buf_data : List UInt8) : σ × Bool :=
  if isType reponse lib buf_data then parse_data p lib buf_data else (p, false)

/-! ## 2. The parsers -/

/-- The constants the parsers compare `ctype` with. -/
def NetDataParse.reponseType : NetDataParse → JavaString
  | .cardRegistResult => lit "card_regist_reponse"
  | .serverInfo => lit "search_server_reponse"
  | .userRegist => lit "user_regist_reponse"
  | .verifyLogin => lit "verify_login_reponse"
  | .cardVerifyResult => lit "card_verify_reponse"

structure ServerInfoNetDataParse where
  server_name : JavaString := lit "unknow"
  server_ip : JavaString := []
  server_port : Int32 := -1
  server_net_kind : Int32 := -1
  deriving DecidableEq, Repr

/-- The fields of the other parsers: `nresult`, and `str_string` or `strResult`. -/
structure ResultNetDataParse where
  nresult : Int32 := -1
  str : Option JavaString
  deriving DecidableEq, Repr

def ServerInfoNetDataParse.parseData :
    ServerInfoNetDataParse → OrgJson → List UInt8 → ServerInfoNetDataParse × Bool :=
  parseDataWith fun lib json_cvalue =>
    [fun p => (lib.getString json_cvalue (lit "server_name")).map fun v =>
        { p with server_name := v },
      fun p => (lib.getString json_cvalue (lit "ip")).map fun v => { p with server_ip := v },
      -- the port is read under `string_ip_key` too
      fun p => (lib.getInt json_cvalue (lit "ip")).map fun v => { p with server_port := v },
      fun p => (lib.getInt json_cvalue (lit "net_kind")).map fun v =>
        { p with server_net_kind := v }]

/-- The `parse_data` of a result, with the names its parser has for the two members. -/
def resultParseData (string_result_key string_info_key : JavaString) :
    ResultNetDataParse → OrgJson → List UInt8 → ResultNetDataParse × Bool :=
  parseDataWith fun lib json_cvalue =>
    [fun p => (lib.getInt json_cvalue string_result_key).map fun v => { p with nresult := v },
      fun p => (lib.getString json_cvalue string_info_key).map fun v => { p with str := some v }]

def cardRegistResultParseData := resultParseData (lit "nresult") (lit "strresult")

def cardVerifyResultParseData := resultParseData (lit "nresult") (lit "strresult")

def userRegistParseData := resultParseData (lit "result") (lit "result_info")

/-- This one catches the exception of the second getter by itself. -/
def verifyLoginParseData :
    ResultNetDataParse → OrgJson → List UInt8 → ResultNetDataParse × Bool :=
  parseDataWith fun lib json_cvalue =>
    [fun p => (lib.getInt json_cvalue (lit "result")).map fun v => { p with nresult := v },
      fun p =>
        match lib.getString json_cvalue (lit "result_info") with
        | some v => some { p with str := some v }
        | none => some p]

/-- The parsers that `NetDataParsesCollection.createObject` makes. -/
structure NetDataParsesCollection where
  cardRegistResult : ResultNetDataParse := { str := none }
  serverInfo : ServerInfoNetDataParse := {}
  userRegist : ResultNetDataParse := { str := some [] }
  verifyLogin : ResultNetDataParse := { str := some [] }
  cardVerifyResult : ResultNetDataParse := { str := none }
  deriving DecidableEq, Repr

/-- `Parse` of one of them, which changes that one only. -/
def NetDataParsesCollection.parseBy (ps : NetDataParsesCollection) (parser : NetDataParse)
    (lib : OrgJson) (buf_data : List UInt8) : NetDataParsesCollection × Bool :=
  match parser with
  | .cardRegistResult =>
    let r := parseWith parser.reponseType cardRegistResultParseData ps.cardRegistResult lib buf_data
    ({ ps with cardRegistResult := r.1 }, r.2)
  | .serverInfo =>
    let r := parseWith parser.reponseType ServerInfoNetDataParse.parseData ps.serverInfo lib buf_data
    ({ ps with serverInfo := r.1 }, r.2)
  | .userRegist =>
    let r := parseWith parser.reponseType userRegistParseData ps.userRegist lib buf_data
    ({ ps with userRegist := r.1 }, r.2)
  | .verifyLogin =>
    let r := parseWith parser.reponseType verifyLoginParseData ps.verifyLogin lib buf_data
    ({ ps with verifyLogin := r.1 }, r.2)
  | .cardVerifyResult =>
    let r := parseWith parser.reponseType cardVerifyResultParseData ps.cardVerifyResult lib buf_data
    ({ ps with cardVerifyResult := r.1 }, r.2)

/-- The loop of `NetDataParsesCollection.parse`: the parser given to `parse_suc`, none for
`parse_fail`. -/
def NetDataParsesCollection.parseFrom (lib : OrgJson) (rev_data : List UInt8) :
    NetDataParsesCollection → List NetDataParse → NetDataParsesCollection × Option NetDataParse
  | ps, [] => (ps, none)
  | ps, parser :: rest =>
    let r := ps.parseBy parser lib rev_data
    if r.2 then (r.1, some parser) else parseFrom lib rev_data r.1 rest

def NetDataParsesCollection.parse (ps : NetDataParsesCollection) (lib : OrgJson)
    (rev_data : List UInt8) : NetDataParsesCollection × Option NetDataParse :=
  parseFrom lib rev_data ps (netDataParses.filterMap (·.1))

end VerifyServer.Client
