import VerifyServer.Client.NetSocketData
import VerifyServer.Protocol.JsonPrint
import VerifyServer.Protocol.Requests
import VerifyServer.Reasoning.Utf8

/-!
# SignupParse — what the server takes for a request to sign up

`ClientSignupNetSocketDataParse::_isType` reads the message of a client from a buffer of 1024 units.
The text of a message is that of the JSON library of the client: a text of its members in some order.
-/

open VerifyServer.Reasoning VerifyServer.Client

namespace VerifyServer.Protocol

/-! ## 1. The functions -/

variable {D : Type}

/-- The children with their names; those of an array have none. -/
def JsonTree.children : JsonTree D → List (Option TText × JsonTree D)
  | .array child => child.map fun c => (none, c)
  | .object child => child.map fun c => (some c.1, c.2)
  | _ => []

/-- `cJSON_GetObjectItem`. -/
def JsonTree.getObjectItem (object : JsonTree D) (string : TText) : Option (JsonTree D) :=
  (object.children.find? fun c => strcasecmp c.1 (some string) = 0).map Prod.snd

/-- `GlobalUtf8ToUnicode` into a buffer of zeros, up to the NUL; `nLen` counts the NUL too. -/
def globalUtf8ToUnicode (wide : List UInt16) (len : Nat) : List UInt16 :=
  if len < wide.length + 1 then [] else wide

def m_strRequest : List UInt16 := lit "user_regist_request"

/-- `_isType` on the bytes in front of the zero byte, with what becomes of `m_strType`; an error when
the parser reads or writes where it must not. -/
def isType (A : Doubles D) (multiByteToWideChar : List UInt8 → List UInt16) (m_strType : List UInt16)
    (data : List UInt8) : Except ParseFault (Bool × List UInt16) :=
  match parse A (cStr (globalUtf8ToUnicode (multiByteToWideChar data) 1023)) with
  | .ok proot =>
    match (proot.getObjectItem JSON_COMMON_CONTENT_KEY).bind
        (·.getObjectItem JSON_COMMON_CTYPE_KEY) with
    | some (.string valuestring) =>
      .ok (decide (valuestring.units = m_strRequest), valuestring.units)
    | _ => .ok (false, m_strType)
  | .error (.failed _) => .ok (false, m_strType)
  | .error fault => .error fault

/-! ## 2. The message of the client -/

structure UserRegistInfo where
  user_name : Option JavaString
  user_password : Option JavaString
  user_phone : Option JavaString
  identify_code : Option JavaString

/-- `UserSignupNetSocketData.prepare_data`, the JSON object. -/
def userSignupMessage (info : Option UserRegistInfo) : JsonObject :=
  message (lit "user_regist_request") <|
    match info with
    | none => []
    | some info =>
      let o := JsonObject.put [] (lit "user_name") (info.user_name.map .string)
      let o := JsonObject.put o (lit "user_password") (info.user_password.map .string)
      let o := JsonObject.put o (lit "phone_number") (info.user_phone.map .string)
      JsonObject.put o (lit "identify_code") (info.identify_code.map .string)

mutual

/-- The item that a text of the client's library spells; the members may come in every order. -/
inductive Shown (A : Doubles D) : Json → JsonTree D → Prop where
  | string (s : TText) : Shown A (.string s.units) (.string s)
  | int (n : Int32) : Shown A (.int n) (.number n (A.ofInt n.toInt))
  | object {o : JsonObject} {ms ms' : List (TText × JsonTree D)} (h : ShownMembers A o ms)
      (hperm : ms'.Perm ms) : Shown A (.object o) (.object ms')

inductive ShownMembers (A : Doubles D) : JsonObject → List (TText × JsonTree D) → Prop where
  | nil : ShownMembers A [] []
  | cons {key : TText} {value : Json} {v : JsonTree D} {o : JsonObject}
      {ms : List (TText × JsonTree D)} (h : Shown A value v) (hs : ShownMembers A o ms) :
      ShownMembers A ((key.units, value) :: o) ((key, v) :: ms)

end

/-! ## 3. Every message is recognised by its type -/

/-- The one child with a name, wherever it stands. -/
theorem getObjectItem_perm {ms ms' : List (TText × JsonTree D)} (hperm : ms'.Perm ms)
    {key : TText} {v : JsonTree D} (hmem : (key, v) ∈ ms)
    (hkeys : ∀ m ∈ ms, SameKey m.1 key → m = (key, v)) :
    (JsonTree.object ms').getObjectItem key = some v := by
  have hfind : (JsonTree.object ms').children.find?
      (fun c => strcasecmp c.1 (some key) = 0) = some (some key, v) := by
    change (ms'.map fun c => (some c.1, c.2)).find? _ = _
    cases hresult : (ms'.map fun c => ((some c.1, c.2) : Option TText × JsonTree D)).find?
        (fun c => strcasecmp c.1 (some key) = 0) with
    | none =>
      have hnone := List.find?_eq_none.mp hresult (some key, v)
        (List.mem_map.mpr ⟨(key, v), hperm.mem_iff.mpr hmem, rfl⟩)
      exact absurd (decide_eq_true (strcasecmp_eq_zero.mpr (SameKey.refl key))) hnone
    | some c =>
      have ⟨m, hm, hc⟩ := List.mem_map.mp (List.mem_of_find?_eq_some hresult)
      have hfound := List.find?_some hresult
      rw [← hc] at hfound
      have hsame : strcasecmp (some m.1) (some key) = 0 := of_decide_eq_true hfound
      have heq := hkeys m (hperm.mem_iff.mp hm) (strcasecmp_eq_zero.mp hsame)
      rw [← hc, heq]
  rw [JsonTree.getObjectItem, hfind]
  rfl

theorem ttext_ext {s t : TText} (h : s.units = t.units) : s = t := by
  cases s
  cases t
  cases h
  rfl

variable {A : Doubles D}

theorem message_eq (ctype : JavaString) (cvalue : JsonObject) : message ctype cvalue =
    [(lit "transitionid", .string []), (lit "magicid", .string []),
      (lit "content", .object [(lit "ctype", .string ctype), (lit "cvalue", .object cvalue)])] :=
  rfl

theorem ShownMembers.head {k : JavaString} {value : Json} {o : JsonObject}
    {ms : List (TText × JsonTree D)} (h : ShownMembers A ((k, value) :: o) ms) :
    ∃ key v ms', ms = (key, v) :: ms' ∧ key.units = k ∧ Shown A value v ∧
      ShownMembers A o ms' := by
  cases h with
  | cons h hs => exact ⟨_, _, _, rfl, rfl, h, hs⟩

theorem ShownMembers.eq_nil {ms : List (TText × JsonTree D)} (h : ShownMembers A [] ms) :
    ms = [] := by
  cases h
  rfl

theorem Shown.members {o : JsonObject} {v : JsonTree D} (h : Shown A (.object o) v) :
    ∃ ms ms', v = .object ms' ∧ ShownMembers A o ms ∧ ms'.Perm ms := by
  cases h with
  | object h hperm => exact ⟨_, _, rfl, h, hperm⟩

theorem Shown.units {s : JavaString} {v : JsonTree D} (h : Shown A (.string s) v) :
    ∃ t : TText, v = .string t ∧ t.units = s := by
  cases h
  exact ⟨_, rfl, rfl⟩

/-- What is found in a message. -/
theorem getObjectItem_message {ctype : TText} {cvalue : JsonObject} {v : JsonTree D}
    (h : Shown A (.object (message ctype.units cvalue)) v) :
    (v.getObjectItem JSON_COMMON_CONTENT_KEY).bind (·.getObjectItem JSON_COMMON_CTYPE_KEY) =
      some (.string ctype) := by
  rw [message_eq] at h
  have ⟨ms, ms', hv, hms, hperm⟩ := h.members
  have ⟨k₁, v₁, ms₁, heq₁, hk₁, _, hms₁⟩ := hms.head
  have ⟨k₂, v₂, ms₂, heq₂, hk₂, _, hms₂⟩ := hms₁.head
  have ⟨k₃, content, ms₃, heq₃, hk₃, hcontent, hms₃⟩ := hms₂.head
  have ⟨cs, cs', hcs', hcs, hperm'⟩ := hcontent.members
  have ⟨l₁, w, cs₁, heq₄, hl₁, hw, hcs₁⟩ := hcs.head
  have ⟨l₂, w₂, cs₂, heq₅, hl₂, _, hcs₂⟩ := hcs₁.head
  have ⟨t, ht, htext⟩ := hw.units
  obtain rfl := ttext_ext (t := JSON_COMMON_REQUEST_TRANSITIONID) hk₁
  obtain rfl := ttext_ext (t := JSON_COMMON_REQUEST_MAGICID) hk₂
  obtain rfl := ttext_ext (t := JSON_COMMON_CONTENT_KEY) hk₃
  obtain rfl := ttext_ext (t := JSON_COMMON_CTYPE_KEY) hl₁
  obtain rfl := ttext_ext (t := JSON_COMMON_CVALUE_KEY) hl₂
  obtain rfl := ttext_ext htext
  obtain rfl := hms₃.eq_nil
  obtain rfl := hcs₂.eq_nil
  subst heq₁ heq₂ heq₃ heq₄ heq₅ hcs' hv ht
  have htransition : ¬SameKey JSON_COMMON_REQUEST_TRANSITIONID JSON_COMMON_CONTENT_KEY := by decide
  have hmagic : ¬SameKey JSON_COMMON_REQUEST_MAGICID JSON_COMMON_CONTENT_KEY := by decide
  have hvalue : ¬SameKey JSON_COMMON_CVALUE_KEY JSON_COMMON_CTYPE_KEY := by decide
  have hcontent : (JsonTree.object ms').getObjectItem JSON_COMMON_CONTENT_KEY =
      some (.object cs') := by
    refine getObjectItem_perm hperm (by simp) fun m hm hsame => ?_
    simp only [List.mem_cons, List.not_mem_nil, or_false] at hm
    rcases hm with rfl | rfl | rfl
    · exact absurd hsame htransition
    · exact absurd hsame hmagic
    · rfl
  have htype : (JsonTree.object cs').getObjectItem JSON_COMMON_CTYPE_KEY =
      some (.string t) := by
    refine getObjectItem_perm hperm' (by simp) fun m hm hsame => ?_
    simp only [List.mem_cons, List.not_mem_nil, or_false] at hm
    rcases hm with rfl | rfl
    · rfl
    · exact absurd hsame hvalue
  rw [hcontent]
  exact htype

/-- The server takes a message for one to sign up by its type alone, and only when its text fits. -/
theorem isType_message {ctype : TText} {cvalue : JsonObject} {v : JsonTree D}
    (hshown : Shown A (.object (message ctype.units cvalue)) v) {text : TText}
    (htext : SpellsText A (NumberText.Parsed A) Blanks v text.units) {multiByteToWideChar : List UInt8 → List UInt16}
    (hwide : multiByteToWideChar (utf8 [0x3F] text.units) = text.units) (m_strType : List UInt16) :
    isType A multiByteToWideChar m_strType (utf8 [0x3F] text.units) =
      .ok (if text.units.length < 1023 then (decide (ctype.units = m_strRequest), ctype.units)
        else (false, m_strType)) := by
  rw [isType, hwide, globalUtf8ToUnicode]
  by_cases hfits : text.units.length < 1023
  · have ⟨_, hparse, _⟩ := parse_spells htext false
    have hitem : parse A text = .ok v := by
      rw [parse, hparse]
      rfl
    rw [if_neg (by omega), if_pos hfits, cStr_units, hitem]
    simp only [getObjectItem_message hshown]
  · rw [if_pos (by omega), if_neg hfits]
    rfl

/-- The item of a request without data. -/
def emptySignup : JsonTree Int :=
  .object [(JSON_COMMON_REQUEST_TRANSITIONID, .string (cStr [])),
    (JSON_COMMON_REQUEST_MAGICID, .string (cStr [])),
    (JSON_COMMON_CONTENT_KEY, .object [(JSON_COMMON_CTYPE_KEY, .string (cStr m_strRequest)),
      (JSON_COMMON_CVALUE_KEY, .object [])])]

theorem shown_emptySignup : Shown integers (.object (userSignupMessage none)) emptySignup := by
  have hvalue := @ShownMembers.cons _ integers JSON_COMMON_CVALUE_KEY _ _ _ _
    (.object .nil (.refl _)) .nil
  have hcontent := @ShownMembers.cons _ integers JSON_COMMON_CTYPE_KEY _ _ _ _
    (.string (cStr m_strRequest)) hvalue
  have hlast := @ShownMembers.cons _ integers JSON_COMMON_CONTENT_KEY _ _ _ _
    (.object hcontent (.refl _)) .nil
  have hmagic := @ShownMembers.cons _ integers JSON_COMMON_REQUEST_MAGICID _ _ _ _
    (.string (cStr [])) hlast
  have hall := @ShownMembers.cons _ integers JSON_COMMON_REQUEST_TRANSITIONID _ _ _ _
    (.string (cStr [])) hmagic
  exact .object hall (.refl _)

theorem whole_emptySignup : emptySignup.Whole integers :=
  And.intro trivial (And.intro trivial
    (And.intro (And.intro trivial (And.intro trivial trivial)) trivial))

theorem isType_message_signup : isType integers (fun data => data.map fun b => UInt16.ofNat b.toNat)
    [] (utf8 [0x3F] (cStr (render integers false 0 emptySignup)).units) =
      .ok (true, m_strRequest) :=
  @isType_message _ integers (cStr m_strRequest) _ _ shown_emptySignup _
    (spellsText_render false integers_exact whole_emptySignup 0) _ rfl []

end VerifyServer.Protocol
