import VerifyServer.Client.NetDataParse

/-!
# Responses — what the parsers make of the server's responses

`SocketProtocol.h` and `Jsonkey` name the members of a response alike.  A response here is its
values; its message has them under these names, and its parser should end up with them in its fields.
-/

open VerifyServer.Reasoning

namespace VerifyServer.Client

/-! ## 1. Responses -/

/-- The two names a result has for its text. -/
inductive ResultText where
  | strresult
  | result_info
  deriving DecidableEq, Repr

def ResultText.key : ResultText → JavaString
  | .strresult => lit "strresult"
  | .result_info => lit "result_info"

structure ResultValues where
  result : Int32
  text : ResultText
  info : JavaString

inductive Response where
  | serverInfo (server_name ip : JavaString) (port net_kind : Int32)
  | userRegist (v : ResultValues)
  | verifyLogin (v : ResultValues)
  | cardRegistResult (v : ResultValues)
  | cardVerifyResult (v : ResultValues)

/-- The class of the parser that is registered for the response. -/
def Response.parser : Response → NetDataParse
  | .serverInfo .. => .serverInfo
  | .userRegist _ => .userRegist
  | .verifyLogin _ => .verifyLogin
  | .cardRegistResult _ => .cardRegistResult
  | .cardVerifyResult _ => .cardVerifyResult

def ResultValues.members (v : ResultValues) : JsonObject :=
  [(lit "result", .int v.result), (v.text.key, .string v.info)]

/-- The members of its `cvalue`. -/
def Response.members : Response → JsonObject
  | .serverInfo server_name ip port net_kind =>
    [(lit "server_name", .string server_name), (lit "ip", .string ip), (lit "port", .int port),
      (lit "net_kind", .int net_kind)]
  | .userRegist v | .verifyLogin v | .cardRegistResult v | .cardVerifyResult v => v.members

/-- `json_object` carries the response: its type and, in any order, its members. -/
def Response.Built (r : Response) (json_object : JsonObject) : Prop :=
  ∃ content cvalue : JsonObject, json_object.get (lit "content") = some (.object content) ∧
    content.get (lit "ctype") = some (.string r.parser.reponseType) ∧
    content.get (lit "cvalue") = some (.object cvalue) ∧
    ∀ key, cvalue.get key = r.members.get key

def ResultNetDataParse.Holds (p : ResultNetDataParse) (v : ResultValues) : Prop :=
  p.nresult = v.result ∧ p.str = some v.info

/-- The fields of the response's parser are the values of the response. -/
def Response.HeldBy (ps : NetDataParsesCollection) : Response → Prop
  | .serverInfo server_name ip port net_kind =>
    ps.serverInfo = ⟨server_name, ip, port, net_kind⟩
  | .userRegist v => ps.userRegist.Holds v
  | .verifyLogin v => ps.verifyLogin.Holds v
  | .cardRegistResult v => ps.cardRegistResult.Holds v
  | .cardVerifyResult v => ps.cardVerifyResult.Holds v

/-- `Parse` of the response's parser returns true, with the values in its fields. -/
def Response.ParsedBy (r : Response) (ps : NetDataParsesCollection) (lib : OrgJson)
    (buf_data : List UInt8) : Prop :=
  (ps.parseBy r.parser lib buf_data).2 = true ∧ r.HeldBy (ps.parseBy r.parser lib buf_data).1

/-- The address converts to the port; the text of a registration is under `result_info`, and so is
that of a login, unless the parser has that very text from before; a card result never gets through. -/
def Response.GetsThrough (ps : NetDataParsesCollection) (lib : OrgJson) : Response → Prop
  | .serverInfo _ ip port _ => lib.intOf (.string ip) = some port
  | .userRegist v => v.text = .result_info
  | .verifyLogin v => v.text = .result_info ∨ ps.verifyLogin.str = some v.info
  | .cardRegistResult _ | .cardVerifyResult _ => False

/-! ## 2. The parsers on a response -/

section Built

variable {lib : OrgJson} {buf_data : List UInt8} {json_object : JsonObject} {r : Response}

theorem isType_built (hread : lib.parse buf_data = some json_object) (h : r.Built json_object) :
    isType r.parser.reponseType lib buf_data = true := by
  have ⟨content, _, hcontent, hctype, _⟩ := h
  have htype : ctypeOf lib buf_data = some r.parser.reponseType := by
    simp only [ctypeOf, hread, getJSONObject_eq hcontent, lib.getString_eq hctype, bind,
      Option.bind_some]
  rw [isType, htype]
  exact equalsIgnoreCase_self _

theorem cvalueOf_built (hread : lib.parse buf_data = some json_object) (h : r.Built json_object) :
    ∃ cvalue, cvalueOf lib buf_data = some cvalue ∧ ∀ key, cvalue.get key = r.members.get key := by
  have ⟨content, cvalue, hcontent, _, hcvalue, hget⟩ := h
  refine ⟨cvalue, ?_, hget⟩
  simp only [cvalueOf, hread, getJSONObject_eq hcontent, getJSONObject_eq hcvalue, bind,
    Option.bind_some]

/-- On its response a parser makes its assignments from the values. -/
theorem parseWith_built {σ : Type} {assignments : OrgJson → JsonObject → List (σ → Option σ)}
    {p : σ} {cvalue : JsonObject} (hread : lib.parse buf_data = some json_object)
    (h : r.Built json_object) (hcvalue : cvalueOf lib buf_data = some cvalue) :
    parseWith r.parser.reponseType (parseDataWith assignments) p lib buf_data =
      assignAll p (assignments lib cvalue) := by
  rw [parseWith, if_pos (isType_built hread h), parseDataWith, hcvalue]

end Built

/-! ## 3. Results -/

theorem ResultValues.get_result (v : ResultValues) :
    v.members.get (lit "result") = some (.int v.result) := rfl

theorem ResultValues.get_info (v : ResultValues) {key : JavaString} (h : v.text.key = key) :
    v.members.get key = some (.string v.info) := by
  obtain ⟨result, text, info⟩ := v
  cases text <;> cases h <;> rfl

theorem ResultValues.get_other (v : ResultValues) {key : JavaString} (hresult : lit "result" ≠ key)
    (htext : v.text.key ≠ key) : v.members.get key = none := by
  have hfind : v.members.find? (fun m => m.1 = key) = none := by
    apply List.find?_eq_none.mpr
    intro m hm
    rcases List.mem_cons.mp hm with rfl | hm
    · exact fun h => hresult (of_decide_eq_true h)
    · rw [List.mem_singleton.mp hm]
      exact fun h => htext (of_decide_eq_true h)
  rw [JsonObject.get, hfind]
  rfl

section Results

variable {lib : OrgJson} {buf_data : List UInt8} {json_object : JsonObject} {r : Response}
  {v : ResultValues}

/-- A card result's parser asks for `nresult`, which no response has. -/
theorem cardResult_fails (hread : lib.parse buf_data = some json_object)
    (h : r.Built json_object) (hv : r.members = v.members) (p : ResultNetDataParse) :
    parseWith r.parser.reponseType (resultParseData (lit "nresult") (lit "strresult")) p lib
      buf_data = (p, false) := by
  have ⟨cvalue, hcvalue, hget⟩ := cvalueOf_built hread h
  have hno : JsonObject.get cvalue (lit "nresult") = none := by
    rw [hget, hv]
    apply v.get_other (by decide)
    cases v.text <;> decide
  apply (parseWith_built hread h hcvalue).trans
  simp only [assignAll, lib.getInt_missing hno, Option.map_none]

/-- The parser of a registration reads a text under `result_info` and fails on another one. -/
theorem userRegist_built (hread : lib.parse buf_data = some json_object)
    (h : r.Built json_object) (hv : r.members = v.members) (p : ResultNetDataParse) :
    parseWith r.parser.reponseType userRegistParseData p lib buf_data =
      if v.text = .result_info then (⟨v.result, some v.info⟩, true)
      else ({ p with nresult := v.result }, false) := by
  have ⟨cvalue, hcvalue, hget⟩ := cvalueOf_built hread h
  have hresult : JsonObject.get cvalue (lit "result") = some (.int v.result) := by
    rw [hget, hv, v.get_result]
  apply (parseWith_built hread h hcvalue).trans
  by_cases htext : v.text = .result_info
  · have hinfo : JsonObject.get cvalue (lit "result_info") = some (.string v.info) := by
      rw [hget, hv]
      exact v.get_info (by rw [htext]; rfl)
    simp only [assignAll, lib.getInt_eq hresult, lib.getString_eq hinfo, Option.map_some,
      if_pos htext]
  · have hno : JsonObject.get cvalue (lit "result_info") = none := by
      rw [hget, hv]
      apply v.get_other (by decide)
      revert htext
      cases v.text <;> decide
    simp only [assignAll, lib.getInt_eq hresult, lib.getString_missing hno, Option.map_some,
      Option.map_none, if_neg htext]

/-- The parser of a login keeps its old text when there is none under `result_info`. -/
theorem verifyLogin_built (hread : lib.parse buf_data = some json_object)
    (h : r.Built json_object) (hv : r.members = v.members) (p : ResultNetDataParse) :
    parseWith r.parser.reponseType verifyLoginParseData p lib buf_data =
      (⟨v.result, if v.text = .result_info then some v.info else p.str⟩, true) := by
  have ⟨cvalue, hcvalue, hget⟩ := cvalueOf_built hread h
  have hresult : JsonObject.get cvalue (lit "result") = some (.int v.result) := by
    rw [hget, hv, v.get_result]
  apply (parseWith_built hread h hcvalue).trans
  by_cases htext : v.text = .result_info
  · have hinfo : JsonObject.get cvalue (lit "result_info") = some (.string v.info) := by
      rw [hget, hv]
      exact v.get_info (by rw [htext]; rfl)
    simp only [assignAll, lib.getInt_eq hresult, lib.getString_eq hinfo, Option.map_some,
      if_pos htext]
  · have hno : JsonObject.get cvalue (lit "result_info") = none := by
      rw [hget, hv]
      apply v.get_other (by decide)
      revert htext
      cases v.text <;> decide
    simp only [assignAll, lib.getInt_eq hresult, lib.getString_missing hno, Option.map_some,
      if_neg htext]

end Results

/-! ## 4. All five -/

theorem serverInfo_built {lib : OrgJson} {buf_data : List UInt8} {json_object : JsonObject}
    {server_name ip : JavaString} {port net_kind : Int32}
    (hread : lib.parse buf_data = some json_object)
    (h : (Response.serverInfo server_name ip port net_kind).Built json_object)
    (p : ServerInfoNetDataParse) :
    parseWith NetDataParse.serverInfo.reponseType ServerInfoNetDataParse.parseData p lib buf_data =
      match lib.intOf (.string ip) with
      | some n => (⟨server_name, ip, n, net_kind⟩, true)
      | none => ({ p with server_name := server_name, server_ip := ip }, false) := by
  have ⟨cvalue, hcvalue, hget⟩ := cvalueOf_built hread h
  have hname : JsonObject.get cvalue (lit "server_name") = some (.string server_name) :=
    (hget _).trans rfl
  have hip : JsonObject.get cvalue (lit "ip") = some (.string ip) := (hget _).trans rfl
  have hkind : JsonObject.get cvalue (lit "net_kind") = some (.int net_kind) := (hget _).trans rfl
  have hport : lib.getInt cvalue (lit "ip") = lib.intOf (.string ip) := by
    rw [OrgJson.getInt, hip, Option.bind_some]
  apply (parseWith_built hread h hcvalue).trans
  cases hconv : lib.intOf (.string ip) <;>
    simp only [assignAll, lib.getString_eq hname, lib.getString_eq hip, hport, hconv,
      lib.getInt_eq hkind, Option.map_some, Option.map_none]

section Parsed

variable {lib : OrgJson} {buf_data : List UInt8} {json_object : JsonObject}
  (ps : NetDataParsesCollection)

theorem serverInfo_parsed_iff {server_name ip : JavaString} {port net_kind : Int32}
    (hread : lib.parse buf_data = some json_object)
    (h : (Response.serverInfo server_name ip port net_kind).Built json_object) :
    (Response.serverInfo server_name ip port net_kind).ParsedBy ps lib buf_data ↔
      lib.intOf (.string ip) = some port := by
  simp only [Response.ParsedBy, Response.parser, NetDataParsesCollection.parseBy, Response.HeldBy,
    serverInfo_built hread h]
  cases lib.intOf (.string ip) with
  | none => simp
  | some n => simp

theorem userRegist_parsed_iff {v : ResultValues} (hread : lib.parse buf_data = some json_object)
    (h : (Response.userRegist v).Built json_object) :
    (Response.userRegist v).ParsedBy ps lib buf_data ↔ v.text = .result_info := by
  have hparse : parseWith NetDataParse.userRegist.reponseType userRegistParseData ps.userRegist
    lib buf_data = _ := userRegist_built hread h rfl ps.userRegist
  simp only [Response.ParsedBy, Response.parser, NetDataParsesCollection.parseBy, Response.HeldBy,
    hparse]
  by_cases htext : v.text = .result_info
  · rw [if_pos htext]
    exact ⟨fun _ => htext, fun _ => ⟨rfl, rfl, rfl⟩⟩
  · rw [if_neg htext]
    exact ⟨fun h => (nomatch h.1), fun h => absurd h htext⟩

theorem verifyLogin_parsed_iff {v : ResultValues} (hread : lib.parse buf_data = some json_object)
    (h : (Response.verifyLogin v).Built json_object) :
    (Response.verifyLogin v).ParsedBy ps lib buf_data ↔
      v.text = .result_info ∨ ps.verifyLogin.str = some v.info := by
  have hparse : parseWith NetDataParse.verifyLogin.reponseType verifyLoginParseData ps.verifyLogin
    lib buf_data = _ := verifyLogin_built hread h rfl ps.verifyLogin
  simp only [Response.ParsedBy, Response.parser, NetDataParsesCollection.parseBy, Response.HeldBy,
    hparse]
  by_cases htext : v.text = .result_info
  · rw [if_pos htext]
    exact ⟨fun _ => .inl htext, fun _ => ⟨trivial, rfl, rfl⟩⟩
  · rw [if_neg htext]
    constructor
    · exact fun h => .inr h.2.2
    · exact fun h => ⟨trivial, rfl, h.resolve_left htext⟩

theorem cardRegistResult_unparsed {v : ResultValues}
    (hread : lib.parse buf_data = some json_object)
    (h : (Response.cardRegistResult v).Built json_object) :
    ¬ (Response.cardRegistResult v).ParsedBy ps lib buf_data := by
  intro ⟨htrue, _⟩
  have hparse : parseWith NetDataParse.cardRegistResult.reponseType cardRegistResultParseData
    ps.cardRegistResult lib buf_data = _ := cardResult_fails hread h rfl ps.cardRegistResult
  simp only [Response.parser, NetDataParsesCollection.parseBy, hparse, Bool.false_eq_true] at htrue

theorem cardVerifyResult_unparsed {v : ResultValues}
    (hread : lib.parse buf_data = some json_object)
    (h : (Response.cardVerifyResult v).Built json_object) :
    ¬ (Response.cardVerifyResult v).ParsedBy ps lib buf_data := by
  intro ⟨htrue, _⟩
  have hparse : parseWith NetDataParse.cardVerifyResult.reponseType cardVerifyResultParseData
    ps.cardVerifyResult lib buf_data = _ := cardResult_fails hread h rfl ps.cardVerifyResult
  simp only [Response.parser, NetDataParsesCollection.parseBy, hparse, Bool.false_eq_true] at htrue

/-- A response is parsed into its values exactly when it gets through. -/
theorem response_parsed_iff (r : Response) (hread : lib.parse buf_data = some json_object)
    (h : r.Built json_object) : r.ParsedBy ps lib buf_data ↔ r.GetsThrough ps lib := by
  cases r with
  | serverInfo server_name ip port net_kind => exact serverInfo_parsed_iff ps hread h
  | userRegist v => exact userRegist_parsed_iff ps hread h
  | verifyLogin v => exact verifyLogin_parsed_iff ps hread h
  | cardRegistResult v => exact iff_false_intro (cardRegistResult_unparsed ps hread h)
  | cardVerifyResult v => exact iff_false_intro (cardVerifyResult_unparsed ps hread h)

end Parsed

/-! ## 5. On the bytes of a text -/

/-- A message with the response, laid out like the client's own messages. -/
def Response.message (r : Response) : JsonObject :=
  Client.message r.parser.reponseType r.members

theorem Response.message_built (r : Response) : r.Built r.message :=
  ⟨_, r.members, rfl, rfl, rfl, fun _ => rfl⟩

/-- A string of digits converts to a number, another one does not. -/
def intOfDigits (s : JavaString) : Option Int32 :=
  if s ≠ [] ∧ s.all (fun c => 0x30 ≤ c && c ≤ 0x39) = true then
    some (Int32.ofNat (s.foldl (fun n c => 10 * n + (c.toNat - 0x30)) 0))
  else none

/-- A library that reads the text of the one object `o`; strings and numbers convert. -/
def asciiOrgJson (o : JsonObject) : OrgJson where
  parse := fun buf_data => if buf_data = jsonText (.object o) then some o else none
  intOf
    | .int n => some n
    | .string s => intOfDigits s
    | .object _ => none
    | .other _ => none
  stringOf
    | .string s => some s
    | .int n => some (decimal n.toInt)
    | .object ms => some ((jsonText (.object ms)).map UInt8.toUInt16)
    | .other text => some (text.map UInt8.toUInt16)
  intOf_int _ := rfl
  stringOf_string _ := rfl

theorem asciiOrgJson_parse (o : JsonObject) :
    (asciiOrgJson o).parse (jsonText (.object o)) = some o := if_pos rfl

/-- The registration of a user that went well is read. -/
theorem response_parsed_userRegist :
    (Response.userRegist ⟨0, .result_info, lit "ok"⟩).ParsedBy {}
      (asciiOrgJson (Response.userRegist ⟨0, .result_info, lit "ok"⟩).message)
      (jsonText (.object (Response.userRegist ⟨0, .result_info, lit "ok"⟩).message)) :=
  (response_parsed_iff {} _ (asciiOrgJson_parse _) (Response.message_built _)).mpr rfl

/-- A server at 10.0.0.2, port 3601, and a card registered: neither parser gets through. -/
theorem response_not_parsed :
    (¬ (Response.serverInfo (lit "shop") (lit "10.0.0.2") 3601 1).ParsedBy {}
      (asciiOrgJson (Response.serverInfo (lit "shop") (lit "10.0.0.2") 3601 1).message)
      (jsonText (.object (Response.serverInfo (lit "shop") (lit "10.0.0.2") 3601 1).message))) ∧
    ¬ (Response.cardRegistResult ⟨0, .strresult, []⟩).ParsedBy {}
      (asciiOrgJson (Response.cardRegistResult ⟨0, .strresult, []⟩).message)
      (jsonText (.object (Response.cardRegistResult ⟨0, .strresult, []⟩).message)) := by
  constructor
  · rw [serverInfo_parsed_iff {} (asciiOrgJson_parse _) (Response.message_built _)]
    decide
  · exact cardRegistResult_unparsed {} (asciiOrgJson_parse _) (Response.message_built _)

end VerifyServer.Client
