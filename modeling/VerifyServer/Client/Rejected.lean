import VerifyServer.Client.Responses

/-!
# Rejected — what a message leaves in a parser that rejects it

A parser assigns its fields in the order in which it reads the members.  Where a getter throws, the
fields before it have their new values already, and `Parse` returns false.
-/

open VerifyServer.Reasoning

namespace VerifyServer.Client

/-! ## 1. Assignments -/

section Assignments

variable {σ : Type} {p : σ}

/-- Assignments that did not all succeed changed nothing. -/
def LeavesNoTrace (p : σ) (as : List (σ → Option σ)) : Prop :=
  (assignAll p as).2 = false → (assignAll p as).1 = p

/-- `Parse` returns false without a trace just when its assignments do, on a message of its type
with values. -/
theorem parseWith_trace_iff {reponse : JavaString}
    {assignments : OrgJson → JsonObject → List (σ → Option σ)} (p : σ) (lib : OrgJson)
    (buf_data : List UInt8) :
    ((parseWith reponse (parseDataWith assignments) p lib buf_data).2 = false →
        (parseWith reponse (parseDataWith assignments) p lib buf_data).1 = p) ↔
      (isType reponse lib buf_data = true →
        ∀ json_cvalue, cvalueOf lib buf_data = some json_cvalue →
          LeavesNoTrace p (assignments lib json_cvalue)) := by
  unfold parseWith
  split
  · next htype =>
    unfold parseDataWith
    cases hcvalue : cvalueOf lib buf_data with
    | none => exact iff_of_true (fun _ => rfl) fun _ _ h => nomatch h
    | some json_cvalue =>
      constructor
      · intro h _ v hv
        rw [← Option.some.inj hv]
        exact h
      · exact fun h => h htype json_cvalue rfl
  · next htype => exact iff_of_true (fun _ => rfl) fun h => absurd h htype

end Assignments

/-! ## 2. The parsers -/

/-- A result code that is read before a text that is not is the one held already. -/
def ResultNetDataParse.Untouched (string_result_key string_info_key : JavaString)
    (p : ResultNetDataParse) (lib : OrgJson) (json_cvalue : JsonObject) : Prop :=
  ∀ n, lib.getInt json_cvalue string_result_key = some n →
    lib.getString json_cvalue string_info_key = none → n = p.nresult

/-- And so is each member of a server that is read before one that is not. -/
def ServerInfoNetDataParse.Untouched (p : ServerInfoNetDataParse) (lib : OrgJson)
    (json_cvalue : JsonObject) : Prop :=
  ∀ name, lib.getString json_cvalue (lit "server_name") = some name →
    (lib.getString json_cvalue (lit "ip") = none → name = p.server_name) ∧
    ∀ ip, lib.getString json_cvalue (lit "ip") = some ip →
      (lib.getInt json_cvalue (lit "ip") = none → name = p.server_name ∧ ip = p.server_ip) ∧
      ∀ port, lib.getInt json_cvalue (lit "ip") = some port →
        lib.getInt json_cvalue (lit "net_kind") = none →
          name = p.server_name ∧ ip = p.server_ip ∧ port = p.server_port

def NetDataParsesCollection.Untouched (ps : NetDataParsesCollection) (parser : NetDataParse)
    (lib : OrgJson) (json_cvalue : JsonObject) : Prop :=
  match parser with
  | .cardRegistResult =>
    ps.cardRegistResult.Untouched (lit "nresult") (lit "strresult") lib json_cvalue
  | .serverInfo => ps.serverInfo.Untouched lib json_cvalue
  | .userRegist => ps.userRegist.Untouched (lit "result") (lit "result_info") lib json_cvalue
  -- without a text this one does not return false
  | .verifyLogin => True
  | .cardVerifyResult =>
    ps.cardVerifyResult.Untouched (lit "nresult") (lit "strresult") lib json_cvalue

theorem result_trace_iff (string_result_key string_info_key : JavaString) (p : ResultNetDataParse)
    (lib : OrgJson) (buf_data : List UInt8) (reponse : JavaString) :
    ((parseWith reponse (resultParseData string_result_key string_info_key) p lib buf_data).2 =
        false →
      (parseWith reponse (resultParseData string_result_key string_info_key) p lib buf_data).1 =
        p) ↔
    (isType reponse lib buf_data = true → ∀ json_cvalue, cvalueOf lib buf_data = some json_cvalue →
      p.Untouched string_result_key string_info_key lib json_cvalue) := by
  unfold resultParseData
  rw [parseWith_trace_iff]
  refine forall_congr' fun _ => forall₂_congr fun json_cvalue _ => ?_
  unfold ResultNetDataParse.Untouched LeavesNoTrace
  cases lib.getInt json_cvalue string_result_key with
  | none => exact iff_of_true (fun _ => rfl) fun _ h => nomatch h
  | some n =>
    cases lib.getString json_cvalue string_info_key with
    | none =>
      constructor
      · intro h m hm _
        rw [← Option.some.inj hm]
        exact congrArg ResultNetDataParse.nresult (h rfl)
      · intro h _
        show ({ p with nresult := n } : ResultNetDataParse) = p
        rw [h n rfl rfl]
    | some info => exact iff_of_true (fun h => nomatch h) fun _ _ h => nomatch h

theorem serverInfo_trace_iff (p : ServerInfoNetDataParse) (lib : OrgJson) (buf_data : List UInt8)
    (reponse : JavaString) :
    ((parseWith reponse ServerInfoNetDataParse.parseData p lib buf_data).2 = false →
      (parseWith reponse ServerInfoNetDataParse.parseData p lib buf_data).1 = p) ↔
    (isType reponse lib buf_data = true → ∀ json_cvalue, cvalueOf lib buf_data = some json_cvalue →
      p.Untouched lib json_cvalue) := by
  unfold ServerInfoNetDataParse.parseData
  rw [parseWith_trace_iff]
  refine forall_congr' fun _ => forall₂_congr fun json_cvalue _ => ?_
  unfold ServerInfoNetDataParse.Untouched LeavesNoTrace
  -- how many of the members are read
  cases lib.getString json_cvalue (lit "server_name") with
  | none => exact iff_of_true (fun _ => rfl) fun _ h => nomatch h
  | some name =>
    cases lib.getString json_cvalue (lit "ip") with
    | none =>
      constructor
      · intro h m hm
        rw [← Option.some.inj hm]
        exact ⟨fun _ => congrArg ServerInfoNetDataParse.server_name (h rfl), fun _ h => (nomatch h)⟩
      · intro h _
        show ({ p with server_name := name } : ServerInfoNetDataParse) = p
        rw [(h name rfl).1 rfl]
    | some ip =>
      cases lib.getInt json_cvalue (lit "ip") with
      | none =>
        constructor
        · intro h m hm
          rw [← Option.some.inj hm]
          refine ⟨fun h => (nomatch h), fun i hi => ⟨fun _ => ?_, fun _ h => (nomatch h)⟩⟩
          rw [← Option.some.inj hi]
          exact ⟨congrArg ServerInfoNetDataParse.server_name (h rfl),
            congrArg ServerInfoNetDataParse.server_ip (h rfl)⟩
        · intro h _
          have ⟨hname, hip⟩ := ((h name rfl).2 ip rfl).1 rfl
          show ({ p with server_name := name, server_ip := ip } : ServerInfoNetDataParse) = p
          rw [hname, hip]
      | some port =>
        cases lib.getInt json_cvalue (lit "net_kind") with
        | none =>
          constructor
          · intro h m hm
            rw [← Option.some.inj hm]
            refine ⟨fun h => (nomatch h), fun i hi => ⟨fun h => (nomatch h), fun q hq _ => ?_⟩⟩
            rw [← Option.some.inj hi, ← Option.some.inj hq]
            exact ⟨congrArg ServerInfoNetDataParse.server_name (h rfl),
              congrArg ServerInfoNetDataParse.server_ip (h rfl),
              congrArg ServerInfoNetDataParse.server_port (h rfl)⟩
          · intro h _
            have ⟨hname, hip, hport⟩ := ((h name rfl).2 ip rfl).2 port rfl rfl
            show ({ p with server_name := name, server_ip := ip, server_port := port } :
              ServerInfoNetDataParse) = p
            rw [hname, hip, hport]
        | some net_kind =>
          exact iff_of_true (fun h => nomatch h) fun _ _ => ⟨fun h => (nomatch h),
            fun _ _ => ⟨fun h => (nomatch h), fun _ _ h => (nomatch h)⟩⟩

theorem verifyLogin_trace (p : ResultNetDataParse) (lib : OrgJson) (buf_data : List UInt8)
    (reponse : JavaString) (h : (parseWith reponse verifyLoginParseData p lib buf_data).2 = false) :
    (parseWith reponse verifyLoginParseData p lib buf_data).1 = p := by
  revert h
  unfold verifyLoginParseData
  rw [parseWith_trace_iff]
  intro _ json_cvalue _
  unfold LeavesNoTrace
  cases lib.getInt json_cvalue (lit "result") with
  | none => exact fun _ => rfl
  | some n =>
    cases lib.getString json_cvalue (lit "result_info") with
    | none => exact fun h => nomatch h
    | some info => exact fun h => nomatch h

/-! ## 3. All five -/

/-- A parser that rejects a message is as it was before, just when the members that it read of a
message of its type are what it held. -/
theorem parseBy_trace_iff (parser : NetDataParse) (ps : NetDataParsesCollection) (lib : OrgJson)
    (buf_data : List UInt8) :
    ((ps.parseBy parser lib buf_data).2 = false → (ps.parseBy parser lib buf_data).1 = ps) ↔
      (isType parser.reponseType lib buf_data = true →
        ∀ json_cvalue, cvalueOf lib buf_data = some json_cvalue →
          ps.Untouched parser lib json_cvalue) := by
  cases parser with
  | cardRegistResult =>
    unfold NetDataParsesCollection.Untouched
    rw [← result_trace_iff]
    exact imp_congr_right fun _ => ⟨fun h => congrArg (·.cardRegistResult) h,
      fun h => congrArg (fun p => { ps with cardRegistResult := p }) h⟩
  | serverInfo =>
    unfold NetDataParsesCollection.Untouched
    rw [← serverInfo_trace_iff]
    exact imp_congr_right fun _ => ⟨fun h => congrArg (·.serverInfo) h,
      fun h => congrArg (fun p => { ps with serverInfo := p }) h⟩
  | userRegist =>
    unfold NetDataParsesCollection.Untouched
    rw [← result_trace_iff]
    exact imp_congr_right fun _ => ⟨fun h => congrArg (·.userRegist) h,
      fun h => congrArg (fun p => { ps with userRegist := p }) h⟩
  | verifyLogin =>
    refine iff_of_true (fun h => ?_) fun _ _ _ => trivial
    exact congrArg (fun p => { ps with verifyLogin := p }) (verifyLogin_trace _ _ _ _ h)
  | cardVerifyResult =>
    unfold NetDataParsesCollection.Untouched
    rw [← result_trace_iff]
    exact imp_congr_right fun _ => ⟨fun h => congrArg (·.cardVerifyResult) h,
      fun h => congrArg (fun p => { ps with cardVerifyResult := p }) h⟩

/-- The answer to a registration with a result code and no text. -/
def codeOnly : JsonObject :=
  [(lit "content", .object [(lit "ctype", .string (lit "card_regist_reponse")),
    (lit "cvalue", .object [(lit "nresult", .int 0)])])]

theorem code_left_behind : ¬∀ (parser : NetDataParse) (ps : NetDataParsesCollection) (lib : OrgJson)
    (buf_data : List UInt8), (ps.parseBy parser lib buf_data).2 = false →
      (ps.parseBy parser lib buf_data).1 = ps := by
  intro h
  have hsame := h .cardRegistResult {} (asciiOrgJson codeOnly) (jsonText (.object codeOnly))
    (by decide +kernel)
  exact absurd hsame (by decide +kernel)

end VerifyServer.Client
