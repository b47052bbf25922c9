import VerifyServer.Client.Rejected

/-!
# Dispatch — a message and the list of parsers

`NetDataParsesCollection.parse` tries the parsers one after the other.  Their response types differ,
so at most one of them looks at the values of a message, and it makes no difference where it stands.
-/

open VerifyServer.Reasoning

namespace VerifyServer.Client

/-! ## 1. Callbacks -/

inductive Callback where
  | parse_suc (parser : NetDataParse)
  | parse_fail (rev_data : List UInt8)
  deriving DecidableEq, Repr

/-- `NetDataParsesCollection.parse` with `list_net` and a listener: the parsers after it, and the
calls it has made. -/
def NetDataParsesCollection.parseCalls (lib : OrgJson) (rev_data : List UInt8) :
    NetDataParsesCollection → List NetDataParse → NetDataParsesCollection × List Callback
  | ps, [] => (ps, [.parse_fail rev_data])
  | ps, parser :: list_net =>
    let r := ps.parseBy parser lib rev_data
    if r.2 then (r.1, [.parse_suc parser]) else parseCalls lib rev_data r.1 list_net

/-- The `ctype` of the message is the parser's response type. -/
def Addressed (lib : OrgJson) (rev_data : List UInt8) (parser : NetDataParse) : Prop :=
  ∃ ctype, ctypeOf lib rev_data = some ctype ∧
    equalsIgnoreCase ctype parser.reponseType = true

/-- A parser has the same state in both collections. -/
def NetDataParsesCollection.SameAt (ps qs : NetDataParsesCollection) : NetDataParse → Prop
  | .cardRegistResult => ps.cardRegistResult = qs.cardRegistResult
  | .serverInfo => ps.serverInfo = qs.serverInfo
  | .userRegist => ps.userRegist = qs.userRegist
  | .verifyLogin => ps.verifyLogin = qs.verifyLogin
  | .cardVerifyResult => ps.cardVerifyResult = qs.cardVerifyResult

/-! ## 2. One parser -/

theorem isType_iff (lib : OrgJson) (rev_data : List UInt8) (parser : NetDataParse) :
    isType parser.reponseType lib rev_data = true ↔ Addressed lib rev_data parser := by
  unfold isType Addressed
  cases ctypeOf lib rev_data with
  | none => exact iff_of_false Bool.false_ne_true fun ⟨_, h, _⟩ => nomatch h
  | some ctype => exact ⟨fun h => ⟨ctype, rfl, h⟩, fun ⟨_, hc, h⟩ => Option.some.inj hc ▸ h⟩

/-- No two response types are equal, ignoring case. -/
theorem reponseType_folded_injective :
    Function.Injective fun parser : NetDataParse => parser.reponseType.map foldCase := by
  intro parser other h
  cases parser <;> cases other <;> first | rfl | exact absurd h (by decide)

theorem Addressed.unique {lib : OrgJson} {rev_data : List UInt8} {parser other : NetDataParse}
    (h : Addressed lib rev_data parser) (hother : Addressed lib rev_data other) :
    other = parser := by
  have ⟨ctype, hctype, hequal⟩ := h
  have ⟨ctype', hctype', hequal'⟩ := hother
  rw [Option.some.inj (hctype'.symm.trans hctype)] at hequal'
  exact reponseType_folded_injective
    ((of_decide_eq_true hequal').symm.trans (of_decide_eq_true hequal))

section Parser

variable {lib : OrgJson} {rev_data : List UInt8} {parser : NetDataParse}
  (ps : NetDataParsesCollection)

/-- A parser that the message is not for returns false and stays as it is. -/
theorem parseBy_unaddressed (h : ¬Addressed lib rev_data parser) :
    ps.parseBy parser lib rev_data = (ps, false) := by
  have htype : ¬isType parser.reponseType lib rev_data = true := by rwa [isType_iff]
  cases parser with
  | cardRegistResult => simp only [NetDataParsesCollection.parseBy, parseWith, if_neg htype]
  | serverInfo => simp only [NetDataParsesCollection.parseBy, parseWith, if_neg htype]
  | userRegist => simp only [NetDataParsesCollection.parseBy, parseWith, if_neg htype]
  | verifyLogin => simp only [NetDataParsesCollection.parseBy, parseWith, if_neg htype]
  | cardVerifyResult => simp only [NetDataParsesCollection.parseBy, parseWith, if_neg htype]

theorem parseBy_sameAt {other : NetDataParse} (h : other ≠ parser) :
    (ps.parseBy parser lib rev_data).1.SameAt ps other := by
  cases parser <;> cases other <;> first | rfl | exact absurd rfl h

/-- The assignments of a message set the same fields to the same values once more. -/
theorem parseWith_again {σ : Type} {reponse : JavaString}
    {assignments : OrgJson → JsonObject → List (σ → Option σ)} {p : σ}
    (hagain : ∀ json_cvalue, (assignAll p (assignments lib json_cvalue)).2 = false →
      assignAll (assignAll p (assignments lib json_cvalue)).1 (assignments lib json_cvalue) =
        assignAll p (assignments lib json_cvalue))
    (h : (parseWith reponse (parseDataWith assignments) p lib rev_data).2 = false) :
    parseWith reponse (parseDataWith assignments)
        (parseWith reponse (parseDataWith assignments) p lib rev_data).1 lib rev_data =
      parseWith reponse (parseDataWith assignments) p lib rev_data := by
  unfold parseWith at h ⊢
  split at h
  · next htype =>
    simp only [if_pos htype]
    unfold parseDataWith at h ⊢
    cases hcvalue : cvalueOf lib rev_data with
    | none => rfl
    | some json_cvalue =>
      rw [hcvalue] at h
      exact hagain json_cvalue h
  · next htype => simp only [if_neg htype]

theorem result_again {reponse string_result_key string_info_key : JavaString}
    (p : ResultNetDataParse)
    (h : (parseWith reponse (resultParseData string_result_key string_info_key) p lib
      rev_data).2 = false) :
    parseWith reponse (resultParseData string_result_key string_info_key)
        (parseWith reponse (resultParseData string_result_key string_info_key) p lib rev_data).1 lib
        rev_data =
      parseWith reponse (resultParseData string_result_key string_info_key) p lib rev_data := by
  unfold resultParseData at h ⊢
  refine parseWith_again (fun json_cvalue hfails => ?_) h
  simp only [assignAll] at hfails ⊢
  cases hresult : lib.getInt json_cvalue string_result_key with
  | none => rfl
  | some n =>
    cases hinfo : lib.getString json_cvalue string_info_key with
    | none => rfl
    | some info =>
      simp only [hresult, hinfo, Option.map_some] at hfails
      cases hfails

theorem serverInfo_again {reponse : JavaString} (p : ServerInfoNetDataParse)
    (h : (parseWith reponse ServerInfoNetDataParse.parseData p lib rev_data).2 = false) :
    parseWith reponse ServerInfoNetDataParse.parseData
        (parseWith reponse ServerInfoNetDataParse.parseData p lib rev_data).1 lib rev_data =
      parseWith reponse ServerInfoNetDataParse.parseData p lib rev_data := by
  unfold ServerInfoNetDataParse.parseData at h ⊢
  refine parseWith_again (fun json_cvalue hfails => ?_) h
  simp only [assignAll] at hfails ⊢
  cases hname : lib.getString json_cvalue (lit "server_name") with
  | none => rfl
  | some name =>
    cases hip : lib.getString json_cvalue (lit "ip") with
    | none => rfl
    | some ip =>
      cases hport : lib.getInt json_cvalue (lit "ip") with
      | none => rfl
      | some port =>
        cases hkind : lib.getInt json_cvalue (lit "net_kind") with
        | none => rfl
        | some net_kind =>
          simp only [hname, hip, hport, hkind, Option.map_some] at hfails
          cases hfails

theorem verifyLogin_again {reponse : JavaString} (p : ResultNetDataParse)
    (h : (parseWith reponse verifyLoginParseData p lib rev_data).2 = false) :
    parseWith reponse verifyLoginParseData
        (parseWith reponse verifyLoginParseData p lib rev_data).1 lib rev_data =
      parseWith reponse verifyLoginParseData p lib rev_data := by
  rw [verifyLogin_trace p lib rev_data reponse h]

/-- A parser that has rejected a message rejects it again, and stays as the first time left it. -/
theorem parseBy_again (h : (ps.parseBy parser lib rev_data).2 = false) :
    (ps.parseBy parser lib rev_data).1.parseBy parser lib rev_data =
      ((ps.parseBy parser lib rev_data).1, false) := by
  rw [← h]
  cases parser with
  | cardRegistResult =>
    simp only [NetDataParsesCollection.parseBy, cardRegistResultParseData] at h ⊢
    rw [result_again _ h]
  | serverInfo =>
    simp only [NetDataParsesCollection.parseBy] at h ⊢
    rw [serverInfo_again _ h]
  | userRegist =>
    simp only [NetDataParsesCollection.parseBy, userRegistParseData] at h ⊢
    rw [result_again _ h]
  | verifyLogin =>
    simp only [NetDataParsesCollection.parseBy] at h ⊢
    rw [verifyLogin_again _ h]
  | cardVerifyResult =>
    simp only [NetDataParsesCollection.parseBy, cardVerifyResultParseData] at h ⊢
    rw [result_again _ h]

end Parser

/-! ## 3. The list -/

section List

variable {lib : OrgJson} {rev_data : List UInt8} {parser : NetDataParse}
  (ps : NetDataParsesCollection)

/-- The one call is for the parser that `parseFrom` ends with. -/
theorem parseCalls_eq (list_net : List NetDataParse) :
    ps.parseCalls lib rev_data list_net =
      ((NetDataParsesCollection.parseFrom lib rev_data ps list_net).1,
        [((NetDataParsesCollection.parseFrom lib rev_data ps list_net).2.map
          Callback.parse_suc).getD (.parse_fail rev_data)]) := by
  induction list_net generalizing ps with
  | nil => rfl
  | cons first rest ih =>
    rw [NetDataParsesCollection.parseCalls, NetDataParsesCollection.parseFrom]
    by_cases haccepts : (ps.parseBy first lib rev_data).2 = true
    · rw [if_pos haccepts, if_pos haccepts]
      rfl
    · rw [if_neg haccepts, if_neg haccepts]
      exact ih _

/-- Parsers that all reject the message and stay as they are. -/
theorem parseCalls_rejected {list_net : List NetDataParse}
    (h : ∀ other ∈ list_net, ps.parseBy other lib rev_data = (ps, false)) :
    ps.parseCalls lib rev_data list_net = (ps, [.parse_fail rev_data]) := by
  induction list_net with
  | nil => rfl
  | cons first rest ih =>
    rw [NetDataParsesCollection.parseCalls, h first List.mem_cons_self]
    exact ih fun other hother => h other (List.mem_cons_of_mem _ hother)

/-- The parser the message is for decides, wherever it stands. -/
theorem parseCalls_addressed (haddressed : Addressed lib rev_data parser)
    {list_net : List NetDataParse} (hmem : parser ∈ list_net) :
    ps.parseCalls lib rev_data list_net = ((ps.parseBy parser lib rev_data).1,
      [if (ps.parseBy parser lib rev_data).2 then .parse_suc parser else .parse_fail rev_data]) := by
  induction list_net with
  | nil => cases hmem
  | cons first rest ih =>
    rw [NetDataParsesCollection.parseCalls]
    by_cases hfirst : first = parser
    · rw [hfirst]
      by_cases haccepts : (ps.parseBy parser lib rev_data).2 = true
      · rw [if_pos haccepts, if_pos haccepts]
      · rw [if_neg haccepts, if_neg haccepts]
        have hrejects := Bool.eq_false_of_not_eq_true haccepts
        apply parseCalls_rejected
        intro other _
        by_cases hother : other = parser
        · rw [hother]
          exact parseBy_again ps hrejects
        · exact parseBy_unaddressed _ fun h => hother (haddressed.unique h)
    · rw [parseBy_unaddressed ps fun h => hfirst (haddressed.unique h)]
      exact ih ((List.mem_cons.mp hmem).resolve_left (Ne.symm hfirst))

/-- One call, and one parser at most that changes, in whatever order they are tried. -/
theorem parseCalls_any_order (lib : OrgJson) (rev_data : List UInt8) (ps : NetDataParsesCollection)
    {list_net : List NetDataParse} (hall : ∀ parser, parser ∈ list_net) :
    (∀ parser, Addressed lib rev_data parser →
      ps.parseCalls lib rev_data list_net = ((ps.parseBy parser lib rev_data).1,
        [if (ps.parseBy parser lib rev_data).2 then .parse_suc parser
          else .parse_fail rev_data]) ∧
      ∀ other ≠ parser, ¬Addressed lib rev_data other ∧
        (ps.parseCalls lib rev_data list_net).1.SameAt ps other) ∧
    ((∀ parser, ¬Addressed lib rev_data parser) →
      ps.parseCalls lib rev_data list_net = (ps, [.parse_fail rev_data])) ∧
    ∀ list_net' : List NetDataParse, (∀ parser, parser ∈ list_net') →
      ps.parseCalls lib rev_data list_net' = ps.parseCalls lib rev_data list_net := by
  have hnone : (∀ parser, ¬Addressed lib rev_data parser) → ∀ list_net : List NetDataParse,
      ps.parseCalls lib rev_data list_net = (ps, [.parse_fail rev_data]) :=
    fun h list_net => parseCalls_rejected ps fun other _ => parseBy_unaddressed ps (h other)
  refine ⟨fun parser haddressed => ?_, fun h => hnone h list_net, fun list_net' hall' => ?_⟩
  · have hcalls := parseCalls_addressed ps haddressed (hall parser)
    refine ⟨hcalls, fun other hother => ⟨fun h => hother (haddressed.unique h), ?_⟩⟩
    rw [hcalls]
    exact parseBy_sameAt ps hother
  · by_cases h : ∃ parser, Addressed lib rev_data parser
    · have ⟨parser, haddressed⟩ := h
      rw [parseCalls_addressed ps haddressed (hall parser),
        parseCalls_addressed ps haddressed (hall' parser)]
    · have hno : ∀ parser, ¬Addressed lib rev_data parser := fun parser hp => h ⟨parser, hp⟩
      rw [hnone hno, hnone hno]

theorem mem_netDataParses (parser : NetDataParse) : parser ∈ netDataParses.filterMap (·.1) := by
  cases parser <;> decide

/-- With the parsers that are registered, a message is taken for an answer exactly if the one that it
is for accepts it. -/
theorem parse_isSome_iff : (ps.parse lib rev_data).2.isSome = true ↔
    ∃ parser, Addressed lib rev_data parser ∧ (ps.parseBy parser lib rev_data).2 = true := by
  have heq := congrArg (·.2) (@parseCalls_eq lib rev_data ps (netDataParses.filterMap (·.1)))
  change _ = [((ps.parse lib rev_data).2.map Callback.parse_suc).getD (.parse_fail rev_data)] at heq
  by_cases h : ∃ parser, Addressed lib rev_data parser
  · have ⟨parser, haddressed⟩ := h
    rw [parseCalls_addressed ps haddressed (mem_netDataParses parser)] at heq
    have honly : (∃ other, Addressed lib rev_data other ∧
        (ps.parseBy other lib rev_data).2 = true) ↔
          (ps.parseBy parser lib rev_data).2 = true :=
      ⟨fun ⟨_, hother, haccepts⟩ => haddressed.unique hother ▸ haccepts,
        fun haccepts => ⟨parser, haddressed, haccepts⟩⟩
    rw [honly]
    cases hparse : (ps.parse lib rev_data).2 with
    | none =>
      rw [hparse] at heq
      split at heq
      · cases heq
      · next hrejects => exact iff_of_false Bool.false_ne_true hrejects
    | some found =>
      rw [hparse] at heq
      split at heq
      · next haccepts => exact iff_of_true rfl haccepts
      · cases heq
  · have hno : ∀ other ∈ netDataParses.filterMap (·.1),
        ps.parseBy other lib rev_data = (ps, false) :=
      fun other _ => parseBy_unaddressed ps fun hother => h ⟨other, hother⟩
    rw [parseCalls_rejected ps hno] at heq
    cases hparse : (ps.parse lib rev_data).2 with
    | none => exact iff_of_false Bool.false_ne_true fun ⟨other, hother, _⟩ => h ⟨other, hother⟩
    | some found =>
      rw [hparse] at heq
      cases heq

/-- The parsers as they are registered. -/
theorem parseCalls_registered :
    ({} : NetDataParsesCollection).parseCalls (asciiOrgJson codeOnly) (jsonText (.object codeOnly))
        (netDataParses.filterMap (·.1)) =
      ({ cardRegistResult := ⟨0, none⟩ }, [.parse_fail (jsonText (.object codeOnly))]) := by
  have haddressed : Addressed (asciiOrgJson codeOnly) (jsonText (.object codeOnly))
      .cardRegistResult := (isType_iff ..).mp (by decide +kernel)
  rw [((parseCalls_any_order _ _ {} mem_netDataParses).1 _ haddressed).1]
  decide +kernel

end List

end VerifyServer.Client
