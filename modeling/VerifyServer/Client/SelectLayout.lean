import VerifyServer.Client.SelectParts

/-!
# SelectLayout — statements whose keywords stand apart

Where the letters of a keyword stand nowhere but at its clause, what `Select` reads right depends on
the line breaks and semicolons of the statement alone.
-/

open VerifyServer.Reasoning

namespace VerifyServer.Client.Offline

/-! ## 1. The layout that `Select` reads -/

/-- The words stand in `sql` at the beginning of `u` and nowhere else. -/
def StandsAt (spelled : JavaString → Prop) (sql u : JavaString) : Prop :=
  ∀ pre words rest, sql = pre ++ (words ++ rest) → spelled words → words ++ rest = u

/-- The words of a clause stand at its beginning only; without it, nowhere at all. -/
def StandsApart (spelled : JavaString → Prop) (sql : JavaString) (clause : Option Clause)
    (after : JavaString) : Prop :=
  match clause with
  | none => ∀ words, spelled words → ¬words <:+: sql
  | some c => StandsAt spelled sql (c.words ++ (c.body.text ++ after))

section Classes

variable (classes : CharClasses)

structure SelectStatement.KeywordsApart (q : SelectStatement) : Prop where
  from_stands : StandsAt (IsWord "from") q.text q.fromTable
  selection : StandsApart (IsWord "where") q.text q.selection q.afterSelection
  groupBy : StandsApart (AreWords classes "group" "by") q.text q.groupBy q.afterGroupBy
  having : StandsApart (IsWord "having") q.text q.having q.afterHaving
  orderBy : StandsApart (AreWords classes "order" "by") q.text q.orderBy [0x3B]

/-- The text begins on the line of its keyword, takes no more than a line, has no semicolon, and the
next clause is on another line. -/
def Padded.EndsLine (p : Padded) (after : JavaString) : Prop :=
  (∀ c ∈ p.before ++ p.body, classes.isLineTerminator c = false) ∧ 0x3B ∉ p.body ∧
    (after = [0x3B] ∨ ∃ c ∈ p.after, classes.isLineTerminator c = true)

structure SelectStatement.LaidOut (q : SelectStatement) : Prop where
  all_columns : q.columns.map trim = [lit "*"]
  has_where : q.selection ≠ none
  -- up to the word `WHERE`
  table : ∀ c ∈ q.table.text, classes.isLineTerminator c = false
  selection : ∀ c, q.selection = some c → c.body.EndsLine classes q.afterSelection
  groupBy : ∀ c, q.groupBy = some c → c.body.EndsLine classes q.afterGroupBy
  having : ∀ c, q.having = some c → c.body.EndsLine classes q.afterHaving
  orderBy : ∀ c, q.orderBy = some c → c.body.EndsLine classes [0x3B]

end Classes

/-! ## 2. What begins a keyword -/

theorem isBlank_cases {c : UInt16} (h : isBlank c = true) :
    c = 0x20 ∨ c = 0x09 ∨ c = 0x0A ∨ c = 0x0B ∨ c = 0x0C ∨ c = 0x0D := by
  simp only [isBlank, Bool.or_eq_true, decide_eq_true_eq] at h
  tauto

theorem isBlank_trimmed {c : UInt16} (h : isBlank c = true) : isTrimmed c = true := by
  rcases isBlank_cases h with rfl | rfl | rfl | rfl | rfl | rfl <;> decide

/-- `lower` leaves blanks as they are. -/
theorem isBlank_lower {c : UInt16} (h : isBlank c = true) : lower c = c := by
  rcases isBlank_cases h with rfl | rfl | rfl | rfl | rfl | rfl <;> decide

/-- What begins a keyword: the blanks before it end there, and a line does not. -/
structure IsInitial (c : UInt16) : Prop where
  not_trimmed : isTrimmed c = false
  printable : isPrintable c = true
  ne_semicolon : c ≠ 0x3B

theorem isInitial_of_lower {c k : UInt16} (hk : k ∈ ([0x67, 0x68, 0x6F, 0x77, 0x62] : JavaString))
    (h : lower c = k) : IsInitial c := by
  have hcases := eq_of_lower h
  simp only [List.mem_cons, List.not_mem_nil, or_false] at hk
  constructor
  · rcases hk with rfl | rfl | rfl | rfl | rfl <;> rcases hcases with rfl | rfl <;> decide
  · rcases hk with rfl | rfl | rfl | rfl | rfl <;> rcases hcases with rfl | rfl <;> decide
  · rcases hk with rfl | rfl | rfl | rfl | rfl <;> rcases hcases with rfl | rfl <;> decide

theorem IsWord.initial {w : String} {s : JavaString} (h : IsWord w s) {k : UInt16}
    {ks : JavaString} (hw : (lit w).map lower = k :: ks)
    (hk : k ∈ ([0x67, 0x68, 0x6F, 0x77, 0x62] : JavaString)) :
    ∃ c cs, s = c :: cs ∧ IsInitial c := by
  have ⟨c, cs, heq, hc⟩ := h.exists_cons hw
  exact ⟨c, cs, heq, isInitial_of_lower hk hc⟩

theorem IsInitial.dot {c : UInt16} (h : IsInitial c) (classes : CharClasses) :
    isDot classes c = true :=
  isDot_iff.mpr (classes.isLineTerminator_inline (by rw [isInline, h.printable]; rfl))

theorem AreWords.initial {classes : CharClasses} {w v : String} {s : JavaString}
    (h : AreWords classes w v s) {k : UInt16} {ks : JavaString} (hw : (lit w).map lower = k :: ks)
    (hk : k ∈ ([0x67, 0x68, 0x6F, 0x77, 0x62] : JavaString)) :
    ∃ c cs, s = c :: cs ∧ IsInitial c := by
  have ⟨first, blanks, second, hs, hfirst, _⟩ := h
  have ⟨c, cs, heq, hc⟩ := hfirst.initial hw hk
  exact ⟨c, cs ++ (blanks ++ second), by rw [hs, heq]; rfl, hc⟩

/-! ## 3. One clause -/

theorem mem_trim {s : JavaString} {c : UInt16} (h : c ∈ trim s) : c ∈ s := by
  have hdrop := (List.dropWhile_suffix _).subset (List.mem_reverse.mp h)
  exact (List.dropWhile_suffix _).subset (List.mem_reverse.mp hdrop)

theorem semicolon_not_mem_replace (s : JavaString) : (0x3B : UInt16) ∉ replace 0x3B 0 s := by
  intro h
  have ⟨d, _, heq⟩ := List.mem_map.mp h
  split at heq
  · cases heq
  · next hne => exact hne heq

theorem Padded.trim_text (p : Padded) : trim p.text = p.body := by
  have hblank : ∀ s : JavaString, (∀ c ∈ s, isBlank c = true) → ∀ c ∈ s, isTrimmed c = true :=
    fun s hs c hmem => isBlank_trimmed (hs c hmem)
  rw [Padded.text, trim_append_left (hblank _ p.before_blank),
    trim_append_right (hblank _ p.after_blank), p.body_trimmed]

/-- A text that is trimmed already begins with what is not. -/
theorem Padded.body_head (p : Padded) :
    ∃ x xs, p.body = x :: xs ∧ isTrimmed x = false := by
  have ⟨x, xs, heq⟩ := List.exists_cons_of_ne_nil p.body_ne
  refine ⟨x, xs, heq, Bool.eq_false_of_not_eq_true fun hx => ?_⟩
  have htrim := p.body_trimmed
  rw [heq, ← List.singleton_append,
    trim_append_left fun c hc => (List.mem_singleton.mp hc) ▸ hx] at htrim
  have hlen : (trim xs).length ≤ xs.length := by
    rw [trim, List.length_reverse]
    have h₁ := (List.dropWhile_suffix isTrimmed (l := (xs.dropWhile isTrimmed).reverse)).length_le
    have h₂ := (List.dropWhile_suffix isTrimmed (l := xs)).length_le
    rw [List.length_reverse] at h₁
    omega
  rw [htrim, List.singleton_append, List.length_cons] at hlen
  omega

section Classes

variable {classes : CharClasses}

/-- The end of a statement, or the beginning of a clause. -/
def IsEnd (after : JavaString) : Prop :=
  after = [0x3B] ∨ ∃ c cs, after = c :: cs ∧ IsInitial c

/-- The blanks go, and all that is left is the text. -/
theorem Padded.restOfLine_eq (p : Padded) {after : JavaString} (h : p.EndsLine classes after) :
    restOfLine classes (p.text ++ after) = p.body := by
  have ⟨hline, hsemicolon, hend⟩ := h
  have hdot : ∀ c ∈ p.before ++ p.body, isDot classes c = true :=
    fun c hc => isDot_iff.mpr (hline c hc)
  have hbefore : ∀ c ∈ replace 0x3B 0 p.before, isTrimmed c = true :=
    trimmed_replace fun c hc => .inl (isBlank_trimmed (p.before_blank c hc))
  have hafter : ∀ c ∈ (p.after ++ after).takeWhile (isDot classes),
      isTrimmed c = true ∨ c = 0x3B := by
    intro c hc
    cases hend with
    | inl hlast =>
      have hmem := (List.takeWhile_prefix _).subset hc
      rw [hlast] at hmem
      cases List.mem_append.mp hmem with
      | inl hmem => exact .inl (isBlank_trimmed (p.after_blank c hmem))
      | inr hmem => exact .inr (List.mem_singleton.mp hmem)
    | inr hbreak =>
      have ⟨d, hd, hterminator⟩ := hbreak
      have hne : (p.after.takeWhile (isDot classes)).length ≠ p.after.length := by
        intro hlen
        have hself := (List.takeWhile_prefix (isDot classes) (l := p.after)).eq_of_length hlen
        have hd := List.takeWhile_eq_self_iff.mp hself d hd
        rw [isDot_iff, hterminator] at hd
        cases hd
      rw [List.takeWhile_append, if_neg hne] at hc
      exact .inl (isBlank_trimmed (p.after_blank c ((List.takeWhile_prefix _).subset hc)))
  rw [restOfLine, Padded.text, ← List.append_assoc, List.append_assoc,
    List.takeWhile_append_of_pos hdot, List.append_assoc, replace_append, replace_append,
    replace_of_not_mem hsemicolon, trim_append_left hbefore,
    trim_append_right (trimmed_replace hafter), p.body_trimmed]

/-- A text that `Select` reads right is laid out for it. -/
theorem Padded.endsLine_of_eq (p : Padded) {after : JavaString} (hend : IsEnd after)
    (h : restOfLine classes (p.text ++ after) = p.body) : p.EndsLine classes after := by
  obtain ⟨x, xs, hbody, hx⟩ := p.body_head
  have hmem : ∀ c ∈ p.body, c ∈ replace 0x3B 0 ((p.text ++ after).takeWhile (isDot classes)) := by
    intro c hc
    rw [← h] at hc
    exact mem_trim hc
  have hsemicolon : (0x3B : UInt16) ∉ p.body := fun hc =>
    semicolon_not_mem_replace _ (hmem _ hc)
  -- a line that ended in the blanks before the text would leave nothing of it
  have hbefore : ∀ c ∈ p.before, isDot classes c = true := by
    by_contra hnot
    have htake : (p.text ++ after).takeWhile (isDot classes) =
        p.before.takeWhile (isDot classes) := by
      rw [Padded.text, List.append_assoc, List.takeWhile_append, if_neg]
      intro hlen
      apply hnot
      exact List.takeWhile_eq_self_iff.mp
        ((List.takeWhile_prefix (isDot classes)).eq_of_length hlen)
    rw [restOfLine, htake, trim_of_trimmed (trimmed_replace fun c hc =>
      .inl (isBlank_trimmed (p.before_blank c ((List.takeWhile_prefix _).subset hc))))] at h
    exact p.body_ne h.symm
  -- a NUL may have been a semicolon; any other unit is on the line itself
  have hdots : ∀ c ∈ p.body, isDot classes c = true := by
    intro c hc
    obtain ⟨d, hd, heq⟩ := List.mem_map.mp (hmem c hc)
    rw [← heq]
    split
    · exact isDot_iff.mpr (classes.isLineTerminator_inline rfl)
    · exact List.mem_takeWhile_imp hd
  refine ⟨fun c hc => ?_, hsemicolon, ?_⟩
  · cases List.mem_append.mp hc with
    | inl hc => exact isDot_iff.mp (hbefore c hc)
    | inr hc => exact isDot_iff.mp (hdots c hc)
  · by_contra hnot
    obtain ⟨hlast, hbreak⟩ := not_or.mp hnot
    obtain ⟨c, cs, hcs, hc⟩ := hend.resolve_left hlast
    have hafter : ∀ d ∈ p.after, isDot classes d = true := by
      intro d hd
      rw [isDot_iff]
      exact Bool.eq_false_of_not_eq_true fun hd' => hbreak ⟨d, hd, hd'⟩
    have hall : ∀ d ∈ p.text, isDot classes d = true := by
      intro d hd
      rcases List.mem_append.mp hd with hd | hd
      · exact hbefore d hd
      · exact (List.mem_append.mp hd).elim (hdots d) (hafter d)
    -- the line goes on into the next clause
    have hlong : trim (x :: ((xs ++ replace 0x3B 0 p.after) ++
        c :: replace 0x3B 0 (cs.takeWhile (isDot classes)))) = p.body := by
      rw [restOfLine, hcs, List.takeWhile_append_of_pos hall,
        List.takeWhile_cons_of_pos (hc.dot classes), Padded.text, List.append_assoc,
        List.append_assoc, replace_append,
        trim_append_left (trimmed_replace fun d hd => .inl (isBlank_trimmed (p.before_blank d hd))),
        replace_append, replace_append, replace_of_not_mem hsemicolon, hbody] at h
      rw [hbody, ← h, List.append_assoc]
      have hreplace : replace 0x3B 0 (c :: cs.takeWhile (isDot classes)) =
          c :: replace 0x3B 0 (cs.takeWhile (isDot classes)) :=
        congrArg (· :: replace 0x3B 0 (cs.takeWhile (isDot classes))) (if_neg hc.ne_semicolon)
      rw [hreplace]
      rfl
    have hlen := length_trim_of_ends hx hc.not_trimmed (xs ++ replace 0x3B 0 p.after)
      (replace 0x3B 0 (cs.takeWhile (isDot classes)))
    rw [hlong, hbody, List.length_append, List.length_cons] at hlen
    omega

variable {spelled : JavaString → Prop} {sql : JavaString}

variable (classes) in
/-- A clause apart is read right just when its line ends with it. -/
theorem clauseRead_iff {c : Option Clause} {after : JavaString}
    (hspelled : ∀ k, c = some k → spelled k.words) (hfree : Regex.PrefixFree spelled)
    (hapart : StandsApart spelled sql c after) (hsuffix : clauseText c ++ after <:+ sql)
    (hend : IsEnd after) :
    ClauseRead classes spelled sql c ↔ ∀ k, c = some k → k.body.EndsLine classes after := by
  cases c with
  | none => exact iff_of_true hapart fun k hk => by cases hk
  | some k =>
    have ⟨pre, hpre⟩ := hsuffix
    rw [clauseText, List.append_assoc] at hpre
    have hafter : Regex.FirstAfter spelled sql (k.body.text ++ after) := by
      refine ⟨pre, k.words, hpre.symm, hspelled k rfl, fun pre' v rest' hsql hv => ?_⟩
      have heq := hapart pre' v rest' hsql hv
      rw [heq, ← hpre] at hsql
      rw [List.append_cancel_right hsql]
    have hline : ClauseRead classes spelled sql (some k) ↔
        OnLine classes (k.body.text ++ after) k.body.body := by
      constructor
      · rintro ⟨rest, hrest, h⟩
        rwa [hafter.unique hfree hrest]
      · exact fun h => ⟨_, hafter, h⟩
    rw [hline, ← restOfLine_eq_iff k.body.body_trimmed]
    constructor
    · intro h k' hk
      rw [← Option.some.inj hk]
      exact k.body.endsLine_of_eq hend h
    · exact fun h => k.body.restOfLine_eq (h k rfl)

end Classes

/-! ## 4. The table -/

theorem isEnd_semicolon : IsEnd [0x3B] := .inl rfl

theorem isEnd_clause {c : Option Clause} {after : JavaString}
    (hfirst : ∀ k, c = some k → ∃ x xs, k.words = x :: xs ∧ IsInitial x) (h : IsEnd after) :
    IsEnd (clauseText c ++ after) := by
  cases c with
  | none => exact h
  | some k =>
    have ⟨x, xs, heq, hx⟩ := hfirst k rfl
    refine .inr ⟨x, xs ++ k.body.text ++ after, ?_, hx⟩
    rw [clauseText, heq]
    rfl

namespace SelectStatement

variable {classes : CharClasses} {q : SelectStatement}

theorem fromTable_suffix (q : SelectStatement) : q.fromTable <:+ q.text :=
  ⟨q.selectWord ++ List.intercalate [0x2C] q.columns, by
    rw [SelectStatement.text, List.append_assoc]⟩

theorem afterTable_suffix (q : SelectStatement) : q.afterTable <:+ q.text := by
  refine List.IsSuffix.trans ⟨q.fromWord ++ q.table.text, ?_⟩ (fromTable_suffix q)
  rw [SelectStatement.fromTable, List.append_assoc]

/-- What is between the words is the table. -/
theorem KeywordsApart.between_eq (h : q.KeywordsApart classes) (hq : q.WellFormed classes)
    {pre g : JavaString} (hbetween : Between classes q.text pre g) :
    q.selection ≠ none ∧ g = q.table.text ∧
      pre = q.selectWord ++ List.intercalate [0x2C] q.columns := by
  have ⟨f, w, post, hs, hf, hw, _⟩ := hbetween
  have htable := h.from_stands pre f _ hs hf
  have hrest := (List.append_inj htable (hf.length_eq.trans hq.fromWord.length_eq.symm)).2
  have happend : q.text = (pre ++ (f ++ g)) ++ (w ++ post) := by
    rw [hs]
    simp only [List.append_assoc]
  have hselection := h.selection
  cases hc : q.selection with
  | none =>
    rw [hc] at hselection
    exact absurd ⟨pre ++ (f ++ g), post, by rw [happend, List.append_assoc]⟩ (hselection w hw)
  | some c =>
    rw [hc] at hselection
    have hafter := hselection _ w post happend hw
    have hwhere : q.afterTable = c.words ++ (c.body.text ++ q.afterSelection) := by
      rw [SelectStatement.afterTable, hc, clauseText, List.append_assoc]
    rw [hafter, ← hwhere] at hrest
    refine ⟨nofun, List.append_cancel_right hrest, ?_⟩
    rw [htable, SelectStatement.text, ← List.append_assoc] at hs
    exact (List.append_cancel_right hs).symm

theorem KeywordsApart.table_iff (h : q.KeywordsApart classes) (hq : q.WellFormed classes) :
    (∃ g, Enclosed classes q.text g ∧ trim g = q.table.body) ↔
      q.selection ≠ none ∧ ∀ c ∈ q.table.text, classes.isLineTerminator c = false := by
  constructor
  · rintro ⟨g, ⟨pre, hbetween, _⟩, _⟩
    have ⟨hwhere, heq, _⟩ := h.between_eq hq hbetween
    have ⟨_, _, _, _, _, _, hline⟩ := hbetween
    exact ⟨hwhere, heq ▸ hline⟩
  · rintro ⟨hwhere, hline⟩
    have ⟨c, hc⟩ := Option.ne_none_iff_exists'.mp hwhere
    refine ⟨q.table.text, ⟨q.selectWord ++ List.intercalate [0x2C] q.columns, ?_, ?_⟩,
      q.table.trim_text⟩
    · refine ⟨q.fromWord, c.words, c.body.text ++ q.afterSelection, ?_, hq.fromWord,
        hq.selection c hc, hline⟩
      rw [SelectStatement.text, SelectStatement.fromTable, SelectStatement.afterTable, hc,
        clauseText]
      simp only [List.append_assoc]
    · intro pre' g' hbetween'
      have ⟨_, heq, hpre⟩ := h.between_eq hq hbetween'
      rw [heq, hpre]
      exact ⟨Nat.le_refl _, fun _ => Nat.le_refl _⟩

/-! ## 5. The whole statement -/

theorem WellFormed.isEnd_having (hq : q.WellFormed classes) : IsEnd q.afterHaving := by
  apply isEnd_clause _ isEnd_semicolon
  intro k hk
  exact (hq.orderBy k hk).initial
    (show (lit "order").map lower = 0x6F :: (lit "rder").map lower by decide) (by decide)

theorem WellFormed.isEnd_groupBy (hq : q.WellFormed classes) : IsEnd q.afterGroupBy := by
  apply isEnd_clause _ hq.isEnd_having
  intro k hk
  exact (hq.having k hk).initial
    (show (lit "having").map lower = 0x68 :: (lit "aving").map lower by decide) (by decide)

theorem WellFormed.isEnd_selection (hq : q.WellFormed classes) : IsEnd q.afterSelection := by
  apply isEnd_clause _ hq.isEnd_groupBy
  intro k hk
  exact (hq.groupBy k hk).initial
    (show (lit "group").map lower = 0x67 :: (lit "roup").map lower by decide) (by decide)

theorem afterSelection_suffix (q : SelectStatement) : q.afterSelection <:+ q.text :=
  List.IsSuffix.trans ⟨clauseText q.selection, rfl⟩ (afterTable_suffix q)

theorem afterGroupBy_suffix (q : SelectStatement) : q.afterGroupBy <:+ q.text :=
  List.IsSuffix.trans ⟨clauseText q.groupBy, rfl⟩ q.afterSelection_suffix

theorem afterHaving_suffix (q : SelectStatement) : q.afterHaving <:+ q.text :=
  List.IsSuffix.trans ⟨clauseText q.having, rfl⟩ q.afterGroupBy_suffix

/-- With the keywords apart, `Select` finds the parts just when the statement is laid out for it. -/
theorem KeywordsApart.readRight_iff (h : q.KeywordsApart classes) (hq : q.WellFormed classes) :
    q.ReadRight classes ↔ q.LaidOut classes := by
  have htable := h.table_iff hq
  have hselection := clauseRead_iff classes hq.selection (prefixFree_isWord "where")
    h.selection (afterTable_suffix q) hq.isEnd_selection
  have hgroupBy := clauseRead_iff classes hq.groupBy (prefixFree_areWords "group")
    h.groupBy q.afterSelection_suffix hq.isEnd_groupBy
  have hhaving := clauseRead_iff classes hq.having (prefixFree_isWord "having")
    h.having q.afterGroupBy_suffix hq.isEnd_having
  have horderBy := clauseRead_iff classes hq.orderBy (prefixFree_areWords "order")
    h.orderBy q.afterHaving_suffix isEnd_semicolon
  constructor
  · intro hread
    have ⟨hwhere, hline⟩ := htable.mp hread.table
    exact ⟨hread.all_columns, hwhere, hline, hselection.mp hread.selection,
      hgroupBy.mp hread.groupBy, hhaving.mp hread.having, horderBy.mp hread.orderBy⟩
  · intro hlaid
    exact ⟨hlaid.all_columns, htable.mpr ⟨hlaid.has_where, hlaid.table⟩,
      hselection.mpr hlaid.selection, hgroupBy.mpr hlaid.groupBy, hhaving.mpr hlaid.having,
      horderBy.mpr hlaid.orderBy⟩

end SelectStatement

end VerifyServer.Client.Offline
