import VerifyServer.Client.SelectLayout

/-!
# DeleteParts — the statement `Delete` is given and what it asks the database for

`Delete` takes the table from between `FROM` and `WHERE`, and then looks with the same pattern again
for the condition.
-/

open VerifyServer.Reasoning

namespace VerifyServer.Client.Offline

/-! ## 1. `Delete` -/

/-- The arguments of `mdb.delete`. -/
structure DeleteRequest where
  table : Option JavaString
  whereClause : Option JavaString
  whereArgs : Option (List JavaString)
  deriving DecidableEq

/-- The arguments `Delete` gives it.  The second pattern is made from `regex_table_string` too. -/
def deleteRequest (classes : CharClasses) (sql : JavaString) : DeleteRequest where
  table := (captured (tableRegex classes) sql).map trim
  whereClause := (captured (tableRegex classes) sql).map fun g => trim (replace 0x3B 0 g)
  whereArgs := none

/-- `Delete`; `mdb.delete` gives the number of rows it removed, or throws. -/
def delete (classes : CharClasses) {δ : Type} (mdbDelete : δ → DeleteRequest → Option (Int × δ))
    (mdb : Option δ) (sql : JavaString) : Bool × Option δ :=
  match mdb with
  | none => (false, none)
  | some d =>
    if startsWithIgnoringCase sql (lit "delete") then
      match mdbDelete d (deleteRequest classes sql) with
      | none => (false, some d)
      | some (n, d') => (if n = 0 then false else true, some d')
    else (false, some d)

/-! ## 2. Statements -/

/-- `DELETE FROM table WHERE w;`, where the condition is all that is between the last two. -/
structure DeleteStatement where
  deleteWord : JavaString
  blanks : JavaString
  fromWord : JavaString
  table : Padded
  whereWord : JavaString
  condition : JavaString
  deleteWord_spelled : IsWord "delete" deleteWord
  blanks_blank : ∀ c ∈ blanks, isBlank c = true
  fromWord_spelled : IsWord "from" fromWord
  whereWord_spelled : IsWord "where" whereWord

namespace DeleteStatement

variable (q : DeleteStatement)

def head : JavaString := q.deleteWord ++ q.blanks

-- behind `WHERE`
def tail : JavaString := q.condition ++ [0x3B]

def text : JavaString := q.head ++ (q.fromWord ++ (q.table.text ++ (q.whereWord ++ q.tail)))

end DeleteStatement

section Asks

variable (classes : CharClasses) {ρ : Type} (rows : JavaString → ρ) (q : DeleteStatement)

/-- The request is for the table of the statement and for the rows its condition is for; `rows` is
what rows a condition is for. -/
structure DeleteRequest.Asks (r : DeleteRequest) : Prop where
  table : r.table = some q.table.body
  whereClause : ∃ c, r.whereClause = some c ∧ rows c = rows q.condition
  whereArgs : r.whereArgs = none

/-- `Delete` makes one request, which asks for what the statement does, and returns whether rows
were removed. -/
def DeletesRight : Prop :=
  ∃ r : DeleteRequest, r.Asks rows q ∧
    ∀ {δ : Type} (mdbDelete : δ → DeleteRequest → Option (Int × δ)) (d : δ),
      (∀ n d', mdbDelete d r = some (n, d') →
        delete classes mdbDelete (some d) q.text = (decide (n ≠ 0), some d')) ∧
      (mdbDelete d r = none → delete classes mdbDelete (some d) q.text = (false, some d))

end Asks

/-! ## 3. What `Delete` asks for -/

/-- What is left of the name of a table when it is taken for a condition. -/
def asCondition (table : JavaString) : JavaString := trim (replace 0x3B 0 table)

/-- The condition `Delete` passes on is made of the table's name. -/
theorem trim_replace_trim (g : JavaString) : trim (replace 0x3B 0 g) = asCondition (trim g) := by
  have ⟨a, b, hg, ha, hb⟩ := trim_split g
  have hblank : ∀ s : JavaString, (∀ c ∈ s, isTrimmed c = true) →
      ∀ c ∈ replace 0x3B 0 s, isTrimmed c = true :=
    fun s hs => trimmed_replace fun c hc => .inl (hs c hc)
  have hsplit := congrArg (fun s => trim (replace 0x3B 0 s)) hg
  simp only [replace_append] at hsplit
  rw [hsplit, trim_append_left (hblank a ha), trim_append_right (hblank b hb), asCondition]

/-- The name of the table is what stands, with blanks around it, where `Delete` looks for it. -/
def DeleteStatement.TableFound (classes : CharClasses) (q : DeleteStatement) : Prop :=
  ∃ g, Enclosed classes q.text g ∧ trim g = q.table.body

/-! ### A table on the line of `FROM` -/

section Classes

variable (classes : CharClasses)

/-- There is a `WHERE` on the first line. -/
def FurtherWhere (rest : JavaString) : Prop :=
  ∃ g w post, rest = g ++ (w ++ post) ∧ IsWord "where" w ∧
    ∀ c ∈ g, classes.isLineTerminator c = false

/-- The letters of a word in small letters. -/
theorem IsWord.lower_mem {w : String} {s : JavaString} (h : IsWord w s) {c : UInt16}
    (hc : c ∈ s) : lower c ∈ (lit w).map lower := by
  rw [← h]
  exact List.mem_map_of_mem hc

theorem IsWord.line {s : JavaString} (h : IsWord "where" s) :
    ∀ c ∈ s, classes.isLineTerminator c = false := by
  intro c hc
  have hmem := h.lower_mem hc
  rw [show (lit "where").map lower = [0x77, 0x68, 0x65, 0x72, 0x65] by decide] at hmem
  simp only [List.mem_cons, List.not_mem_nil, or_false] at hmem
  have hinline : isInline c = true := by
    rcases hmem with hk | hk | hk | hk | hk <;> rcases eq_of_lower hk with rfl | rfl <;> decide
  exact classes.isLineTerminator_inline hinline

/-- What begins before the end of `a` begins with a character of it. -/
theorem mem_of_append_eq {α : Type} {a b pre : List α} {c : α} {rest : List α}
    (h : a ++ b = pre ++ c :: rest) (hlen : pre.length < a.length) : c ∈ a := by
  have hget : (a ++ b)[pre.length]? = some c := by
    rw [h, List.getElem?_append_right (Nat.le_refl _), Nat.sub_self, List.getElem?_cons_zero]
  rw [List.getElem?_append_left hlen] at hget
  exact List.mem_of_getElem? hget

end Classes

namespace DeleteStatement

variable {classes : CharClasses} {q : DeleteStatement}

/-- No `FROM` begins before that of the statement. -/
theorem head_le {pre g : JavaString} (h : Between classes q.text pre g) :
    q.head.length ≤ pre.length := by
  have ⟨f, w, post, hs, hf, _⟩ := h
  have ⟨c, cs, hfc, hc⟩ := hf.exists_cons
    (show (lit "from").map lower = 0x66 :: (lit "rom").map lower by decide)
  by_contra hlt
  rw [hfc, List.cons_append, DeleteStatement.text] at hs
  have hmem := mem_of_append_eq hs (Nat.lt_of_not_le hlt)
  rcases List.mem_append.mp hmem with hmem | hmem
  · have := q.deleteWord_spelled.lower_mem hmem
    rw [hc] at this
    exact absurd this (by decide)
  · have hspace := q.blanks_blank c hmem
    rw [isBlank_lower hspace] at hc
    rw [hc] at hspace
    cases hspace

/-- From there on, the text is what is behind `FROM`. -/
theorem rest_eq {pre g f w post : JavaString}
    (hs : q.text = pre ++ (f ++ (g ++ (w ++ post)))) (hf : IsWord "from" f)
    (hpre : pre.length = q.head.length) :
    q.table.text ++ (q.whereWord ++ q.tail) = g ++ (w ++ post) := by
  have hrest := (List.append_inj hs hpre.symm).2
  exact (List.append_inj hrest (q.fromWord_spelled.length_eq.trans hf.length_eq.symm)).2

theorem between_table (hline : ∀ c ∈ q.table.text, classes.isLineTerminator c = false) :
    Between classes q.text q.head q.table.text :=
  ⟨q.fromWord, q.whereWord, q.tail, rfl, q.fromWord_spelled, q.whereWord_spelled, hline⟩

theorem between_further (hline : ∀ c ∈ q.table.text, classes.isLineTerminator c = false)
    (h : FurtherWhere classes q.tail) :
    ∃ x xs, Between classes q.text q.head (q.table.text ++ x :: xs) := by
  have ⟨g, w, post, htail, hw, hg⟩ := h
  have ⟨x, xs, hx, _⟩ := q.whereWord_spelled.exists_cons
    (show (lit "where").map lower = 0x77 :: (lit "here").map lower by decide)
  refine ⟨x, xs ++ g, q.fromWord, w, post, ?_, q.fromWord_spelled, hw, ?_⟩
  · rw [DeleteStatement.text, htail, ← List.cons_append, ← hx]
    simp only [List.append_assoc]
  · intro c hc
    rw [← List.cons_append, ← hx] at hc
    rcases List.mem_append.mp hc with hc | hc
    · exact hline c hc
    · rcases List.mem_append.mp hc with hc | hc
      · exact q.whereWord_spelled.line classes c hc
      · exact hg c hc

/-- What the pattern takes beyond the table begins with the word `WHERE`, and another one follows on
its line. -/
theorem further_of_longer {pre g : JavaString} (h : Between classes q.text pre g)
    (hpre : pre.length = q.head.length) (hlen : q.table.text.length < g.length) :
    FurtherWhere classes q.tail := by
  have ⟨f, w, post, hs, hf, hw, hg⟩ := h
  have hrest := rest_eq hs hf hpre
  have ⟨x, hx⟩ : q.table.text <+: g :=
    List.prefix_of_prefix_length_le ⟨_, hrest⟩ ⟨_, rfl⟩ hlen.le
  rw [← hx, List.append_assoc] at hrest
  have hword := List.append_cancel_left hrest
  have ⟨c, cs, hwc, hc⟩ := hw.exists_cons
    (show (lit "where").map lower = 0x77 :: (lit "here").map lower by decide)
  have ⟨k, ks, hwk, hk⟩ := q.whereWord_spelled.exists_cons
    (show (lit "where").map lower = 0x77 :: (lit "here").map lower by decide)
  have hne : x ≠ [] := by
    rintro rfl
    rw [← hx, List.append_nil] at hlen
    exact Nat.lt_irrefl _ hlen
  have ⟨y, ys, hy⟩ := List.exists_cons_of_ne_nil hne
  -- no letter of `WHERE` but the first begins the word
  have hle : q.whereWord.length ≤ x.length := by
    by_contra hlt
    have hkx : ks ++ q.tail = ys ++ c :: (cs ++ post) := by
      rw [hwk, hy, hwc, List.cons_append, List.cons_append, List.cons_append] at hword
      exact (List.cons.inj hword).2
    have hmem := mem_of_append_eq hkx (by
      rw [hwk, hy, List.length_cons, List.length_cons] at hlt
      omega)
    have hlower : lower c ∈ ks.map lower := List.mem_map_of_mem hmem
    have hspelled := q.whereWord_spelled
    unfold IsWord at hspelled
    rw [hwk, List.map_cons] at hspelled
    rw [(List.cons.inj hspelled).2, hc] at hlower
    exact absurd hlower (by decide)
  have ⟨z, hz⟩ : q.whereWord <+: x :=
    List.prefix_of_prefix_length_le ⟨_, hword⟩ ⟨_, rfl⟩ hle
  rw [← hz, List.append_assoc] at hword
  refine ⟨z, w, post, List.append_cancel_left hword, hw, fun d hd => hg d ?_⟩
  rw [← hx, ← hz]
  exact List.mem_append_right _ (List.mem_append_right _ hd)

/-- With the table on the line of `FROM`, it is found just when no other `WHERE` follows on the line
of the one that ends it. -/
theorem tableFound_iff (hline : ∀ c ∈ q.table.text, classes.isLineTerminator c = false) :
    q.TableFound classes ↔ ¬FurtherWhere classes q.tail := by
  constructor
  · intro ⟨g, ⟨pre, hbetween, hfirst⟩, hbody⟩ hfurther
    have ⟨x, xs, hlonger⟩ := between_further hline hfurther
    have hpre : pre.length = q.head.length :=
      Nat.le_antisymm (hfirst _ _ hlonger).1 (head_le hbetween)
    have hlen := (hfirst _ _ hlonger).2 hpre.symm
    rw [List.length_append, List.length_cons] at hlen
    have ⟨f, w, post, hs, hf, _⟩ := hbetween
    have hrest := rest_eq hs hf hpre
    have ⟨y, hy⟩ : q.table.text <+: g :=
      List.prefix_of_prefix_length_le ⟨_, hrest⟩ ⟨_, rfl⟩ (by omega)
    have ⟨k, ks, hk, hinitial⟩ := q.whereWord_spelled.initial
      (show (lit "where").map lower = 0x77 :: (lit "here").map lower by decide) (by decide)
    have ⟨ys, hys⟩ : ∃ ys, y = k :: ys := by
      rw [← hy, List.append_assoc, hk] at hrest
      cases y with
      | nil =>
        rw [← hy, List.append_nil] at hlen
        omega
      | cons d ys => exact ⟨ys, by rw [(List.cons.inj (List.append_cancel_left hrest)).1]⟩
    -- the word does not go with the blanks
    have ⟨b, bs, hb, hnot⟩ := q.table.body_head
    have hlonger := length_trim_of_ends hnot hinitial.not_trimmed (bs ++ q.table.after) ys
    have hg : g = q.table.before ++ (b :: ((bs ++ q.table.after) ++ k :: ys)) := by
      rw [← hy, hys, Padded.text, hb]
      simp only [List.append_assoc, List.cons_append]
    rw [← trim_append_left fun c hc => isBlank_trimmed (q.table.before_blank c hc), ← hg, hbody, hb,
      List.length_cons, List.length_append] at hlonger
    omega
  · intro hno
    refine ⟨q.table.text, ⟨q.head, between_table hline, fun pre' g' h' => ?_⟩, ?_⟩
    · refine ⟨head_le h', fun hpre => ?_⟩
      by_contra hlt
      exact hno (further_of_longer h' hpre (Nat.lt_of_not_le hlt))
    · exact q.table.trim_text

end DeleteStatement

section Right

variable {classes : CharClasses} {ρ : Type} {rows : JavaString → ρ} {q : DeleteStatement}

theorem starts_with_delete (q : DeleteStatement) :
    startsWithIgnoringCase q.text (lit "delete") = true := by
  rw [DeleteStatement.text, DeleteStatement.head, List.append_assoc]
  exact startsWithIgnoringCase_append q.deleteWord_spelled _

theorem asks_iff : (deleteRequest classes q.text).Asks rows q ↔
    q.TableFound classes ∧ rows (asCondition q.table.body) = rows q.condition := by
  constructor
  · intro ⟨htable, ⟨c, hc, hrows⟩, _⟩
    have ⟨g, hg, hbody⟩ := Option.map_eq_some_iff.mp htable
    have ⟨g', hg', hclause⟩ := Option.map_eq_some_iff.mp hc
    obtain rfl : g = g' := Option.some.inj (hg.symm.trans hg')
    rw [trim_replace_trim, hbody] at hclause
    exact ⟨⟨g, captured_iff.mp hg, hbody⟩, hclause ▸ hrows⟩
  · intro ⟨⟨g, hg, hbody⟩, hrows⟩
    have hcaptured := captured_iff.mpr hg
    refine ⟨?_, ⟨asCondition q.table.body, ?_, hrows⟩, rfl⟩
    · rw [deleteRequest, hcaptured, Option.map_some, hbody]
    · simp only [deleteRequest, hcaptured, Option.map_some, trim_replace_trim, hbody]

/-- The one request is that of `deleteRequest`. -/
theorem right_iff_asks :
    DeletesRight classes rows q ↔ (deleteRequest classes q.text).Asks rows q := by
  constructor
  · intro ⟨r, hasks, hcall⟩
    -- a database that keeps the last request
    let keep : Option DeleteRequest → DeleteRequest → Option (Int × Option DeleteRequest) :=
      fun _ r => some (1, some r)
    have heq : (true, some (some (deleteRequest classes q.text))) = (true, some (some r)) := by
      rw [← show delete classes keep (some none) q.text = (true, some (some r)) from
        (hcall keep none).1 1 (some r) rfl, delete, if_pos (starts_with_delete q)]
      rfl
    have hr : deleteRequest classes q.text = r :=
      Option.some.inj (Option.some.inj (Prod.mk.inj heq).2)
    rw [hr]
    exact hasks
  · intro hasks
    refine ⟨_, hasks, fun mdbDelete d => ⟨fun n d' hn => ?_, fun hnone => ?_⟩⟩
    · rw [delete, if_pos (starts_with_delete q), hn]
      by_cases hzero : n = 0
      · simp [hzero]
      · simp [hzero]
    · rw [delete, if_pos (starts_with_delete q), hnone]

/-- `Delete` does what the statement says just when its table is found and the name of the table,
taken for a condition, is for the rows that the condition is for. -/
theorem deletes_right_iff (classes : CharClasses) {ρ : Type} (rows : JavaString → ρ)
    (q : DeleteStatement) :
    DeletesRight classes rows q ↔
      q.TableFound classes ∧ rows (asCondition q.table.body) = rows q.condition :=
  right_iff_asks.trans asks_iff

theorem blank_isBlank : ∀ c ∈ ([0x20] : JavaString), isBlank c = true :=
  List.forall_mem_singleton.mpr rfl

/-- `DELETE FROM t WHERE a=1;` -/
def deleteOne : DeleteStatement where
  deleteWord := lit "DELETE"
  blanks := [0x20]
  fromWord := lit "FROM"
  table := groupedStatement.table
  whereWord := lit "WHERE"
  condition := lit " a=1"
  deleteWord_spelled := rfl
  blanks_blank := blank_isBlank
  fromWord_spelled := rfl
  whereWord_spelled := rfl

/-- The database is asked for the rows of `t` for which `t` holds. -/
theorem deleteOne_wrong :
    ¬∀ {ρ : Type} (rows : JavaString → ρ), DeletesRight androidClasses rows deleteOne := by
  intro h
  have ⟨_, ⟨c, hc, htrim⟩, _⟩ := right_iff_asks.mp (h trim)
  have hclause : (deleteRequest androidClasses deleteOne.text).whereClause = some (lit "t") := by
    decide +kernel
  rw [← Option.some.inj (hclause.symm.trans hc)] at htrim
  exact absurd htrim (by decide +kernel)

end Right

end VerifyServer.Client.Offline
