import VerifyServer.Client.MyBaseDataProxy

/-!
# SelectParts — the statement `Select` is given and the query it makes

A statement here is written with its words in either case and any blanks around the texts of its
clauses.  `Select` finds each clause by itself: from the first place where the letters of its words
stand, up to the end of the line.
-/

open VerifyServer.Reasoning

namespace VerifyServer.Client.Offline

/-! ## 1. Statements -/

-- a blank of a statement
def isBlank (c : UInt16) : Bool :=
  c = 0x20 || c = 0x09 || c = 0x0A || c = 0x0B || c = 0x0C || c = 0x0D

/-- A text that neither begins nor ends with a blank, and the blanks around it. -/
structure Padded where
  before : JavaString
  body : JavaString
  after : JavaString
  before_blank : ∀ c ∈ before, isBlank c = true
  after_blank : ∀ c ∈ after, isBlank c = true
  body_ne : body ≠ []
  body_trimmed : trim body = body

def Padded.text (p : Padded) : JavaString := p.before ++ (p.body ++ p.after)

structure Clause where
  words : JavaString
  body : Padded

def clauseText : Option Clause → JavaString
  | none => []
  | some c => c.words ++ c.body.text

/-- `SELECT columns FROM table [WHERE w] [GROUP BY g] [HAVING h] [ORDER BY o];` -/
structure SelectStatement where
  selectWord : JavaString
  -- each with its blanks
  columns : List JavaString
  fromWord : JavaString
  table : Padded
  selection : Option Clause
  groupBy : Option Clause
  having : Option Clause
  orderBy : Option Clause

namespace SelectStatement

variable (q : SelectStatement)

-- what follows each clause
def afterHaving : JavaString := clauseText q.orderBy ++ [0x3B]

def afterGroupBy : JavaString := clauseText q.having ++ q.afterHaving

def afterSelection : JavaString := clauseText q.groupBy ++ q.afterGroupBy

def afterTable : JavaString := clauseText q.selection ++ q.afterSelection

def fromTable : JavaString := q.fromWord ++ (q.table.text ++ q.afterTable)

def text : JavaString := q.selectWord ++ (List.intercalate [0x2C] q.columns ++ q.fromTable)

end SelectStatement

/-- The word in capital or small letters. -/
def IsWord (w : String) (s : JavaString) : Prop := s.map lower = (lit w).map lower

instance (w : String) (s : JavaString) : Decidable (IsWord w s) :=
  inferInstanceAs (Decidable (_ = _))

section Classes

variable (classes : CharClasses)

/-- Two words, and blanks between them. -/
def AreWords (w v : String) (s : JavaString) : Prop :=
  ∃ first blanks second, s = first ++ (blanks ++ second) ∧ IsWord w first ∧ IsWord v second ∧
    blanks ≠ [] ∧ ∀ c ∈ blanks, classes.isSpace c = true

/-- The words are those of the form. -/
structure SelectStatement.WellFormed (q : SelectStatement) : Prop where
  selectWord : IsWord "select" q.selectWord
  columns : q.columns ≠ []
  fromWord : IsWord "from" q.fromWord
  selection : ∀ c, q.selection = some c → IsWord "where" c.words
  groupBy : ∀ c, q.groupBy = some c → AreWords classes "group" "by" c.words
  having : ∀ c, q.having = some c → IsWord "having" c.words
  orderBy : ∀ c, q.orderBy = some c → AreWords classes "order" "by" c.words

end Classes

-- what a word of a statement is made of
def isNameUnit (c : UInt16) : Bool :=
  (0x61 ≤ lower c && lower c ≤ 0x7A) || (0x30 ≤ c && c ≤ 0x39) || c = 0x5F || c = 0x24 || 0x80 ≤ c

/-- The words of a text, which stand between other characters. -/
def namesIn (s : JavaString) : List JavaString := s.splitOnP fun c => !isNameUnit c

def keywords : List String := ["select", "from", "where", "group", "having", "order", "by"]

def SelectStatement.parts (q : SelectStatement) : List JavaString :=
  q.columns ++ q.table.text ::
    [q.selection, q.groupBy, q.having, q.orderBy].filterMap fun c => c.map (·.body.text)

/-- No keyword is inside a part. -/
def SelectStatement.KeywordFree (q : SelectStatement) : Prop :=
  ∀ part ∈ q.parts, ∀ u ∈ namesIn part, ∀ w ∈ keywords, ¬IsWord w u

instance (q : SelectStatement) : Decidable q.KeywordFree := by
  unfold SelectStatement.KeywordFree
  infer_instance

/-! ## 2. Queries -/

/-- The arguments of `mdb.query`, of which `selectionArgs` is `null`. -/
structure Query where
  table : JavaString
  columns : Option (List JavaString)
  selection : Option JavaString
  groupBy : Option JavaString
  having : Option JavaString
  orderBy : Option JavaString

/-- The arguments `Select` gives it. -/
def queryOf (classes : CharClasses) (sql : JavaString) : Query where
  table := ((captured (tableRegex classes) sql).map trim).getD []
  columns := columnList classes sql
  selection := clause classes whereWord sql
  groupBy := clause classes (groupByWords classes) sql
  having := clause classes havingWord sql
  orderBy := clause classes (orderByWords classes) sql

def Query.ask {δ : Type} (db : SQLiteDatabase δ) (d : δ) (a : Query) : Option Cursor :=
  db.query d a.table a.columns a.selection none a.groupBy a.having a.orderBy

def bodyOf (clause : Option Clause) : Option JavaString := clause.map (·.body.body)

/-- `null` and the empty array stand for all columns. -/
def Query.AsksColumns (a : Query) (q : SelectStatement) : Prop :=
  if q.columns.map trim = [lit "*"] then
    a.columns = none ∨ a.columns = some [] ∨ a.columns = some [lit "*"]
  else a.columns = some (q.columns.map trim)

/-- The query asks what the statement does. -/
structure Query.Asks (a : Query) (q : SelectStatement) : Prop where
  table : a.table = q.table.body
  columns : a.AsksColumns q
  selection : a.selection = bodyOf q.selection
  groupBy : a.groupBy = bodyOf q.groupBy
  having : a.having = bodyOf q.having
  orderBy : a.orderBy = bodyOf q.orderBy

/-! ## 3. What `Select` reads right -/

section Read

variable (classes : CharClasses)

/-- Up to the end of its line, `rest` is `body` with blanks and semicolons around it; a NUL of
`body` may be a semicolon there. -/
def OnLine (rest body : JavaString) : Prop :=
  ∃ before text after tail, rest = before ++ (text ++ (after ++ tail)) ∧
    (∀ c ∈ before, isTrimmed c = true ∨ c = 0x3B) ∧ (∀ c ∈ after, isTrimmed c = true ∨ c = 0x3B) ∧
    replace 0x3B 0 text = body ∧
    (∀ c ∈ before ++ (text ++ after), classes.isLineTerminator c = false) ∧
    ∀ c ∈ tail.head?, classes.isLineTerminator c = true

/-- A clause that is there is on the line of the first of its words in the text, which need not be
those it begins with; of one that is not there, the words are nowhere. -/
def ClauseRead (spelled : JavaString → Prop) (sql : JavaString) : Option Clause → Prop
  | none => ∀ words, spelled words → ¬words <:+: sql
  | some c => ∃ rest, Regex.FirstAfter spelled sql rest ∧ OnLine classes rest c.body.body

/-- Behind `pre` stand `FROM`, then `g` on the line of that, then `WHERE`. -/
def Between (sql pre g : JavaString) : Prop :=
  ∃ f w post, sql = pre ++ (f ++ (g ++ (w ++ post))) ∧ IsWord "from" f ∧ IsWord "where" w ∧
    ∀ c ∈ g, classes.isLineTerminator c = false

/-- `g` is all between the first `FROM` that a `WHERE` follows on its line, and the last `WHERE`
there. -/
def Enclosed (sql g : JavaString) : Prop :=
  ∃ pre, Between classes sql pre g ∧ ∀ pre' g', Between classes sql pre' g' →
    pre.length ≤ pre'.length ∧ (pre'.length = pre.length → g'.length ≤ g.length)

/-- `Select` finds the table and each clause. -/
structure SelectStatement.ReadRight (q : SelectStatement) : Prop where
  all_columns : q.columns.map trim = [lit "*"]
  table : ∃ g, Enclosed classes q.text g ∧ trim g = q.table.body
  selection : ClauseRead classes (IsWord "where") q.text q.selection
  groupBy : ClauseRead classes (AreWords classes "group" "by") q.text q.groupBy
  having : ClauseRead classes (IsWord "having") q.text q.having
  orderBy : ClauseRead classes (AreWords classes "order" "by") q.text q.orderBy

end Read

/-! ## 4. Words -/

theorem literal_successes_lower {w s : JavaString} (h : s.map lower = w) (rest : JavaString) :
    (Regex.word (w.map fun c x => decide (lower x = c))).successes (s ++ rest) =
      [⟨none, rest⟩] := by
  induction s generalizing w with
  | nil =>
    rw [← h]
    rfl
  | cons c s ih =>
    rw [← h]
    have hfirst : (Regex.one fun x => decide (lower x = lower c)).successes (c :: (s ++ rest)) =
        [⟨none, s ++ rest⟩] := if_pos (decide_eq_true rfl)
    apply (Regex.seq_successes_of_singleton hfirst).trans
    rw [ih rfl]
    rfl

theorem literal_successes {w : String} {s : JavaString} (h : IsWord w s) (rest : JavaString) :
    (literal w).successes (s ++ rest) = [⟨none, rest⟩] := literal_successes_lower h rest

theorem word_successes_lower {w s : JavaString} {m : Regex.Success UInt16}
    (h : m ∈ (Regex.word (w.map fun c x => decide (lower x = c))).successes s) :
    ∃ u, s = u ++ m.rest ∧ u.map lower = w := by
  induction w generalizing s m with
  | nil =>
    rw [List.mem_singleton.mp h]
    exact ⟨[], rfl, rfl⟩
  | cons k w ih =>
    have ⟨m', hm', hn⟩ := List.mem_flatMap.mp h
    have ⟨n, hn', heq⟩ := List.mem_map.mp hn
    have ⟨u, hu, hlower⟩ := ih hn'
    cases s with
    | nil => cases hm'
    | cons c s =>
      rw [Regex.one_cons] at hm'
      split at hm'
      · next hc =>
        rw [List.mem_singleton.mp hm'] at hu
        refine ⟨c :: u, ?_, ?_⟩
        · rw [← heq, List.cons_append]
          exact congrArg (c :: ·) hu
        · rw [List.map_cons, hlower, of_decide_eq_true hc]
      · cases hm'

/-- The pattern of a word takes the word in either case. -/
theorem literal_takes (w : String) : (literal w).Takes (IsWord w) := by
  intro s m
  constructor
  · intro h
    have ⟨u, hu, hlower⟩ := word_successes_lower h
    rw [hu, literal_successes hlower, List.mem_singleton] at h
    exact ⟨by rw [h], u, hu, hlower⟩
  · rintro ⟨hcaptured, u, hs, hword⟩
    rw [hs, literal_successes hword, List.mem_singleton, ← hcaptured]

theorem IsWord.length_eq {w : String} {s : JavaString} (h : IsWord w s) :
    s.length = (lit w).length := by
  have hlen := congrArg List.length h
  rwa [List.length_map, List.length_map] at hlen

theorem prefixFree_isWord (w : String) : Regex.PrefixFree (IsWord w) := by
  intro u v hu hv huv
  exact huv.eq_of_length (hu.length_eq.trans hv.length_eq.symm)

theorem IsWord.exists_cons {w : String} {s : JavaString} (h : IsWord w s) {k : UInt16}
    {ks : JavaString} (hw : (lit w).map lower = k :: ks) :
    ∃ c cs, s = c :: cs ∧ lower c = k := by
  rw [IsWord, hw] at h
  have ⟨c, cs, heq, hc, _⟩ := List.map_eq_cons_iff.mp h
  exact ⟨c, cs, heq, hc⟩

theorem eq_of_lower {c k : UInt16} (h : lower c = k) : c = k ∨ c = k - 0x20 := by
  rw [lower] at h
  split at h
  · right
    rw [← h, UInt16.add_sub_cancel]
  · exact .inl h

section Classes

variable {classes : CharClasses}

/-- The pattern of two words takes them with the blanks between them. -/
theorem words_takes (w v : String) :
    (Regex.seq (literal w) (.seq (.plus classes.isSpace) (literal v))).Takes
      (AreWords classes w v) := by
  apply ((literal_takes w).seq ((Regex.takes_plus _).seq (literal_takes v))).congr
  intro words
  constructor
  · rintro ⟨first, _, hwords, hfirst, blanks, second, rfl, hblanks, hsecond⟩
    exact ⟨first, blanks, second, hwords, hfirst, hsecond, hblanks⟩
  · intro ⟨first, blanks, second, hwords, hfirst, hsecond, hblanks⟩
    exact ⟨first, blanks ++ second, hwords, hfirst, blanks, second, rfl, hblanks, hsecond⟩

variable (classes) in
theorem not_space_of_by {s : JavaString} (h : IsWord "by" s) :
    ∃ c cs, s = c :: cs ∧ classes.isSpace c = false := by
  have ⟨c, cs, heq, hc⟩ := h.exists_cons
    (show (lit "by").map lower = 0x62 :: (lit "y").map lower by decide)
  refine ⟨c, cs, heq, ?_⟩
  rcases eq_of_lower hc with rfl | rfl
  · exact classes.isSpace_printable (by decide) (by decide)
  · exact classes.isSpace_printable (by decide) (by decide)

/-- The blanks end where the second word begins. -/
theorem blanks_unique {a b second second' rest : JavaString}
    (ha : ∀ c ∈ a, classes.isSpace c = true) (hb : ∀ c ∈ b, classes.isSpace c = true)
    (hsecond : IsWord "by" second) (hsecond' : IsWord "by" second')
    (h : a ++ (second ++ rest) = b ++ second') : a = b := by
  have ⟨c, cs, heq, hc⟩ := not_space_of_by classes hsecond
  have ⟨d, ds, heq', hd⟩ := not_space_of_by classes hsecond'
  have htake := congrArg (List.takeWhile classes.isSpace) h
  rwa [List.takeWhile_append_of_pos ha, List.takeWhile_append_of_pos hb, heq, heq',
    List.cons_append, List.takeWhile_cons_of_neg (by rw [hc]; decide),
    List.takeWhile_cons_of_neg (by rw [hd]; decide), List.append_nil, List.append_nil] at htake

theorem prefixFree_areWords (w : String) : Regex.PrefixFree (AreWords classes w "by") := by
  rintro u v ⟨first, blanks, second, rfl, hfirst, hsecond, _, hblanks⟩
    ⟨first', blanks', second', rfl, hfirst', hsecond', _, hblanks'⟩ ⟨rest, h⟩
  rw [List.append_assoc, List.append_assoc] at h
  have hlen := hfirst.length_eq.trans hfirst'.length_eq.symm
  have ⟨hwords, htail⟩ := List.append_inj h hlen
  have hspaces := blanks_unique hblanks hblanks' hsecond hsecond' htail
  rw [hspaces] at htail
  have hlast := prefixFree_isWord "by" second second' hsecond hsecond'
    ⟨rest, List.append_cancel_left htail⟩
  rw [hwords, hspaces, hlast]

end Classes

/-! ## 5. One clause -/

theorem trimmed_replace {s : JavaString}
    (hs : ∀ c ∈ s, isTrimmed c = true ∨ c = 0x3B) :
    ∀ c ∈ replace 0x3B 0 s, isTrimmed c = true := by
  intro c hc
  have ⟨d, hd, heq⟩ := List.mem_map.mp hc
  rw [← heq]
  split
  · decide
  · next hne => exact (hs d hd).resolve_right hne

theorem trim_split (s : JavaString) : ∃ a b, s = a ++ (trim s ++ b) ∧
    (∀ c ∈ a, isTrimmed c = true) ∧ ∀ c ∈ b, isTrimmed c = true := by
  have hfront := List.takeWhile_append_dropWhile (p := isTrimmed) (l := s)
  have hback := congrArg List.reverse (List.takeWhile_append_dropWhile (p := isTrimmed)
    (l := (s.dropWhile isTrimmed).reverse))
  rw [List.reverse_append, List.reverse_reverse] at hback
  refine ⟨s.takeWhile isTrimmed, ((s.dropWhile isTrimmed).reverse.takeWhile isTrimmed).reverse,
    ?_, fun c hc => List.mem_takeWhile_imp hc, fun c hc => ?_⟩
  · rw [trim, hback, hfront]
  · exact List.mem_takeWhile_imp (List.mem_reverse.mp hc)

section Classes

variable {classes : CharClasses}

/-- What `Select` makes of the rest of the text after the words of a clause. -/
def restOfLine (classes : CharClasses) (rest : JavaString) : JavaString :=
  trim (replace 0x3B 0 (rest.takeWhile (isDot classes)))

theorem blank_of_replace {s : JavaString} (h : ∀ c ∈ replace 0x3B 0 s, isTrimmed c = true) :
    ∀ c ∈ s, isTrimmed c = true ∨ c = 0x3B := by
  intro c hc
  have hblank := h _ (List.mem_map_of_mem hc)
  split at hblank
  · next heq => exact .inr heq
  · exact .inl hblank

/-- The line reads as `body` just when it is on it. -/
theorem restOfLine_eq_iff {rest body : JavaString} (htrim : trim body = body) :
    restOfLine classes rest = body ↔ OnLine classes rest body := by
  constructor
  · intro h
    have ⟨a, b, hsplit, ha, hb⟩ := trim_split (replace 0x3B 0 (rest.takeWhile (isDot classes)))
    rw [show trim (replace 0x3B 0 (rest.takeWhile (isDot classes))) = body from h] at hsplit
    have ⟨before, _, hline, hbefore, hright⟩ := List.map_eq_append_iff.mp hsplit
    have ⟨text, after, htail, htext, hafter⟩ := List.map_eq_append_iff.mp hright
    rw [htail] at hline
    refine ⟨before, text, after, rest.dropWhile (isDot classes), ?_, ?_, ?_, htext, ?_, ?_⟩
    · have hrest := List.takeWhile_append_dropWhile (p := isDot classes) (l := rest)
      rw [hline, List.append_assoc, List.append_assoc] at hrest
      exact hrest.symm
    · have hreplace : replace 0x3B 0 before = a := hbefore
      exact blank_of_replace (hreplace ▸ ha)
    · have hreplace : replace 0x3B 0 after = b := hafter
      exact blank_of_replace (hreplace ▸ hb)
    · intro c hc
      rw [← hline] at hc
      exact isDot_iff.mp (List.mem_takeWhile_imp hc)
    · intro c hc
      have hnot := List.head?_dropWhile_not (isDot classes) rest
      rw [Option.mem_def.mp hc] at hnot
      rw [← Bool.not_eq_false']
      exact hnot
  · rintro ⟨before, text, after, tail, hrest, hbefore, hafter, htext, hline, htail⟩
    have hdots : ∀ c ∈ before ++ (text ++ after), isDot classes c = true :=
      fun c hc => isDot_iff.mpr (hline c hc)
    have hnil : tail.takeWhile (isDot classes) = [] := by
      cases tail with
      | nil => rfl
      | cons c tail =>
        have hc := htail c rfl
        exact List.takeWhile_cons_of_neg (by rw [isDot, hc]; decide)
    have htake : rest.takeWhile (isDot classes) = before ++ (text ++ after) := by
      rw [hrest, show before ++ (text ++ (after ++ tail)) = (before ++ (text ++ after)) ++ tail by
        simp only [List.append_assoc], List.takeWhile_append_of_pos hdots, hnil, List.append_nil]
    rw [restOfLine, htake, replace_append, replace_append, htext,
      trim_append_left (trimmed_replace hbefore), trim_append_right (trimmed_replace hafter), htrim]

variable {r : Regex UInt16} {spelled : JavaString → Prop} {sql : JavaString}

theorem clause_of_find {rest : JavaString} (h : r.find sql = some ⟨none, rest⟩) :
    clause classes r sql = some (restOfLine classes rest) := by
  have hrest : ((line classes).successes rest).head? =
      some ⟨some (rest.takeWhile (isDot classes)), rest.dropWhile (isDot classes)⟩ :=
    Regex.group_many_head? (isDot classes) rest
  rw [clause, captured, Regex.find_seq h hrest]
  rfl

/-- A clause gets its text just when it is read right. -/
theorem clause_iff (htakes : r.Takes spelled) (hfree : Regex.PrefixFree spelled)
    (c : Option Clause) :
    clause classes r sql = bodyOf c ↔ ClauseRead classes spelled sql c := by
  cases hfind : r.find sql with
  | none =>
    rw [clause_none hfind]
    have hno := htakes.find_none_iff.mp hfind
    cases c with
    | none => exact iff_of_true rfl hno
    | some c =>
      refine iff_of_false (fun h => by cases h) ?_
      rintro ⟨rest, ⟨pre, u, hsql, hu, _⟩, _⟩
      exact hno u hu ⟨pre, rest, by rw [hsql, List.append_assoc]⟩
  | some m =>
    have hm : m = ⟨none, m.rest⟩ := by rw [← htakes.captured_none hfind]
    rw [hm] at hfind
    rw [clause_of_find hfind]
    have hafter := (htakes.find_iff hfree).mp hfind
    cases c with
    | none =>
      refine iff_of_false (fun h => by cases h) fun hno => ?_
      rw [htakes.find_none_iff.mpr hno] at hfind
      cases hfind
    | some c =>
      rw [bodyOf, Option.map_some, Option.some.injEq, restOfLine_eq_iff c.body.body_trimmed]
      constructor
      · exact fun h => ⟨m.rest, hafter, h⟩
      · rintro ⟨rest, hrest, h⟩
        rwa [hafter.unique hfree hrest]

end Classes

/-! ## 6. The table -/

theorem isWord_FROM {s : JavaString} : IsWord "FROM" s ↔ IsWord "from" s := by
  rw [IsWord, IsWord, show (lit "FROM").map lower = (lit "from").map lower by decide]

theorem isWord_WHERE {s : JavaString} : IsWord "WHERE" s ↔ IsWord "where" s := by
  rw [IsWord, IsWord, show (lit "WHERE").map lower = (lit "where").map lower by decide]

section Classes

variable {classes : CharClasses}

theorem mem_table {s : JavaString} {m : Regex.Success UInt16} :
    m ∈ (tableRegex classes).successes s ↔ ∃ f g w, s = f ++ (g ++ (w ++ m.rest)) ∧
      IsWord "from" f ∧ IsWord "where" w ∧ (∀ c ∈ g, classes.isLineTerminator c = false) ∧
      m.captured = some g := by
  unfold tableRegex
  rw [Regex.seq_successes, List.mem_flatMap]
  constructor
  · intro ⟨m', hm', hm⟩
    have ⟨n, hn, heq⟩ := List.mem_map.mp hm
    have ⟨hnone, f, hs, hf⟩ := (literal_takes _ _ _).mp hm'
    have ⟨g, rest, k, hrest, hg, hk, hn'⟩ := Regex.mem_group_many.mp hn
    have ⟨_, w, hrest', hw⟩ := (literal_takes _ _ _).mp hk
    refine ⟨f, g, w, ?_, isWord_FROM.mp hf, isWord_WHERE.mp hw, ?_, ?_⟩
    · rw [hs, hrest, hrest', ← heq, hn']
    · exact fun c hc => isDot_iff.mp (hg c hc)
    · rw [← heq, hnone, hn']
      rfl
  · intro ⟨f, g, w, hs, hf, hw, hg, hcaptured⟩
    refine ⟨⟨none, g ++ (w ++ m.rest)⟩, (literal_takes _ _ _).mpr
      ⟨rfl, f, hs, isWord_FROM.mpr hf⟩, ?_⟩
    refine List.mem_map.mpr ⟨m, Regex.mem_group_many.mpr ?_, ?_⟩
    · refine ⟨g, w ++ m.rest, ⟨none, m.rest⟩, rfl, fun c hc => isDot_iff.mpr (hg c hc), ?_, ?_⟩
      · exact (literal_takes _ _ _).mpr ⟨rfl, w, rfl, isWord_WHERE.mpr hw⟩
      · rw [← hcaptured]
    · rw [Option.none_or]

/-- Where the pattern matches first, it takes the most it can. -/
theorem table_longest {s : JavaString} {m n : Regex.Success UInt16}
    (hm : ((tableRegex classes).successes s).head? = some m)
    (hn : n ∈ (tableRegex classes).successes s) :
    (n.captured.getD []).length ≤ (m.captured.getD []).length := by
  have ⟨f, _, _, hs, hf, _⟩ := mem_table.mp hn
  unfold tableRegex at hm hn
  rw [hs, Regex.seq_successes_of_singleton (literal_successes (isWord_FROM.mpr hf) _)] at hm hn
  rw [List.head?_map] at hm
  have ⟨m', hm', heq⟩ := Option.map_eq_some_iff.mp hm
  have ⟨n', hn', heq'⟩ := List.mem_map.mp hn
  have hle := Regex.group_many_longest hm' hn'
  rw [← heq, ← heq', Option.none_or, Option.none_or]
  exact hle

theorem between_of_mem {sql v : JavaString} {m : Regex.Success UInt16} (hv : v <:+ sql)
    (hm : m ∈ (tableRegex classes).successes v) :
    ∃ pre g, sql = pre ++ v ∧ m.captured = some g ∧ Between classes sql pre g := by
  have ⟨pre, hpre⟩ := hv
  have ⟨f, g, w, hs, hf, hw, hg, hcaptured⟩ := mem_table.mp hm
  exact ⟨pre, g, hpre.symm, hcaptured, f, w, m.rest, hs ▸ hpre.symm, hf, hw, hg⟩

theorem Between.exists_mem {sql pre g : JavaString} (h : Between classes sql pre g) :
    ∃ v m, sql = pre ++ v ∧ m ∈ (tableRegex classes).successes v ∧ m.captured = some g := by
  have ⟨f, w, post, hs, hf, hw, hg⟩ := h
  exact ⟨_, ⟨some g, post⟩, hs, mem_table.mpr ⟨f, g, w, rfl, hf, hw, hg, rfl⟩, rfl⟩

theorem captured_some {sql g : JavaString} (h : captured (tableRegex classes) sql = some g) :
    Enclosed classes sql g := by
  have ⟨m, hm, hg⟩ := Option.bind_eq_some_iff.mp h
  have ⟨v, hv, hhead, hfirst⟩ := Regex.find_eq_some hm
  have ⟨pre, g₁, hpre, hg₁, hbetween⟩ := between_of_mem hv (List.mem_of_mem_head? hhead)
  obtain rfl : g = g₁ := Option.some.inj (hg.symm.trans hg₁)
  refine ⟨pre, hbetween, fun pre' g' h' => ?_⟩
  have ⟨v', m', hpre', hm', hg'⟩ := h'.exists_mem
  have hle := hfirst v' ⟨pre', hpre'.symm⟩ (List.ne_nil_of_mem hm')
  have hlen := congrArg List.length (hpre.symm.trans hpre')
  rw [List.length_append, List.length_append] at hlen
  refine ⟨by omega, fun heq => ?_⟩
  have hv' := (List.append_inj (hpre.symm.trans hpre') heq.symm).2
  have hlongest := table_longest hhead (hv' ▸ hm')
  rwa [hg', hg] at hlongest

theorem Enclosed.unique {sql g g' : JavaString} (h : Enclosed classes sql g)
    (h' : Enclosed classes sql g') : g = g' := by
  have ⟨pre, hb, hfirst⟩ := h
  have ⟨pre', hb', hfirst'⟩ := h'
  have hpre : pre'.length = pre.length :=
    Nat.le_antisymm (hfirst' pre g hb).1 (hfirst pre' g' hb').1
  have hlen : g.length = g'.length :=
    Nat.le_antisymm ((hfirst' pre g hb).2 hpre.symm) ((hfirst pre' g' hb').2 hpre)
  have ⟨f, w, post, hs, hf, _⟩ := hb
  have ⟨f', w', post', hs', hf', _⟩ := hb'
  have hrest := (List.append_inj (hs.symm.trans hs') hpre.symm).2
  have hrest' := (List.append_inj hrest (hf.length_eq.trans hf'.length_eq.symm)).2
  exact (List.append_inj hrest' hlen).1

theorem captured_iff {sql g : JavaString} :
    captured (tableRegex classes) sql = some g ↔ Enclosed classes sql g := by
  refine ⟨captured_some, fun h => ?_⟩
  cases hc : captured (tableRegex classes) sql with
  | some g' => rw [(captured_some hc).unique h]
  | none =>
    have ⟨pre, hbetween, _⟩ := h
    have ⟨v, m, hpre, hm, hg⟩ := hbetween.exists_mem
    cases hfind : (tableRegex classes).find sql with
    | none =>
      rw [Regex.find_eq_none_iff.mp hfind v ⟨pre, hpre.symm⟩] at hm
      cases hm
    | some n =>
      have ⟨u, hu, hhead, _⟩ := Regex.find_eq_some hfind
      have ⟨_, _, _, hn, _⟩ := between_of_mem hu (List.mem_of_mem_head? hhead)
      rw [captured, hfind, Option.bind_some, hn] at hc
      cases hc

variable (classes) in
/-- The table is the one between the words, where it is found. -/
theorem table_iff (q : SelectStatement) :
    (queryOf classes q.text).table = q.table.body ↔
      ∃ g, Enclosed classes q.text g ∧ trim g = q.table.body := by
  show ((captured (tableRegex classes) q.text).map trim).getD [] = q.table.body ↔ _
  constructor
  · intro h
    cases hc : captured (tableRegex classes) q.text with
    | none =>
      rw [hc] at h
      exact absurd h.symm q.table.body_ne
    | some g =>
      rw [hc] at h
      exact ⟨g, captured_iff.mp hc, h⟩
  · intro ⟨g, hg, hbody⟩
    rw [captured_iff.mpr hg, Option.map_some, Option.getD_some, hbody]

end Classes

/-! ## 7. The whole statement -/

section Classes

variable {classes : CharClasses}

variable (classes) in
theorem columns_iff {q : SelectStatement} (hne : q.columns ≠ []) :
    (queryOf classes q.text).AsksColumns q ↔ q.columns.map trim = [lit "*"] := by
  have hall : (queryOf classes q.text).columns = none ∨
      (queryOf classes q.text).columns = some [] :=
    columnList_all classes q.text
  rw [Query.AsksColumns]
  split
  · next hstar => exact iff_of_true (hall.imp_right .inl) hstar
  · next hstar =>
    refine iff_of_false (fun h => ?_) hstar
    rw [h] at hall
    cases hall with
    | inl hall => cases hall
    | inr hall => exact hne (List.map_eq_nil_iff.mp (Option.some.inj hall))

theorem select_query {δ : Type} (db : SQLiteDatabase δ) (d : δ) {sql : JavaString}
    (h : startsWithIgnoringCase sql (lit "select") = true) :
    select classes db (some d) sql = ((queryOf classes sql).ask db d).map Cursor.strings := by
  rw [select, if_pos h]
  rfl

/-- `Select` makes one query of a statement, which asks what the statement does just when `Select`
finds its parts. -/
theorem select_asks_iff (classes : CharClasses) {q : SelectStatement} (hq : q.WellFormed classes) :
    (∀ {δ : Type} (db : SQLiteDatabase δ) (d : δ), select classes db (some d) q.text =
      ((queryOf classes q.text).ask db d).map Cursor.strings) ∧
    ((queryOf classes q.text).Asks q ↔ q.ReadRight classes) := by
  have htable := table_iff classes q
  have hcolumns := columns_iff classes hq.columns
  have hselection : (queryOf classes q.text).selection = bodyOf q.selection ↔ _ :=
    clause_iff (literal_takes "where") (prefixFree_isWord "where") q.selection
  have hgroupBy : (queryOf classes q.text).groupBy = bodyOf q.groupBy ↔ _ :=
    clause_iff (words_takes "group" "by") (prefixFree_areWords "group") q.groupBy
  have hhaving : (queryOf classes q.text).having = bodyOf q.having ↔ _ :=
    clause_iff (literal_takes "having") (prefixFree_isWord "having") q.having
  have horderBy : (queryOf classes q.text).orderBy = bodyOf q.orderBy ↔ _ :=
    clause_iff (words_takes "order" "by") (prefixFree_areWords "order") q.orderBy
  refine ⟨fun db d => select_query db d (startsWithIgnoringCase_append hq.selectWord _),
    fun h => ?_, fun h => ?_⟩
  · exact ⟨hcolumns.mp h.columns, htable.mp h.table, hselection.mp h.selection,
      hgroupBy.mp h.groupBy, hhaving.mp h.having, horderBy.mp h.orderBy⟩
  · exact ⟨htable.mpr h.table, hcolumns.mpr h.all_columns, hselection.mpr h.selection,
      hgroupBy.mpr h.groupBy, hhaving.mpr h.having, horderBy.mpr h.orderBy⟩

end Classes

/-- A text after a blank, and what is after it. -/
def padded (body after : JavaString) (hafter : after.all isBlank = true) (hne : body ≠ [])
    (htrim : trim body = body) : Padded :=
  ⟨[0x20], body, after, List.forall_mem_singleton.mpr rfl, List.all_eq_true.mp hafter, hne, htrim⟩

/-- `SELECT * FROM t WHERE a=1` and, on the next line, `group by b;`. -/
def groupedStatement : SelectStatement where
  selectWord := lit "SELECT"
  columns := [lit " * "]
  fromWord := lit "FROM"
  table := padded (lit "t") [0x20] rfl (by decide) rfl
  selection := some ⟨lit "WHERE", padded (lit "a=1") [0x0A] rfl (by decide) rfl⟩
  groupBy := some ⟨lit "group by", padded (lit "b") [] rfl (by decide) rfl⟩
  having := none
  orderBy := none

theorem groupedStatement_asks :
    (queryOf androidClasses groupedStatement.text).Asks groupedStatement := by
  have hwords : AreWords androidClasses "group" "by" (lit "group by") :=
    ⟨lit "group", [0x20], lit "by", rfl, rfl, rfl, nofun, List.forall_mem_singleton.mpr rfl⟩
  have hq : groupedStatement.WellFormed androidClasses := {
    selectWord := rfl
    columns := nofun
    fromWord := rfl
    selection := fun c hc => by rw [← Option.some.inj hc]; rfl
    groupBy := fun c hc => by rw [← Option.some.inj hc]; exact hwords
    having := fun c hc => by cases hc
    orderBy := fun c hc => by cases hc }
  have htable : captured (tableRegex androidClasses) groupedStatement.text = some (lit " t ") := by
    decide +kernel
  have hread : groupedStatement.ReadRight androidClasses := {
    all_columns := rfl
    table := ⟨_, captured_iff.mp htable, rfl⟩
    selection := (clause_iff (literal_takes "where") (prefixFree_isWord "where") _).mp
      (by decide +kernel)
    groupBy := (clause_iff (words_takes "group" "by") (prefixFree_areWords "group") _).mp
      (by decide +kernel)
    having := (clause_iff (literal_takes "having") (prefixFree_isWord "having") _).mp
      (by decide +kernel)
    orderBy := (clause_iff (words_takes "order" "by") (prefixFree_areWords "order") _).mp
      (by decide +kernel) }
  exact (select_asks_iff androidClasses hq).2.mpr hread

/-- `SELECT * FROM t;` -/
def wholeTable : SelectStatement where
  selectWord := lit "SELECT"
  columns := [lit " * "]
  fromWord := lit "FROM"
  table := padded (lit "t") [] rfl (by decide) rfl
  selection := none
  groupBy := none
  having := none
  orderBy := none

/-- It is asked of no table. -/
theorem select_without_where :
    ¬∀ q : SelectStatement, q.WellFormed androidClasses → q.KeywordFree →
      (queryOf androidClasses q.text).Asks q := by
  intro h
  have hq : wholeTable.WellFormed androidClasses := {
    selectWord := rfl
    columns := nofun
    fromWord := rfl
    selection := fun c hc => by cases hc
    groupBy := fun c hc => by cases hc
    having := fun c hc => by cases hc
    orderBy := fun c hc => by cases hc }
  have hfree : wholeTable.KeywordFree := by decide +kernel
  have htable : (queryOf androidClasses wholeTable.text).table = lit "t" :=
    (h wholeTable hq hfree).table
  exact absurd htable (by decide +kernel)

-- the letters of a keyword inside another word count as well
example : (queryOf androidClasses (lit "SELECT * FROM t WHERE somewhere=1;")).table =
    lit "t WHERE some" := by decide +kernel

end VerifyServer.Client.Offline
