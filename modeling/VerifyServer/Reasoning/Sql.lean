import VerifyServer.Reasoning.JavaString
import VerifyServer.Reasoning.Utf8

/-!
# Sql — statement texts as the database engine reads them

The engine reads a text up to its first NUL, cuts it into tokens and reads a statement from them.
Only inserts, deletes by a conjunction of equalities and such conjunctions alone are read here; of
any other text nothing is said.
-/

namespace VerifyServer.Reasoning.Sql

inductive Token where
  | word (w : JavaString)
  | number (digits : JavaString)
  | text (s : JavaString)
  | symbol (c : UInt16)
  deriving DecidableEq

/-! ## Tokens -/

def quoteMark : UInt16 := 0x27

def isBlank (c : UInt16) : Bool := c = 0x20 || c = 0x09 || c = 0x0A || c = 0x0C || c = 0x0D

def isDigit (c : UInt16) : Bool := 0x30 ≤ c && c ≤ 0x39

def isLetter (c : UInt16) : Bool :=
  (0x41 ≤ c && c ≤ 0x5A) || (0x61 ≤ c && c ≤ 0x7A) || c = 0x5F

-- what has been read of a token; after `quote` a second quote mark would belong to the text
inductive Mode where
  | gap
  | word (w : JavaString)
  | number (digits : JavaString)
  | text (s : JavaString)
  | quote (s : JavaString)
  deriving DecidableEq

/-- A character where no token is open. -/
def enter (c : UInt16) : Option (List Token × Mode) :=
  if isBlank c then some ([], .gap)
  else if c = quoteMark then some ([], .text [])
  else if isLetter c then some ([], .word [c])
  else if isDigit c then some ([], .number [c])
  else if c ∈ lit "(),;=*-" then some ([.symbol c], .gap)
  else none

def after (t : Token) (x : List Token × Mode) : List Token × Mode := (t :: x.1, x.2)

def Mode.read : Mode → UInt16 → Option (List Token × Mode)
  | gap, c => enter c
  | word w, c =>
    if isLetter c || isDigit c then some ([], .word (w ++ [c]))
    else if c = quoteMark then none
    else (enter c).map (after (.word w))
  | number d, c =>
    if isDigit c then some ([], .number (d ++ [c]))
    else if isLetter c || c = quoteMark then none
    else (enter c).map (after (.number d))
  | text s, c =>
    if c = quoteMark then some ([], .quote s) else some ([], .text (s ++ [c]))
  | quote s, c =>
    if c = quoteMark then some ([], .text (s ++ [c])) else (enter c).map (after (.text s))

theorem Mode.read_gap (c : UInt16) : Mode.gap.read c = enter c := rfl

theorem Mode.read_number (d : JavaString) (c : UInt16) : (Mode.number d).read c =
    if isDigit c then some ([], .number (d ++ [c]))
    else if isLetter c || c = quoteMark then none
    else (enter c).map (after (.number d)) := rfl

theorem Mode.read_text (s : JavaString) (c : UInt16) : (Mode.text s).read c =
    if c = quoteMark then some ([], .quote s) else some ([], .text (s ++ [c])) := rfl

theorem Mode.read_quote (s : JavaString) (c : UInt16) : (Mode.quote s).read c =
    if c = quoteMark then some ([], .text (s ++ [c])) else (enter c).map (after (.text s)) := rfl

def lexFrom : Mode → JavaString → Option (List Token × Mode)
  | m, [] => some ([], m)
  | m, c :: cs =>
    (m.read c).bind fun x => (lexFrom x.2 cs).map fun y => (x.1 ++ y.1, y.2)

theorem lexFrom_nil (m : Mode) : lexFrom m [] = some ([], m) := rfl

theorem lexFrom_cons (m : Mode) (c : UInt16) (cs : JavaString) : lexFrom m (c :: cs) =
    (m.read c).bind fun x => (lexFrom x.2 cs).map fun y => (x.1 ++ y.1, y.2) := rfl

/-- The token the end of the text closes. -/
def Mode.close : Mode → Option (List Token)
  | gap => some []
  | word w => some [.word w]
  | number d => some [.number d]
  | text _ => none
  | quote s => some [.text s]

def lex (s : JavaString) : Option (List Token) :=
  (lexFrom .gap (s.takeWhile (· ≠ 0))).bind fun x => x.2.close.map (x.1 ++ ·)

/-- `s` is a run of whole tokens. -/
def Spells (s : JavaString) (ts : List Token) : Prop := lexFrom .gap s = some (ts, .gap)

instance (s : JavaString) (ts : List Token) : Decidable (Spells s ts) :=
  inferInstanceAs (Decidable (_ = _))

theorem lexFrom_append (m : Mode) (s t : JavaString) :
    lexFrom m (s ++ t) =
      (lexFrom m s).bind fun x => (lexFrom x.2 t).map fun y => (x.1 ++ y.1, y.2) := by
  induction s generalizing m with
  | nil =>
    show lexFrom m t = (lexFrom m t).map fun y => ([] ++ y.1, y.2)
    exact Option.map_id'.symm ▸ rfl
  | cons c cs ih =>
    rw [List.cons_append, lexFrom_cons, lexFrom_cons, Option.bind_assoc]
    apply Option.bind_congr
    intro x _
    rw [ih, Option.map_bind, Option.bind_map]
    apply Option.bind_congr
    intro y _
    show ((lexFrom y.2 t).map _).map _ = (lexFrom y.2 t).map _
    rw [Option.map_map]
    apply Option.map_congr
    intro z _
    show (x.1 ++ (y.1 ++ z.1), z.2) = ((x.1 ++ y.1) ++ z.1, z.2)
    rw [List.append_assoc]

theorem Spells.append {s t : JavaString} {ts us : List Token} (hs : Spells s ts)
    (ht : Spells t us) : Spells (s ++ t) (ts ++ us) := by
  unfold Spells at hs ht ⊢
  rw [lexFrom_append, hs, Option.bind_some, ht]
  rfl

theorem lexFrom_text {s : JavaString} (hs : quoteMark ∉ s) (u : JavaString) :
    lexFrom (.text u) s = some ([], .text (u ++ s)) := by
  induction s generalizing u with
  | nil => rw [List.append_nil]; rfl
  | cons c cs ih =>
    have hc : c ≠ quoteMark := fun h => hs (h ▸ List.mem_cons_self ..)
    rw [lexFrom_cons, Mode.read_text, if_neg hc, Option.bind_some,
      ih fun h => hs (List.mem_cons_of_mem _ h), List.append_assoc]
    rfl

/-- A text without a quote mark, between two of them. -/
theorem lexFrom_literal {s : JavaString} (hs : quoteMark ∉ s) (t : JavaString) :
    lexFrom .gap (quoteMark :: (s ++ quoteMark :: t)) = lexFrom (.quote s) t := by
  have hmap : ∀ x : Option (List Token × Mode), (x.map fun y => ([] ++ y.1, y.2)) = x :=
    fun x => Option.map_id'.symm ▸ rfl
  rw [lexFrom_cons, Mode.read_gap, show enter quoteMark = some ([], .text []) from rfl,
    Option.bind_some, lexFrom_append, lexFrom_text hs, Option.bind_some, List.nil_append,
    lexFrom_cons, Mode.read_text, if_pos rfl, Option.bind_some, hmap, hmap, hmap]

theorem Spells.literal {s : JavaString} (hs : quoteMark ∉ s) {c : UInt16} (hc : c ≠ quoteMark)
    {t : JavaString} {ts : List Token} (ht : Spells (c :: t) ts) :
    Spells (quoteMark :: (s ++ quoteMark :: c :: t)) (.text s :: ts) := by
  unfold Spells at ht ⊢
  rw [lexFrom_literal hs, lexFrom_cons, Mode.read_quote, if_neg hc, Option.bind_map]
  rw [lexFrom_cons, Mode.read_gap] at ht
  have ⟨x, hx, hrest⟩ := Option.bind_eq_some_iff.mp ht
  have ⟨y, hy, heq⟩ := Option.map_eq_some_iff.mp hrest
  rw [hx, Option.bind_some]
  show (lexFrom x.2 t).map _ = _
  rw [hy, Option.map_some]
  show some (Token.text s :: (x.1 ++ y.1), y.2) = _
  rw [show x.1 ++ y.1 = ts from congrArg Prod.fst heq,
    show y.2 = Mode.gap from congrArg Prod.snd heq]

theorem lexFrom_number {d : JavaString} (hd : ∀ c ∈ d, isDigit c = true) (u : JavaString) :
    lexFrom (.number u) d = some ([], .number (u ++ d)) := by
  induction d generalizing u with
  | nil => rw [List.append_nil]; rfl
  | cons c cs ih =>
    rw [lexFrom_cons, Mode.read_number, if_pos (hd c (List.mem_cons_self ..)), Option.bind_some,
      ih fun x hx => hd x (List.mem_cons_of_mem _ hx), List.append_assoc]
    rfl

theorem enter_digit {c : UInt16} (hc : isDigit c = true) : enter c = some ([], .number [c]) := by
  have hrange := hc
  simp only [isDigit, Bool.and_eq_true, decide_eq_true_eq, UInt16.le_iff_toNat_le] at hrange
  have hlo : (0x30 : UInt16).toNat = 0x30 := rfl
  have hhi : (0x39 : UInt16).toNat = 0x39 := rfl
  have hne : ∀ k : UInt16, k.toNat < 0x30 ∨ 0x39 < k.toNat → c ≠ k := by
    rintro k hk rfl
    omega
  have hblank : isBlank c = false := by
    simp only [isBlank, Bool.or_eq_false_iff, decide_eq_false_iff_not]
    refine ⟨⟨⟨⟨?_, ?_⟩, ?_⟩, ?_⟩, ?_⟩ <;> exact hne _ (by decide)
  have hletter : isLetter c = false := by
    have h41 : (0x41 : UInt16).toNat = 0x41 := rfl
    have h61 : (0x61 : UInt16).toNat = 0x61 := rfl
    simp only [isLetter, Bool.or_eq_false_iff, Bool.and_eq_false_iff, decide_eq_false_iff_not,
      UInt16.le_iff_toNat_le]
    exact ⟨⟨.inl (by omega), .inl (by omega)⟩, hne _ (by decide)⟩
  rw [enter, hblank, hletter, if_neg Bool.false_ne_true, if_neg (hne quoteMark (by decide)),
    if_neg Bool.false_ne_true, if_pos hc]

theorem Spells.number {d : JavaString} (hd : ∀ c ∈ d, isDigit c = true) (hne : d ≠ [])
    {c : UInt16} (hc : (isDigit c || isLetter c || c = quoteMark) = false) {t : JavaString}
    {ts : List Token} (ht : Spells (c :: t) ts) : Spells (d ++ c :: t) (.number d :: ts) := by
  cases d with
  | nil => exact absurd rfl hne
  | cons e d =>
    rw [Bool.or_eq_false_iff, Bool.or_eq_false_iff] at hc
    unfold Spells at ht ⊢
    rw [lexFrom_cons, Mode.read_gap] at ht
    have ⟨x, hx, hrest⟩ := Option.bind_eq_some_iff.mp ht
    have ⟨y, hy, heq⟩ := Option.map_eq_some_iff.mp hrest
    rw [List.cons_append, lexFrom_cons, Mode.read_gap,
      enter_digit (hd e (List.mem_cons_self ..)), Option.bind_some, lexFrom_append,
      lexFrom_number fun z hz => hd z (List.mem_cons_of_mem _ hz), Option.bind_some, lexFrom_cons,
      Mode.read_number, hc.1.1, hc.1.2, hc.2, hx]
    show (((lexFrom x.2 t).map _).map _).map _ = _
    rw [hy]
    show some (Token.number (e :: d) :: (x.1 ++ y.1), y.2) = _
    rw [show x.1 ++ y.1 = ts from congrArg Prod.fst heq,
      show y.2 = Mode.gap from congrArg Prod.snd heq]

theorem takeWhile_no_nul {s : JavaString} (hs : 0 ∉ s) : s.takeWhile (· ≠ 0) = s := by
  rw [List.takeWhile_eq_self_iff]
  intro c hc
  exact decide_eq_true fun h : c = 0 => hs (h ▸ hc)

theorem Spells.lex_eq {s : JavaString} {ts : List Token} (h : Spells s ts) (hs : 0 ∉ s) :
    lex s = some ts := by
  unfold Spells at h
  rw [lex, takeWhile_no_nul hs, h, Option.bind_some, Mode.close, Option.map_some,
    List.append_nil]

/-- The text ends with a literal. -/
theorem Spells.lex_literal {s u : JavaString} {ts : List Token} (h : Spells s ts)
    (hu : quoteMark ∉ u) (hs : 0 ∉ s ++ quoteMark :: (u ++ [quoteMark])) :
    lex (s ++ quoteMark :: (u ++ [quoteMark])) = some (ts ++ [.text u]) := by
  unfold Spells at h
  rw [lex, takeWhile_no_nul hs, lexFrom_append, h, Option.bind_some, lexFrom_literal hu,
    lexFrom_nil, Option.map_some, Option.bind_some, Mode.close, Option.map_some, List.append_nil]

/-! ## Texts put together from pieces -/

def quoted (s : JavaString) : JavaString := quoteMark :: (s ++ [quoteMark])

/-- A text that is read as it is between two quote marks. -/
structure Quotable (s : JavaString) : Prop where
  no_quote : quoteMark ∉ s
  no_nul : 0 ∉ s
  paired : paired s = true

instance (s : JavaString) : Decidable (Quotable s) :=
  decidable_of_iff (quoteMark ∉ s ∧ 0 ∉ s ∧ paired s = true)
    ⟨fun h => ⟨h.1, h.2.1, h.2.2⟩, fun h => ⟨h.no_quote, h.no_nul, h.paired⟩⟩

/-- A run of whole tokens that is read to its end. -/
structure Reads (s : JavaString) (ts : List Token) : Prop where
  spells : Spells s ts
  no_nul : 0 ∉ s
  paired : paired s = true

instance (s : JavaString) (ts : List Token) : Decidable (Reads s ts) :=
  decidable_of_iff (Spells s ts ∧ 0 ∉ s ∧ paired s = true)
    ⟨fun h => ⟨h.1, h.2.1, h.2.2⟩, fun h => ⟨h.spells, h.no_nul, h.paired⟩⟩

theorem Reads.append {s t : JavaString} {ts us : List Token} (hs : Reads s ts) (ht : Reads t us) :
    Reads (s ++ t) (ts ++ us) where
  spells := hs.spells.append ht.spells
  no_nul h := (List.mem_append.mp h).elim hs.no_nul ht.no_nul
  paired := paired_append hs.paired ht.paired

theorem Quotable.quoted_no_nul {s : JavaString} (hs : Quotable s) : 0 ∉ quoted s := by
  intro h
  rcases List.mem_cons.mp h with h | h
  · exact absurd h (by decide)
  · rcases List.mem_append.mp h with h | h
    · exact hs.no_nul h
    · exact absurd h (by decide)

theorem Quotable.quoted_paired {s : JavaString} (hs : Quotable s) :
    Reasoning.paired (quoted s) = true :=
  paired_append (s := [quoteMark]) rfl (paired_append hs.paired rfl)

/-- A quoted text before a run that does not begin with a quote mark. -/
theorem Reads.quoted_append {s t : JavaString} {ts : List Token} (hs : Quotable s)
    (hstart : t.head?.any (· ≠ quoteMark) = true) (ht : Reads t ts) :
    Reads (quoted s ++ t) (.text s :: ts) where
  spells := by
    cases t with
    | nil => exact absurd hstart Bool.false_ne_true
    | cons c t =>
      show Spells (quoteMark :: ((s ++ [quoteMark]) ++ c :: t)) _
      rw [List.append_assoc]
      exact Spells.literal hs.no_quote (of_decide_eq_true hstart) ht.spells
  no_nul h := (List.mem_append.mp h).elim hs.quoted_no_nul ht.no_nul
  paired := paired_append hs.quoted_paired ht.paired

theorem paired_of_ascii {s : JavaString} (hs : ∀ c ∈ s, c < 0xD800) : paired s = true := by
  have hunit : ∀ c ∈ s, (isHighSurrogate c || isLowSurrogate c) = false := by
    intro c hc
    have hlt := UInt16.lt_iff_toNat_lt.mp (hs c hc)
    have hhigh : (0xD800 : UInt16).toNat = 0xD800 := rfl
    have hlow : (0xDC00 : UInt16).toNat = 0xDC00 := rfl
    simp only [isHighSurrogate, isLowSurrogate, Bool.or_eq_false_iff, Bool.and_eq_false_iff,
      decide_eq_false_iff_not, UInt16.le_iff_toNat_le]
    exact ⟨.inl (by omega), .inl (by omega)⟩
  fun_induction paired s with
  | case1 => rfl
  | case2 u => rw [hunit u (List.mem_singleton_self u)]; rfl
  | case3 u v us hpair ih =>
    rw [Bool.and_eq_true] at hpair
    have hu := hunit u (List.mem_cons_self ..)
    rw [hpair.1, Bool.true_or] at hu
    exact absurd hu (by decide)
  | case4 u v us hpair ih =>
    rw [hunit u (List.mem_cons_self ..), ih (fun c hc => hs c (List.mem_cons_of_mem _ hc))
      fun c hc => hunit c (List.mem_cons_of_mem _ hc)]
    rfl

theorem digit_spec {n : Nat} {c : UInt16} (hc : c ∈ digits n) :
    isDigit c = true ∧ c ≠ 0 ∧ c < 0xD800 := by
  have ⟨hlo, hhi⟩ := mem_digits hc
  have hlo' := UInt16.le_iff_toNat_le.mp hlo
  have hhi' := UInt16.le_iff_toNat_le.mp hhi
  have h30 : (0x30 : UInt16).toNat = 0x30 := rfl
  have h39 : (0x39 : UInt16).toNat = 0x39 := rfl
  have hd8 : (0xD800 : UInt16).toNat = 0xD800 := rfl
  refine ⟨by rw [isDigit, decide_eq_true hlo, decide_eq_true hhi]; rfl, ?_, ?_⟩
  · rintro rfl
    exact absurd hlo' (by decide)
  · rw [UInt16.lt_iff_toNat_lt]
    omega

/-- The tokens of a whole number. -/
def numberTokens : Int → List Token
  | .ofNat n => [.number (digits n)]
  | .negSucc n => [.symbol 0x2D, .number (digits (n + 1))]

theorem Reads.digits_append (n : Nat) {t : JavaString} {ts : List Token}
    (hstart : t.head?.any (fun c => !(isDigit c || isLetter c || c = quoteMark)) = true)
    (ht : Reads t ts) : Reads (digits n ++ t) (.number (digits n) :: ts) where
  spells := by
    cases t with
    | nil => exact absurd hstart Bool.false_ne_true
    | cons c t =>
      exact Spells.number (fun x hx => (digit_spec hx).1) (digits_ne_nil n)
        ((Bool.not_eq_true' _).mp hstart) ht.spells
  no_nul h := (List.mem_append.mp h).elim (fun h => (digit_spec h).2.1 rfl) ht.no_nul
  paired := paired_append (paired_of_ascii fun _ hc => (digit_spec hc).2.2) ht.paired

theorem Reads.decimal_append (n : Int) {t : JavaString} {ts : List Token}
    (hstart : t.head?.any (fun c => !(isDigit c || isLetter c || c = quoteMark)) = true)
    (ht : Reads t ts) : Reads (decimal n ++ t) (numberTokens n ++ ts) := by
  cases n with
  | ofNat n => exact Reads.digits_append n hstart ht
  | negSucc n =>
    have hminus : Reads [0x2D] [.symbol 0x2D] := by decide
    exact hminus.append (Reads.digits_append (n + 1) hstart ht)

theorem Reads.lex_eq {s : JavaString} {ts : List Token} (h : Reads s ts) : lex s = some ts :=
  h.spells.lex_eq h.no_nul

/-- The text ends with a quoted one. -/
theorem Reads.lex_quoted {s u : JavaString} {ts : List Token} (h : Reads s ts) (hu : Quotable u) :
    lex (s ++ quoted u) = some (ts ++ [.text u]) :=
  h.spells.lex_literal hu.no_quote
    fun h' => (List.mem_append.mp h').elim h.no_nul hu.quoted_no_nul

/-! ## Statements -/

inductive Value where
  | text (s : JavaString)
  | number (negative : Bool) (digits : JavaString)
  | call (name argument : JavaString)
  deriving DecidableEq

/-- Equalities of columns with texts, all of which must hold. -/
abbrev Condition := List (JavaString × JavaString)

inductive Statement where
  | insert (table : JavaString) (columns : List JavaString) (values : List Value)
  | delete (table : JavaString) (condition : Condition)
  deriving DecidableEq

def isKeyword (k : String) (w : JavaString) : Bool := w.map lower = (lit k).map lower

def parseNames : List Token → Option (List JavaString × List Token)
  | .word w :: .symbol c :: ts =>
    if c = 0x2C then (parseNames ts).map fun x => (w :: x.1, x.2)
    else if c = 0x29 then some ([w], ts)
    else none
  | _ => none

/-- A value and the comma or bracket after it. -/
def valueThen (v : Value) (c : UInt16) (ts : List Token) (more : Option (List Value × List Token)) :
    Option (List Value × List Token) :=
  if c = 0x2C then more.map fun x => (v :: x.1, x.2)
  else if c = 0x29 then some ([v], ts)
  else none

def parseValues : List Token → Option (List Value × List Token)
  | .text s :: .symbol c :: ts => valueThen (.text s) c ts (parseValues ts)
  | .number d :: .symbol c :: ts => valueThen (.number false d) c ts (parseValues ts)
  | .symbol m :: .number d :: .symbol c :: ts =>
    if m = 0x2D then valueThen (.number true d) c ts (parseValues ts) else none
  | .word f :: .symbol o :: .text a :: .symbol e :: .symbol c :: ts =>
    if o = 0x28 ∧ e = 0x29 then valueThen (.call f a) c ts (parseValues ts) else none
  | _ => none

def parseCondition : List Token → Option Condition
  | [.word column, .symbol e, .text s] => if e = 0x3D then some [(column, s)] else none
  | .word column :: .symbol e :: .text s :: .word k :: ts =>
    if e = 0x3D ∧ isKeyword "and" k then (parseCondition ts).map ((column, s) :: ·) else none
  | _ => none

def parseInsert (table : JavaString) (ts : List Token) : Option Statement :=
  (parseNames ts).bind fun x =>
    match x.2 with
    | .word v :: .symbol o :: ts =>
      if isKeyword "values" v ∧ o = 0x28 then
        (parseValues ts).bind fun y => if y.2 = [] then some (.insert table x.1 y.1) else none
      else none
    | _ => none

def parseTokens : List Token → Option Statement
  | .word a :: .word b :: .word t :: .symbol o :: ts =>
    if isKeyword "insert" a ∧ isKeyword "into" b ∧ o = 0x28 then parseInsert t ts else none
  | .word a :: .word b :: .word t :: .word w :: ts =>
    if isKeyword "delete" a ∧ isKeyword "from" b ∧ isKeyword "where" w then
      (parseCondition ts).map (.delete t)
    else none
  | _ => none

-- the semicolon that may end a statement
def dropSemicolon (ts : List Token) : List Token :=
  if ts.getLast? = some (.symbol 0x3B) then ts.dropLast else ts

def parse (s : JavaString) : Option Statement :=
  (lex s).bind fun ts => parseTokens (dropSemicolon ts)

def parseWhere (s : JavaString) : Option Condition := (lex s).bind parseCondition

/-! ## Rows -/

/-- The text a row has in a column, when it has one. -/
abbrev Row := JavaString → Option JavaString

def Condition.holds (condition : Condition) (r : Row) : Bool :=
  condition.all fun x => r x.1 = some x.2

/-- The text an insert gives for a column. -/
def givenText (columns : List JavaString) (values : List Value) : Row := fun column =>
  match (columns.zip values).lookup column with
  | some (.text s) => some s
  | _ => none

-- a doubled quote mark stands for one
example : parse (lit "DELETE FROM t WHERE a='it''s' AND b='';") =
    some (.delete (lit "t") [(lit "a", lit "it's"), (lit "b", [])]) := by decide +kernel

end VerifyServer.Reasoning.Sql
