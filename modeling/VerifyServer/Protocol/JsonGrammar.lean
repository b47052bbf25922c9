import VerifyServer.Protocol.JsonText

/-!
# JsonGrammar — the texts that spell an item

The grammar of JSON; what may stand between two tokens and what a number says are left open.  An escape with digits is one
of an ASCII unit here; what becomes of the others is in `JsonStrings`.  The parser takes every text
of the grammar, with the blanks of JSON between the tokens, for the item that it spells.
-/

open VerifyServer.Reasoning

namespace VerifyServer.Protocol

/-! ## 1. Strings -/

/-- The units that are escaped by one letter. -/
def shortEscape (e : UInt16) : Option UInt16 :=
  if e = quoteMark ∨ e = backslash ∨ e = 0x2F then some e
  else if e = 0x62 then some 0x08
  else if e = 0x66 then some 0x0C
  else if e = 0x6E then some 0x0A
  else if e = 0x72 then some 0x0D
  else if e = 0x74 then some 0x09
  else none

/-- The text between the quotes and the units of the string. -/
inductive SpellsUnits : List UInt16 → List UInt16 → Prop where
  | nil : SpellsUnits [] []
  | plain {c : UInt16} {t s : List UInt16} (hquote : c ≠ quoteMark) (hback : c ≠ backslash)
      (h : SpellsUnits t s) : SpellsUnits (c :: t) (c :: s)
  | short {e c : UInt16} {t s : List UInt16} (he : shortEscape e = some c)
      (h : SpellsUnits t s) : SpellsUnits (backslash :: e :: t) (c :: s)
  | hex {a b c d : UInt16} {u : Nat} {t s : List UInt16} (hu : parseHex4 [a, b, c, d] = u)
      (hpos : 0 < u) (hascii : u < 0x80) (h : SpellsUnits t s) :
      SpellsUnits (backslash :: letterU :: a :: b :: c :: d :: t) (UInt16.ofNat u :: s)

/-! ## 2. Numbers -/

/-- The number that digits are in the decimal system. -/
def numeral (ds : List UInt16) : Nat := Nat.ofDigits 10 (ds.map fun c => c.toNat - 0x30).reverse

structure Exponent where
  letter : UInt16
  sign : List UInt16
  digits : List UInt16

structure NumberText where
  negative : Bool
  integer : List UInt16
  /-- The digits behind the point, which stands there with one of them at least. -/
  fraction : List UInt16
  exponent : Option Exponent

namespace NumberText

def signText (n : NumberText) : List UInt16 := if n.negative then [minus] else []

def fractionText (n : NumberText) : List UInt16 :=
  match n.fraction with
  | [] => []
  | d :: ds => point :: d :: ds

def exponentText (n : NumberText) : List UInt16 :=
  match n.exponent with
  | none => []
  | some e => e.letter :: (e.sign ++ e.digits)

def text (n : NumberText) : List UInt16 :=
  n.signText ++ (n.integer ++ (n.fractionText ++ n.exponentText))

structure WellFormed (n : NumberText) : Prop where
  integer : n.integer = [0x30] ∨
    ∃ c ds, n.integer = c :: ds ∧ (0x31 ≤ c && c ≤ 0x39) = true ∧ ds.all isDigit = true
  fraction : n.fraction.all isDigit = true
  exponent : ∀ e, n.exponent = some e → (e.letter = 0x65 ∨ e.letter = 0x45) ∧
    (e.sign = [] ∨ e.sign = [0x2B] ∨ e.sign = [minus]) ∧
    e.digits ≠ [] ∧ e.digits.all isDigit = true

/-- All digits in front of the exponent, as one number. -/
def mantissa (n : NumberText) : Nat := numeral (n.integer ++ n.fraction)

/-- The power of ten that goes with them. -/
def power (n : NumberText) : Int :=
  match n.exponent with
  | none => -n.fraction.length
  | some e => (if e.sign = [minus] then -1 else 1) * numeral e.digits - n.fraction.length

/-- The mantissa is a `double`, and the exponent is an `int`. -/
structure InRange (n : NumberText) : Prop where
  mantissa : n.mantissa ≤ 2 ^ 53
  fraction : n.fraction.length < 2 ^ 31
  exponent : ∀ e, n.exponent = some e → numeral e.digits < 2 ^ 31

variable {D : Type}

/-- The number that is written, which the functions on `double` make of its parts. -/
def value (A : Doubles D) (n : NumberText) : D :=
  A.mul (A.mul (A.ofInt (if n.negative then -1 else 1)) (A.ofInt n.mantissa))
    (A.pow (A.ofInt 10) (A.ofInt n.power))

/-- `d` is the number that is written. -/
def Denotes (A : Doubles D) (n : NumberText) (d : D) : Prop := n.InRange ∧ d = n.value A

end NumberText

/-! ## 3. Values -/

section Grammar

variable {D : Type} (A : Doubles D) (Number : NumberText → D → Prop) (Gap : List UInt16 → Prop)

mutual

inductive Spells : JsonTree D → List UInt16 → Prop where
  | null : Spells .null (lit "null")
  | false : Spells .false (lit "false")
  | true : Spells .true (lit "true")
  | number {n : NumberText} {d : D} (h : n.WellFormed) (hd : Number n d) :
      Spells (.number (A.toInt d) d) n.text
  | string {s : TText} {t : List UInt16} (h : SpellsUnits t s.units) :
      Spells (.string s) (quoteMark :: (t ++ [quoteMark]))
  | emptyArray {g : List UInt16} (hg : Gap g) :
      Spells (.array []) (openBracket :: (g ++ [closeBracket]))
  | array {vs : List (JsonTree D)} {t : List UInt16} (h : SpellsElements vs t) :
      Spells (.array vs) (openBracket :: t)
  | emptyObject {g : List UInt16} (hg : Gap g) :
      Spells (.object []) (openBrace :: (g ++ [closeBrace]))
  | object {ms : List (TText × JsonTree D)} {t : List UInt16} (h : SpellsMembers ms t) :
      Spells (.object ms) (openBrace :: t)

/-- What stands behind the bracket, up to the closing one. -/
inductive SpellsElements : List (JsonTree D) → List UInt16 → Prop where
  | last {v : JsonTree D} {g t g' : List UInt16} (hg : Gap g) (h : Spells v t) (hg' : Gap g') :
      SpellsElements [v] (g ++ (t ++ (g' ++ [closeBracket])))
  | more {v : JsonTree D} {vs : List (JsonTree D)} {g t g' ts : List UInt16} (hg : Gap g)
      (h : Spells v t) (hg' : Gap g') (hs : SpellsElements vs ts) :
      SpellsElements (v :: vs) (g ++ (t ++ (g' ++ comma :: ts)))

/-- What stands behind the brace, up to the closing one. -/
inductive SpellsMembers : List (TText × JsonTree D) → List UInt16 → Prop where
  | last {m : TText × JsonTree D} {t g' : List UInt16} (h : SpellsMember m t) (hg' : Gap g') :
      SpellsMembers [m] (t ++ (g' ++ [closeBrace]))
  | more {m : TText × JsonTree D} {ms : List (TText × JsonTree D)} {t g' ts : List UInt16}
      (h : SpellsMember m t) (hg' : Gap g') (hs : SpellsMembers ms ts) :
      SpellsMembers (m :: ms) (t ++ (g' ++ comma :: ts))

/-- A name, a colon and a value. -/
inductive SpellsMember : TText × JsonTree D → List UInt16 → Prop where
  | mk {string : TText} {v : JsonTree D} {g k g₁ g₂ t : List UInt16} (hg : Gap g)
      (hk : SpellsUnits k string.units) (hg₁ : Gap g₁) (hg₂ : Gap g₂) (h : Spells v t) :
      SpellsMember (string, v)
        (g ++ (quoteMark :: (k ++ (quoteMark :: (g₁ ++ (colon :: (g₂ ++ t)))))))

end

/-- A value and what may stand around it. -/
def SpellsText (v : JsonTree D) (text : List UInt16) : Prop :=
  ∃ g t g', Gap g ∧ Spells A Number Gap v t ∧ Gap g' ∧ text = g ++ (t ++ g')

end Grammar

def isBlank (c : UInt16) : Bool := c = 0x20 || c = 0x09 || c = 0x0A || c = 0x0D

/-- Blanks between the tokens. -/
def Blanks (g : List UInt16) : Prop := g.all isBlank = true

/-- Nothing between the tokens. -/
def Nothing (g : List UInt16) : Prop := g = []

/-! ## 4. What `parse_string` makes of a string -/

theorem scanString_plain {c : UInt16} {ptr : List UInt16} (hquote : c ≠ quoteMark)
    (hback : c ≠ backslash) : scanString (c :: ptr) = (· + 1) <$> scanString ptr := by
  cases ptr with
  | nil =>
    simp only [scanString, if_neg hquote, if_neg hback]
    rfl
  | cons d ptr => rw [scanString, if_neg hquote, if_neg hback]

theorem scanString_escape {d : UInt16} {ptr : List UInt16} :
    scanString (backslash :: d :: ptr) = (· + 1) <$> scanString ptr := by
  rw [scanString, if_neg (by decide), if_pos rfl]

theorem scanString_quote {ptr : List UInt16} : scanString (quoteMark :: ptr) = .ok 0 := by
  cases ptr <;> rfl

theorem hexDigit_plain {a : UInt16} {n : Nat} (h : hexDigit a = some n) :
    a ≠ quoteMark ∧ a ≠ backslash := by
  refine ⟨?_, ?_⟩
  · intro heq
    rw [heq] at h
    cases h
  · intro heq
    rw [heq] at h
    cases h

/-- A value that is not null came from four digits. -/
theorem parseHex4_digits {a b c d : UInt16} {rest : List UInt16}
    (h : parseHex4 (a :: b :: c :: d :: rest) ≠ 0) :
    ∃ w x y z, hexDigit a = some w ∧ hexDigit b = some x ∧ hexDigit c = some y ∧
      hexDigit d = some z := by
  rw [parseHex4] at h
  cases ha : hexDigit a with
  | none => simp [ha] at h
  | some w =>
    cases hb : hexDigit b with
    | none => simp [ha, hb] at h
    | some x =>
      cases hc : hexDigit c with
      | none => simp [ha, hb, hc] at h
      | some y =>
        cases hd : hexDigit d with
        | none => simp [ha, hb, hc, hd] at h
        | some z => exact ⟨w, x, y, z, rfl, rfl, rfl, rfl⟩

theorem scanString_hex {a b c d : UInt16} {ptr : List UInt16}
    (h : parseHex4 [a, b, c, d] ≠ 0) :
    scanString (backslash :: letterU :: a :: b :: c :: d :: ptr) =
      (· + 5) <$> scanString ptr := by
  have ⟨w, x, y, z, ha, hb, hc, hd⟩ := parseHex4_digits h
  rw [scanString_escape, scanString_plain (hexDigit_plain ha).1 (hexDigit_plain ha).2,
    scanString_plain (hexDigit_plain hb).1 (hexDigit_plain hb).2,
    scanString_plain (hexDigit_plain hc).1 (hexDigit_plain hc).2,
    scanString_plain (hexDigit_plain hd).1 (hexDigit_plain hd).2]
  cases scanString ptr <;> rfl

theorem SpellsUnits.scan {t s : List UInt16} (h : SpellsUnits t s) (rest : List UInt16) :
    ∃ len, scanString (t ++ quoteMark :: rest) = .ok len ∧ s.length ≤ len := by
  induction h with
  | nil => exact ⟨0, scanString_quote, Nat.le_refl 0⟩
  | plain hquote hback h ih =>
    have ⟨len, hscan, hle⟩ := ih
    rw [List.cons_append, scanString_plain hquote hback, hscan]
    exact ⟨len + 1, rfl, Nat.succ_le_succ hle⟩
  | short he h ih =>
    have ⟨len, hscan, hle⟩ := ih
    rw [List.cons_append, List.cons_append, scanString_escape, hscan]
    exact ⟨len + 1, rfl, Nat.succ_le_succ hle⟩
  | hex hu hpos hascii h ih =>
    have ⟨len, hscan, hle⟩ := ih
    simp only [List.cons_append]
    rw [scanString_hex (hu ▸ Nat.pos_iff_ne_zero.mp hpos), hscan]
    exact ⟨len + 5, rfl, by rw [List.length_cons]; omega⟩

theorem decodeEscape_short {e c : UInt16} {ptr : List UInt16} (h : shortEscape e = some c) :
    decodeEscape (e :: ptr) = .ok ([c], ptr) := by
  unfold shortEscape at h
  split at h
  · next hself =>
    cases h
    rcases hself with rfl | rfl | rfl <;> rfl
  · rw [decodeEscape]
    split at h
    · next hb => cases h; rw [if_pos hb]
    · next hb =>
      rw [if_neg hb]
      split at h
      · next hf => cases h; rw [if_pos hf]
      · next hf =>
        rw [if_neg hf]
        split at h
        · next hn => cases h; rw [if_pos hn]
        · next hn =>
          rw [if_neg hn]
          split at h
          · next hr => cases h; rw [if_pos hr]
          · next hr =>
            rw [if_neg hr]
            split at h
            · next ht => cases h; rw [if_pos ht]
            · cases h

theorem parseHex4_append {a b c d : UInt16} {rest : List UInt16} :
    parseHex4 (a :: b :: c :: d :: rest) = parseHex4 [a, b, c, d] := rfl

theorem advance_four {a b c d : UInt16} {ptr : List UInt16} :
    advance 4 (a :: b :: c :: d :: ptr) = .ok ptr := by
  rw [advance, if_pos (by simp)]
  rfl

theorem decodeEscape_hex {a b c d : UInt16} {u : Nat} {ptr : List UInt16}
    (hu : parseHex4 [a, b, c, d] = u) (hpos : 0 < u) (hlow : u < 0xD800) :
    decodeEscape (letterU :: a :: b :: c :: d :: ptr) = .ok (transcode u, ptr) := by
  change decodeHex (a :: b :: c :: d :: ptr) = _
  rw [decodeHex, advance_four, parseHex4_append, hu]
  change (if 0xDC00 ≤ u ∧ u ≤ 0xDFFF ∨ u = 0 then _ else _) = _
  rw [if_neg (by omega), if_neg (by omega)]
  rfl

theorem decodeString_plain {c : UInt16} {ptr : List UInt16} {k : Nat} (hquote : c ≠ quoteMark)
    (hback : c ≠ backslash) : decodeString (k + 1) (c :: ptr) = (do
      let (out, ptr) ← decodeString k ptr
      return (c :: out, ptr)) := by
  rw [decodeString, if_neg hquote, if_neg hback]

theorem decodeString_quote {ptr : List UInt16} {k : Nat} :
    decodeString (k + 1) (quoteMark :: ptr) = .ok ([], quoteMark :: ptr) := rfl

theorem decodeString_escape {ptr : List UInt16} {k : Nat} :
    decodeString (k + 1) (backslash :: ptr) = (do
      let (written, ptr) ← decodeEscape ptr
      let (out, ptr) ← decodeString k ptr
      return (written ++ out, ptr)) := by
  rw [decodeString, if_neg (by decide), if_pos rfl]

theorem SpellsUnits.decode {t s : List UInt16} (h : SpellsUnits t s) (rest : List UInt16) {k : Nat}
    (hk : t.length < k) :
    decodeString k (t ++ quoteMark :: rest) = .ok (s, quoteMark :: rest) := by
  induction h generalizing k with
  | nil =>
    cases k with
    | zero => cases hk
    | succ k => rfl
  | plain hquote hback h ih =>
    cases k with
    | zero => cases hk
    | succ k =>
      rw [List.cons_append, decodeString_plain hquote hback, ih (Nat.lt_of_succ_lt_succ hk)]
      rfl
  | short he h ih =>
    cases k with
    | zero => cases hk
    | succ k =>
      simp only [List.length_cons] at hk
      rw [List.cons_append, List.cons_append, decodeString_escape, decodeEscape_short he]
      change (decodeString k _ >>= _) = _
      rw [ih (by omega)]
      rfl
  | @hex a b c d u t s hu hpos hascii h ih =>
    cases k with
    | zero => cases hk
    | succ k =>
      simp only [List.length_cons] at hk
      simp only [List.cons_append]
      rw [decodeString_escape, decodeEscape_hex hu hpos (by omega)]
      change (decodeString k _ >>= _) = _
      rw [ih (by omega), transcode, if_pos hascii]
      rfl

theorem cStr_units (s : TText) : cStr s.units = s := by
  have h : s.units.takeWhile (· ≠ 0) = s.units :=
    List.takeWhile_eq_self_iff.mpr fun c hc => decide_eq_true fun h0 => s.no_nul (h0 ▸ hc)
  rw [cStr]
  simp only [h]

theorem SpellsUnits.parse {t : List UInt16} {s : TText} (h : SpellsUnits t s.units)
    (rest : List UInt16) :
    parseString (quoteMark :: (t ++ quoteMark :: rest)) = .ok (s, rest) := by
  have ⟨len, hscan, hle⟩ := h.scan rest
  have hlength : t.length < (t ++ quoteMark :: rest).length := by
    rw [List.length_append, List.length_cons]
    omega
  rw [parseString, if_pos rfl, hscan]
  change (decodeString _ _ >>= _) = _
  rw [h.decode rest hlength]
  change (if len < s.units.length then _ else _) = _
  rw [if_neg (Nat.not_lt.mpr hle)]
  change Except.ok (cStr s.units, rest) = _
  rw [cStr_units]

/-! ## 5. What `parse_number` makes of a number -/

namespace NumberText

variable {D : Type}

/-- `n` in front of the point. -/
def whole (A : Doubles D) (n : NumberText) : D :=
  if n.integer = [0x30] then A.ofInt 0 else A.digits (A.ofInt 0) n.integer

/-- `subscale*signsubscale` -/
def exponentValue (n : NumberText) : Int32 :=
  match n.exponent with
  | none => 0
  | some e => e.digits.foldl (fun subscale c => subscale * 10 + Int32.ofInt (digit c)) 0 *
      (if e.sign = [minus] then -1 else 1)

/-- The number as `parse_number` works it out. -/
def parsed (A : Doubles D) (n : NumberText) : D :=
  let sign := A.ofInt (if n.negative then -1 else 1)
  let scale := n.fraction.foldl (fun scale _ => A.sub scale (A.ofInt 1)) (A.ofInt 0)
  A.mul (A.mul sign (A.digits (n.whole A) n.fraction))
    (A.pow (A.ofInt 10) (A.add scale (A.ofInt n.exponentValue.toInt)))

/-- `d` is what `parse_number` takes the text for. -/
def Parsed (A : Doubles D) (n : NumberText) (d : D) : Prop := d = n.parsed A

end NumberText

/-- Where a number ends. -/
def StopsNumber (rest : List UInt16) : Prop :=
  ∀ c, rest.head? = some c → isDigit c = false ∧ c ≠ point ∧ c ≠ 0x65 ∧ c ≠ 0x45

theorem takeWhile_digits {ds rest : List UInt16} (hds : ds.all isDigit = true)
    (hrest : ∀ c, rest.head? = some c → isDigit c = false) :
    (ds ++ rest).takeWhile isDigit = ds ∧ (ds ++ rest).dropWhile isDigit = rest := by
  have hall : ∀ c ∈ ds, isDigit c = true := List.all_eq_true.mp hds
  have hnone : rest.takeWhile isDigit = [] ∧ rest.dropWhile isDigit = rest := by
    cases rest with
    | nil => exact ⟨rfl, rfl⟩
    | cons c rest =>
      have hc := hrest c rfl
      exact ⟨List.takeWhile_cons_of_neg (by simp [hc]), List.dropWhile_cons_of_neg (by simp [hc])⟩
  rw [List.takeWhile_append_of_pos hall, List.dropWhile_append_of_pos hall, hnone.1, hnone.2,
    List.append_nil]
  exact ⟨rfl, rfl⟩

variable {D : Type} {A : Doubles D}

namespace NumberText

variable {n : NumberText} {rest : List UInt16}

theorem exponentText_head (hn : n.WellFormed) (hrest : StopsNumber rest) :
    ∀ c, (n.exponentText ++ rest).head? = some c → isDigit c = false ∧ c ≠ point := by
  intro c hc
  rw [exponentText] at hc
  cases he : n.exponent with
  | none =>
    rw [he] at hc
    exact ⟨(hrest c hc).1, (hrest c hc).2.1⟩
  | some e =>
    rw [he] at hc
    have hletter := (hn.exponent e he).1
    obtain rfl : e.letter = c := Option.some.inj hc
    rcases hletter with h | h <;> rw [h] <;> exact ⟨rfl, by decide⟩

theorem fractionText_head (hn : n.WellFormed) (hrest : StopsNumber rest) :
    ∀ c, (n.fractionText ++ (n.exponentText ++ rest)).head? = some c → isDigit c = false := by
  intro c hc
  rw [fractionText] at hc
  cases hf : n.fraction with
  | nil =>
    rw [hf] at hc
    exact (exponentText_head hn hrest c hc).1
  | cons d ds =>
    rw [hf] at hc
    obtain rfl : point = c := Option.some.inj hc
    rfl

theorem readSign_text (hn : n.WellFormed) :
    readSign A (n.text ++ rest) = (A.ofInt (if n.negative then -1 else 1),
      n.integer ++ (n.fractionText ++ (n.exponentText ++ rest))) := by
  rw [text, signText, List.append_assoc, List.append_assoc, List.append_assoc]
  cases n.negative with
  | true => rfl
  | false =>
    rcases hn.integer with h | ⟨c, ds, h, hc, -⟩
    · rw [h]
      rfl
    · have hne : c ≠ minus := fun heq => by
        rw [heq] at hc
        cases hc
      rw [h]
      change (if c = minus then _ else _) = _
      rw [if_neg hne]
      rfl

theorem readInteger_zero {num : List UInt16}
    (hhead : ∀ c, num.head? = some c → isDigit c = false) :
    readInteger A (0x30 :: num) = (A.ofInt 0, num) := by
  cases num with
  | nil => rfl
  | cons c num =>
    have hnot : isDigit c = false := hhead c rfl
    have hnine : (0x31 ≤ c && c ≤ 0x39) = false := by
      rw [isDigit, Bool.and_eq_false_iff] at hnot
      rw [Bool.and_eq_false_iff]
      rcases hnot with hlow | hhigh
      · left
        rw [decide_eq_false_iff_not, UInt16.le_iff_toNat_le] at hlow ⊢
        change ¬ 0x30 ≤ c.toNat at hlow
        change ¬ 0x31 ≤ c.toNat
        omega
      · exact .inr hhigh
    change (if (0x31 ≤ c && c ≤ 0x39) = true then _ else _) = _
    rw [hnine]
    rfl

theorem WellFormed.integer_digits (hn : n.WellFormed) : n.integer.all isDigit = true := by
  rcases hn.integer with h | ⟨c, ds, h, hc, hds⟩
  · rw [h]
    rfl
  · rw [Bool.and_eq_true_iff, decide_eq_true_iff, decide_eq_true_iff] at hc
    have hlow : (0x30 : UInt16) ≤ c := by
      rw [UInt16.le_iff_toNat_le]
      exact Nat.le_trans (by decide) (UInt16.le_iff_toNat_le.mp hc.1)
    rw [h, List.all_cons, hds, isDigit, decide_eq_true hlow, decide_eq_true hc.2]
    rfl

theorem readInteger_text (hn : n.WellFormed) (hrest : StopsNumber rest) :
    readInteger A (n.integer ++ (n.fractionText ++ (n.exponentText ++ rest))) =
      (n.whole A, n.fractionText ++ (n.exponentText ++ rest)) := by
  have hhead := fractionText_head hn hrest
  rcases hn.integer with h | ⟨c, ds, h, hc, hds⟩
  · rw [h, whole, if_pos h]
    exact readInteger_zero hhead
  · have hzero : c ≠ 0x30 := fun heq => by
      rw [heq] at hc
      cases hc
    obtain ⟨htake, hdrop⟩ := takeWhile_digits hn.integer_digits hhead
    have hlong : n.integer ≠ [0x30] := fun heq => hzero (by
      rw [h] at heq
      exact (List.cons.inj heq).1)
    rw [whole, if_neg hlong, readInteger, h]
    rw [h] at htake hdrop
    simp only [List.cons_append, List.head?_cons, Option.some.injEq, if_neg hzero, hc, if_true]
    simp only [List.cons_append] at htake hdrop
    rw [htake, hdrop]

theorem readFraction_text (hn : n.WellFormed) (hrest : StopsNumber rest) (m : D) :
    readFraction A m (n.fractionText ++ (n.exponentText ++ rest)) =
      ((A.digits m n.fraction,
        n.fraction.foldl (fun scale _ => A.sub scale (A.ofInt 1)) (A.ofInt 0)),
        n.exponentText ++ rest) := by
  have hhead := exponentText_head hn hrest
  rw [fractionText]
  cases hf : n.fraction with
  | nil =>
    change readFraction A m (n.exponentText ++ rest) = ((m, A.ofInt 0), n.exponentText ++ rest)
    cases hr : n.exponentText ++ rest with
    | nil => rfl
    | cons c r =>
      have hpoint : c ≠ point := (hhead c (by rw [hr]; rfl)).2
      cases r with
      | nil => rfl
      | cons d r =>
        rw [readFraction]
        simp only [hpoint, decide_false, Bool.false_and]
        rfl
  | cons d ds =>
    have hall := hn.fraction
    rw [hf] at hall
    have hd : isDigit d = true := by
      rw [List.all_cons, Bool.and_eq_true_iff] at hall
      exact hall.1
    have ⟨htake, hdrop⟩ := takeWhile_digits hall fun c hc => (hhead c hc).1
    change readFraction A m (point :: d :: (ds ++ (n.exponentText ++ rest))) = _
    rw [readFraction]
    rw [List.cons_append] at htake hdrop
    simp only [decide_true, hd, Bool.and_self, if_true, htake, hdrop]

theorem readExponentSign_text {sign digits : List UInt16}
    (hsign : sign = [] ∨ sign = [0x2B] ∨ sign = [minus]) (hne : digits ≠ [])
    (hall : digits.all isDigit = true) :
    readExponentSign (sign ++ (digits ++ rest)) =
      (if sign = [minus] then -1 else 1, digits ++ rest) := by
  rcases hsign with h | h | h
  · cases digits with
    | nil => exact absurd rfl hne
    | cons d ds =>
      rw [List.all_cons, Bool.and_eq_true_iff] at hall
      have hplus : d ≠ 0x2B := fun heq => by
        rw [heq] at hall
        cases hall.1
      have hminus : d ≠ minus := fun heq => by
        rw [heq] at hall
        cases hall.1
      rw [h]
      change readExponentSign (d :: (ds ++ rest)) = _
      rw [readExponentSign, if_neg hplus, if_neg hminus]
      rfl
  · rw [h]
    rfl
  · rw [h]
    rfl

theorem readExponent_text (hn : n.WellFormed) (hrest : StopsNumber rest) :
    readExponent (n.exponentText ++ rest) = (n.exponentValue, rest) := by
  rw [exponentText, exponentValue]
  cases he : n.exponent with
  | none =>
    change readExponent rest = (0, rest)
    cases rest with
    | nil => rfl
    | cons c r =>
      have ⟨_, _, h1, h2⟩ := hrest c rfl
      simp only [readExponent, h1, h2, decide_false, Bool.or_self]
      rfl
  | some e =>
    have ⟨hletter, hsign, hne, hall⟩ := hn.exponent e he
    have ⟨htake, hdrop⟩ := takeWhile_digits hall fun c hc => (hrest c hc).1
    have hmark : (decide (e.letter = 0x65) || decide (e.letter = 0x45)) = true := by
      rcases hletter with h | h <;> rw [h] <;> rfl
    change readExponent (e.letter :: (e.sign ++ e.digits ++ rest)) = _
    simp only [readExponent, hmark, if_true]
    rw [List.append_assoc, readExponentSign_text hsign hne hall, htake, hdrop]

theorem WellFormed.parse (hn : n.WellFormed) (hrest : StopsNumber rest) :
    parseNumber A (n.text ++ rest) = (.number (A.toInt (n.parsed A)) (n.parsed A), rest) := by
  simp only [parseNumber, readSign_text hn, readInteger_text hn hrest, readFraction_text hn hrest,
    readExponent_text hn hrest]
  rfl

end NumberText

/-! ### Exact numbers -/

/-- Whole numbers up to `2 ^ 53` and what is computed with them are exact. -/
structure Doubles.Exact (A : Doubles D) : Prop where
  add : ∀ a b : Int, |a| ≤ 2 ^ 53 → |b| ≤ 2 ^ 53 → |a + b| ≤ 2 ^ 53 →
    A.add (A.ofInt a) (A.ofInt b) = A.ofInt (a + b)
  sub : ∀ a b : Int, |a| ≤ 2 ^ 53 → |b| ≤ 2 ^ 53 → |a - b| ≤ 2 ^ 53 →
    A.sub (A.ofInt a) (A.ofInt b) = A.ofInt (a - b)
  /-- A product that is null may be the negative one. -/
  mul : ∀ a b : Int, |a| ≤ 2 ^ 53 → |b| ≤ 2 ^ 53 → |a * b| ≤ 2 ^ 53 →
    a * b ≠ 0 ∨ 0 ≤ a ∧ 0 ≤ b → A.mul (A.ofInt a) (A.ofInt b) = A.ofInt (a * b)
  pow : A.pow (A.ofInt 10) (A.ofInt 0) = A.ofInt 1
  toInt : ∀ i : Int32, A.toInt (A.ofInt i.toInt) = i
  eq : ∀ a b : Int, |a| ≤ 2 ^ 53 → |b| ≤ 2 ^ 53 → A.eq (A.ofInt a) (A.ofInt b) = decide (a = b)
  le : ∀ a b : Int, |a| ≤ 2 ^ 53 → |b| ≤ 2 ^ 53 → A.le (A.ofInt a) (A.ofInt b) = decide (a ≤ b)
  fabs : A.fabs (A.ofInt 0) = A.ofInt 0
  epsilon : A.le (A.ofInt 0) A.DBL_EPSILON = true

theorem numeral_append (ds es : List UInt16) :
    numeral (ds ++ es) = numeral ds * 10 ^ es.length + numeral es := by
  rw [numeral, List.map_append, List.reverse_append, Nat.ofDigits_append, List.length_reverse,
    List.length_map, numeral, numeral]
  ring

theorem numeral_singleton (c : UInt16) : numeral [c] = c.toNat - 0x30 := by
  rw [numeral]
  exact Nat.ofDigits_singleton

theorem numeral_cons (c : UInt16) (ds : List UInt16) :
    numeral (c :: ds) = (c.toNat - 0x30) * 10 ^ ds.length + numeral ds := by
  rw [← numeral_singleton, ← numeral_append]
  rfl

theorem digit_eq {c : UInt16} (h : isDigit c = true) : digit c = (c.toNat - 0x30 : Nat) := by
  rw [isDigit, Bool.and_eq_true_iff, decide_eq_true_iff, decide_eq_true_iff,
    UInt16.le_iff_toNat_le] at h
  have hlow : 0x30 ≤ c.toNat := h.1
  rw [digit]
  omega

/-- The digits are read from the left: what is read so far is the number that they are. -/
theorem Doubles.Exact.digits (hexact : A.Exact) {ds : List UInt16} (hds : ds.all isDigit = true)
    {m : Nat} (hle : m * 10 ^ ds.length + numeral ds ≤ 2 ^ 53) :
    A.digits (A.ofInt m) ds = A.ofInt (m * 10 ^ ds.length + numeral ds : Nat) := by
  induction ds generalizing m with
  | nil =>
    change A.ofInt m = A.ofInt (m * 1 + 0 : Nat)
    rw [Nat.mul_one, Nat.add_zero]
  | cons c ds ih =>
    rw [List.all_cons, Bool.and_eq_true_iff] at hds
    have hstep : m * 10 ^ (c :: ds).length + numeral (c :: ds) =
        (m * 10 + (c.toNat - 0x30)) * 10 ^ ds.length + numeral ds := by
      rw [numeral_cons, List.length_cons, Nat.pow_succ]
      ring
    rw [hstep] at hle ⊢
    have hpos : 0 < 10 ^ ds.length := Nat.pow_pos (by decide)
    have hsmall : m * 10 + (c.toNat - 0x30) ≤ 2 ^ 53 :=
      Nat.le_trans (Nat.le_mul_of_pos_right _ hpos) (Nat.le_trans (Nat.le_add_right _ _) hle)
    have hmul := hexact.mul m 10 (by rw [abs_of_nonneg] <;> omega) (by decide)
      (by rw [abs_of_nonneg] <;> omega) (.inr ⟨Int.natCast_nonneg m, by decide⟩)
    have hadd := hexact.add (m * 10) (c.toNat - 0x30 : Nat) (by rw [abs_of_nonneg] <;> omega)
      (by rw [abs_of_nonneg] <;> omega) (by rw [abs_of_nonneg] <;> omega)
    change A.digits (A.add (A.mul (A.ofInt m) (A.ofInt 10)) (A.ofInt (digit c))) ds = _
    rw [digit_eq hds.1, hmul, hadd]
    exact ih hds.2 hle

/-- `scale` counts the digits behind the point. -/
theorem Doubles.Exact.scale (hexact : A.Exact) (ds : List UInt16) {m : Nat}
    (hle : m + ds.length ≤ 2 ^ 53) :
    ds.foldl (fun scale _ => A.sub scale (A.ofInt 1)) (A.ofInt (-m)) =
      A.ofInt (-(m + ds.length : Nat)) := by
  induction ds generalizing m with
  | nil => rfl
  | cons c ds ih =>
    rw [List.length_cons] at hle
    have hsub := hexact.sub (-m) 1 (by rw [abs_le]; omega) (by decide) (by rw [abs_le]; omega)
    rw [List.foldl_cons, hsub, show (-(m : Int) - 1) = -((m + 1 : Nat) : Int) by omega,
      ih (by omega), List.length_cons]
    congr 2
    omega

/-- `subscale` goes round with the number that the digits are. -/
theorem foldl_subscale {ds : List UInt16} (hds : ds.all isDigit = true) (m : Nat) :
    ds.foldl (fun subscale c => subscale * 10 + Int32.ofInt (digit c)) (Int32.ofInt m) =
      Int32.ofInt (m * 10 ^ ds.length + numeral ds : Nat) := by
  induction ds generalizing m with
  | nil =>
    change Int32.ofInt m = Int32.ofInt (m * 1 + 0 : Nat)
    rw [Nat.mul_one, Nat.add_zero]
  | cons c ds ih =>
    rw [List.all_cons, Bool.and_eq_true_iff] at hds
    have hnext : Int32.ofInt m * 10 + Int32.ofInt (digit c) =
        Int32.ofInt (m * 10 + (c.toNat - 0x30) : Nat) := by
      rw [digit_eq hds.1, show (10 : Int32) = Int32.ofInt 10 from rfl, ← Int32.ofInt_mul,
        ← Int32.ofInt_add]
      rfl
    rw [List.foldl_cons, hnext, ih hds.2, numeral_cons, List.length_cons, Nat.pow_succ]
    congr 2
    ring

namespace NumberText

variable {n : NumberText}

theorem whole_eq (hexact : A.Exact) (hn : n.WellFormed) (hle : numeral n.integer ≤ 2 ^ 53) :
    n.whole A = A.ofInt (numeral n.integer) := by
  rw [whole]
  split
  · next h =>
    rw [h]
    rfl
  · have hdigits := hexact.digits hn.integer_digits (m := 0) (by omega)
    rw [Nat.zero_mul, Nat.zero_add] at hdigits
    exact hdigits

theorem exponentValue_eq (hn : n.WellFormed) (hr : n.InRange) :
    n.exponentValue.toInt - n.fraction.length = n.power := by
  have hfraction := hr.fraction
  rw [exponentValue, power]
  cases he : n.exponent with
  | none =>
    simp only
    rw [Int32.toInt_zero]
    omega
  | some e =>
    have ⟨_, _, _, hall⟩ := hn.exponent e he
    have hlt := hr.exponent e he
    have hfold := foldl_subscale hall 0
    rw [Nat.zero_mul, Nat.zero_add] at hfold
    simp only
    rw [show (0 : Int32) = Int32.ofInt (0 : Nat) from rfl, hfold]
    split
    · rw [show (-1 : Int32) = Int32.ofInt (-1) from rfl, ← Int32.ofInt_mul,
        Int32.toInt_ofInt_of_le (by omega) (by omega)]
      omega
    · rw [show (1 : Int32) = Int32.ofInt 1 from rfl, ← Int32.ofInt_mul,
        Int32.toInt_ofInt_of_le (by omega) (by omega)]
      omega

/-- A number in range is taken for the one that is written. -/
theorem parsed_eq_value (hexact : A.Exact) (hn : n.WellFormed) (hr : n.InRange) :
    n.parsed A = n.value A := by
  have hmantissa := hr.mantissa
  have hfraction := hr.fraction
  rw [mantissa, numeral_append] at hmantissa
  have hpos : 0 < 10 ^ n.fraction.length := Nat.pow_pos (by decide)
  have hinteger : numeral n.integer ≤ 2 ^ 53 :=
    Nat.le_trans (Nat.le_mul_of_pos_right _ hpos) (Nat.le_trans (Nat.le_add_right _ _) hmantissa)
  have hdigits := hexact.digits hn.fraction hmantissa
  have hscale := hexact.scale n.fraction (m := 0) (by omega)
  rw [Nat.zero_add] at hscale
  have hpower := exponentValue_eq hn hr
  have hlow := Int32.le_toInt n.exponentValue
  have hhigh := Int32.toInt_lt n.exponentValue
  have hadd := hexact.add (-n.fraction.length) n.exponentValue.toInt (by rw [abs_le]; omega)
    (by rw [abs_le]; omega) (by rw [abs_le]; omega)
  rw [parsed, value, whole_eq hexact hn hinteger, hdigits, ← numeral_append]
  change A.mul _ (A.pow _ (A.add (n.fraction.foldl _ (A.ofInt (-(0 : Nat)))) _)) = _
  rw [hscale, hadd, show -(n.fraction.length : Int) + n.exponentValue.toInt = n.power by omega]
  rfl

theorem Denotes.parsed (hexact : A.Exact) {d : D} (hn : n.WellFormed) (h : n.Denotes A d) :
    n.Parsed A d :=
  h.2.trans (parsed_eq_value hexact hn h.1).symm

end NumberText

/-! ## 6. What `parse_value` makes of a value -/

theorem isDigit_le {c : UInt16} (h : isDigit c = true) : 0x30 ≤ c.toNat ∧ c.toNat ≤ 0x39 := by
  rw [isDigit, Bool.and_eq_true_iff, decide_eq_true_iff, decide_eq_true_iff,
    UInt16.le_iff_toNat_le, UInt16.le_iff_toNat_le] at h
  exact h

theorem isDigit_ne {c d : UInt16} (h : isDigit c = true) (hd : isDigit d = false) : c ≠ d :=
  fun heq => by
    rw [heq, hd] at h
    cases h

/-- A number begins with its sign or with a digit. -/
theorem NumberText.WellFormed.head {n : NumberText} (hn : n.WellFormed) :
    ∃ c t, n.text = c :: t ∧ (c = minus ∨ isDigit c = true) := by
  rw [NumberText.text, NumberText.signText]
  cases n.negative with
  | true => exact ⟨minus, _, rfl, .inl rfl⟩
  | false =>
    rcases hn.integer with h | ⟨c, ds, h, hc, -⟩
    · rw [h]
      exact ⟨0x30, _, rfl, .inr rfl⟩
    · rw [h]
      refine ⟨c, _, rfl, .inr ?_⟩
      rw [Bool.and_eq_true_iff, decide_eq_true_iff, decide_eq_true_iff] at hc
      rw [isDigit, Bool.and_eq_true_iff, decide_eq_true_iff, decide_eq_true_iff]
      refine ⟨?_, hc.2⟩
      have hlow := UInt16.le_iff_toNat_le.mp hc.1
      rw [UInt16.le_iff_toNat_le]
      change 0x31 ≤ c.toNat at hlow
      change 0x30 ≤ c.toNat
      omega

/-- What a value begins with. -/
theorem Spells.head {Number : NumberText → D → Prop} {Gap : List UInt16 → Prop} {v : JsonTree D}
    {t : List UInt16} (h : Spells A Number Gap v t) :
    ∃ c t', t = c :: t' ∧ 32 < c.toNat ∧ c ≠ closeBracket ∧ c ≠ closeBrace := by
  cases h with
  | null => exact ⟨_, _, rfl, by decide, by decide, by decide⟩
  | false => exact ⟨_, _, rfl, by decide, by decide, by decide⟩
  | true => exact ⟨_, _, rfl, by decide, by decide, by decide⟩
  | number hn _ =>
    have ⟨c, t', ht, hc⟩ := hn.head
    refine ⟨c, t', ht, ?_⟩
    rcases hc with rfl | hdigit
    · exact ⟨by decide, by decide, by decide⟩
    · have hle := isDigit_le hdigit
      exact ⟨by omega, isDigit_ne hdigit rfl, isDigit_ne hdigit rfl⟩
  | string h => exact ⟨_, _, rfl, by decide, by decide, by decide⟩
  | emptyArray hg => exact ⟨_, _, rfl, by decide, by decide, by decide⟩
  | array h => exact ⟨_, _, rfl, by decide, by decide, by decide⟩
  | emptyObject hg => exact ⟨_, _, rfl, by decide, by decide, by decide⟩
  | object h => exact ⟨_, _, rfl, by decide, by decide, by decide⟩

theorem isBlank_le {c : UInt16} (h : isBlank c = true) : c ≤ 32 := by
  simp only [isBlank, Bool.or_eq_true, decide_eq_true_iff] at h
  rcases h with ((rfl | rfl) | rfl) | rfl <;> decide

theorem skip_blanks {g x : List UInt16} (hg : Blanks g)
    (hx : ∀ c, x.head? = some c → 32 < c.toNat) : skip (g ++ x) = x := by
  have hall : ∀ c ∈ g, decide (c ≤ 32) = true := fun c hc =>
    decide_eq_true (isBlank_le (List.all_eq_true.mp hg c hc))
  rw [skip, List.dropWhile_append_of_pos hall]
  cases x with
  | nil => rfl
  | cons c x =>
    refine List.dropWhile_cons_of_neg fun hle => ?_
    have hnat : c.toNat ≤ 32 := UInt16.le_iff_toNat_le.mp (of_decide_eq_true hle)
    have hlt := hx c rfl
    omega

theorem skip_blanks_cons {g x : List UInt16} {c : UInt16} (hg : Blanks g) (hc : 32 < c.toNat) :
    skip (g ++ c :: x) = c :: x :=
  skip_blanks hg fun _ h => Option.some.inj h ▸ hc

theorem Spells.skip_gap {Number : NumberText → D → Prop} {Gap : List UInt16 → Prop}
    {v : JsonTree D} {g t rest : List UInt16} (h : Spells A Number Gap v t) (hg : Blanks g) : skip (g ++ (t ++ rest)) = t ++ rest := by
  have ⟨c, t', ht, hc, _⟩ := h.head
  rw [ht]
  exact skip_blanks_cons hg hc

/-- A blank, a comma, a bracket or a brace ends a number. -/
theorem stopsNumber_blanks {g x : List UInt16} {c : UInt16} (hg : Blanks g)
    (hc : c = comma ∨ c = closeBracket ∨ c = closeBrace) : StopsNumber (g ++ c :: x) := by
  intro d hd
  cases g with
  | nil =>
    obtain rfl : c = d := Option.some.inj hd
    rcases hc with rfl | rfl | rfl <;> exact ⟨rfl, by decide, by decide, by decide⟩
  | cons b g =>
    obtain rfl : b = d := Option.some.inj hd
    rw [Blanks, List.all_cons, Bool.and_eq_true_iff] at hg
    simp only [isBlank, Bool.or_eq_true, decide_eq_true_iff] at hg
    rcases hg.1 with ((rfl | rfl) | rfl) | rfl <;> exact ⟨rfl, by decide, by decide, by decide⟩

theorem stopsNumber_end {g : List UInt16} (hg : Blanks g) : StopsNumber g := by
  intro d hd
  cases g with
  | nil => cases hd
  | cons b g =>
    obtain rfl : b = d := Option.some.inj hd
    rw [Blanks, List.all_cons, Bool.and_eq_true_iff] at hg
    simp only [isBlank, Bool.or_eq_true, decide_eq_true_iff] at hg
    rcases hg.1 with ((rfl | rfl) | rfl) | rfl <;> exact ⟨rfl, by decide, by decide, by decide⟩

theorem parseValue_number {c : UInt16} {rest : List UInt16} (k : Nat)
    (hc : c = minus ∨ isDigit c = true) :
    parseValue A (k + 1) (c :: rest) = .ok (parseNumber A (c :: rest)) := by
  rcases hc with rfl | hdigit
  · rfl
  · have hno : ∀ d w, isDigit d = false → (d :: w).isPrefixOf (c :: rest) = false := by
      intro d w hd
      rw [List.isPrefixOf, beq_eq_false_iff_ne.mpr (isDigit_ne hdigit hd).symm, Bool.false_and]
    have hnull : (lit "null").isPrefixOf (c :: rest) = false := hno _ _ rfl
    have hfalse : (lit "false").isPrefixOf (c :: rest) = false := hno _ _ rfl
    have htrue : (lit "true").isPrefixOf (c :: rest) = false := hno _ _ rfl
    rw [parseValue, hnull, hfalse, htrue]
    change (if c = quoteMark then _ else if (decide (c = minus) || isDigit c) = true then _ else _)
      = _
    rw [if_neg (isDigit_ne hdigit rfl), hdigit, Bool.or_true, if_pos rfl]

theorem parseValue_string (k : Nat) (rest : List UInt16) :
    parseValue A (k + 1) (quoteMark :: rest) = (do
      let (valuestring, rest) ← parseString (quoteMark :: rest)
      return (.string valuestring, rest)) := rfl

theorem parseValue_array (k : Nat) (rest : List UInt16) :
    parseValue A (k + 1) (openBracket :: rest) =
      if (skip rest).head? = some closeBracket then .ok (.array [], (skip rest).tail)
      else do
        let (child, rest) ← parseElements A k (skip rest)
        return (.array child, rest) := rfl

theorem parseValue_object (k : Nat) (rest : List UInt16) :
    parseValue A (k + 1) (openBrace :: rest) =
      if (skip rest).head? = some closeBrace then .ok (.object [], (skip rest).tail)
      else do
        let (child, rest) ← parseMembers A k (skip rest)
        return (.object child, rest) := rfl

/-- A loop begins by skipping blanks. -/
theorem skip_skip (t : List UInt16) : skip (skip t) = skip t := by
  rw [skip, skip]
  exact List.dropWhile_idempotent _ _

theorem parseElements_skip (k : Nat) (t : List UInt16) :
    parseElements A k (skip t) = parseElements A k t := by
  cases k with
  | zero => rfl
  | succ k => rw [parseElements, parseElements, skip_skip]

theorem parseMembers_skip (k : Nat) (t : List UInt16) :
    parseMembers A k (skip t) = parseMembers A k t := by
  cases k with
  | zero => rfl
  | succ k =>
    rw [parseMembers, parseMembers]
    cases k with
    | zero => rfl
    | succ k => rw [parseMember, parseMember, skip_skip]

theorem SpellsElements.head {vs : List (JsonTree D)} {ts rest : List UInt16}
    (h : SpellsElements A (NumberText.Parsed A) Blanks vs ts) : (skip (ts ++ rest)).head? ≠ some closeBracket := by
  cases h with
  | last hg h hg' =>
    have ⟨c, t', ht, _, hc, _⟩ := h.head
    rw [List.append_assoc, List.append_assoc, h.skip_gap hg, ht]
    exact fun heq => hc (Option.some.inj heq)
  | more hg h hg' hs =>
    have ⟨c, t', ht, _, hc, _⟩ := h.head
    rw [List.append_assoc, List.append_assoc, h.skip_gap hg, ht]
    exact fun heq => hc (Option.some.inj heq)

theorem SpellsMember.skip_gap {m : TText × JsonTree D} {t : List UInt16}
    (h : SpellsMember A (NumberText.Parsed A) Blanks m t) (rest : List UInt16) :
    ∃ t', skip (t ++ rest) = quoteMark :: t' := by
  cases h with
  | @mk string v g k g₁ g₂ t hg hk hg₁ hg₂ h =>
    rw [List.append_assoc, List.cons_append]
    exact ⟨_, skip_blanks_cons hg (by decide)⟩

theorem SpellsMembers.head {ms : List (TText × JsonTree D)} {ts rest : List UInt16}
    (h : SpellsMembers A (NumberText.Parsed A) Blanks ms ts) : (skip (ts ++ rest)).head? ≠ some closeBrace := by
  cases h with
  | @last m t g' h hg' =>
    have ⟨t', ht⟩ := h.skip_gap (g' ++ [closeBrace] ++ rest)
    rw [List.append_assoc, ht]
    exact fun heq => absurd (Option.some.inj heq) (by decide)
  | @more m ms t g' ts h hg' hs =>
    have ⟨t', ht⟩ := h.skip_gap (g' ++ comma :: ts ++ rest)
    rw [List.append_assoc, ht]
    exact fun heq => absurd (Option.some.inj heq) (by decide)

mutual

/-- A text of the grammar, with two steps for each of its units, is parsed as what it spells. -/
theorem Spells.parse {v : JsonTree D} {t : List UInt16} (h : Spells A (NumberText.Parsed A) Blanks v t) {k : Nat}
    {rest : List UInt16} (hk : 2 * t.length < k) (hrest : StopsNumber rest) :
    parseValue A k (t ++ rest) = .ok (v, rest) := by
  cases k with
  | zero => cases hk
  | succ k =>
    match h with
    | .null => rfl
    | .false => rfl
    | .true => rfl
    | @Spells.number _ _ _ _ n d hn hd =>
      subst hd
      have ⟨c, t', ht, hc⟩ := hn.head
      have hparse := hn.parse (A := A) hrest
      rw [ht, List.cons_append] at hparse ⊢
      rw [parseValue_number k hc, hparse]
    | .string h =>
      rw [List.cons_append, List.append_assoc, parseValue_string]
      change (parseString (quoteMark :: (_ ++ quoteMark :: rest)) >>= _) = _
      rw [h.parse rest]
      rfl
    | @Spells.emptyArray _ _ _ _ g hg =>
      have hskip : skip (g ++ [closeBracket] ++ rest) = closeBracket :: rest := by
        rw [List.append_assoc]
        exact skip_blanks_cons hg (by decide)
      rw [List.cons_append, parseValue_array, hskip]
      rfl
    | .array h =>
      rw [List.length_cons] at hk
      rw [List.cons_append, parseValue_array, if_neg h.head, parseElements_skip,
        h.parse (by omega)]
      rfl
    | @Spells.emptyObject _ _ _ _ g hg =>
      have hskip : skip (g ++ [closeBrace] ++ rest) = closeBrace :: rest := by
        rw [List.append_assoc]
        exact skip_blanks_cons hg (by decide)
      rw [List.cons_append, parseValue_object, hskip]
      rfl
    | .object h =>
      rw [List.length_cons] at hk
      rw [List.cons_append, parseValue_object, if_neg h.head, parseMembers_skip,
        h.parse (by omega)]
      rfl

theorem SpellsElements.parse {vs : List (JsonTree D)} {ts : List UInt16}
    (h : SpellsElements A (NumberText.Parsed A) Blanks vs ts) {k : Nat} {rest : List UInt16}
    (hk : 2 * ts.length < k + 1) : parseElements A k (ts ++ rest) = .ok (vs, rest) := by
  cases k with
  | zero =>
    cases h with
    | last hg h hg' => simp only [List.length_append, List.length_cons] at hk; omega
    | more hg h hg' hs => simp only [List.length_append, List.length_cons] at hk; omega
  | succ k =>
    match h with
    | @SpellsElements.last _ _ _ _ v g t g' hg h hg' =>
      simp only [List.length_append, List.length_cons] at hk
      have hvalue : parseValue A k (t ++ (g' ++ closeBracket :: rest)) =
          .ok (v, g' ++ closeBracket :: rest) :=
        h.parse (by omega) (stopsNumber_blanks hg' (.inr (.inl rfl)))
      rw [parseElements, List.append_assoc, List.append_assoc, List.append_assoc, h.skip_gap hg]
      change (parseValue A k (t ++ (g' ++ closeBracket :: rest)) >>= _) = _
      rw [hvalue]
      change (match skip (g' ++ closeBracket :: rest) with | [] => _ | c :: value => _) = _
      rw [skip_blanks_cons hg' (by decide)]
      rfl
    | @SpellsElements.more _ _ _ _ v vs g t g' ts hg h hg' hs =>
      simp only [List.length_append, List.length_cons] at hk
      have hvalue : parseValue A k (t ++ (g' ++ comma :: (ts ++ rest))) =
          .ok (v, g' ++ comma :: (ts ++ rest)) :=
        h.parse (by omega) (stopsNumber_blanks hg' (.inl rfl))
      rw [parseElements, List.append_assoc, List.append_assoc, List.append_assoc, h.skip_gap hg]
      change (parseValue A k (t ++ (g' ++ comma :: (ts ++ rest))) >>= _) = _
      rw [hvalue]
      change (match skip (g' ++ comma :: (ts ++ rest)) with | [] => _ | c :: value => _) = _
      rw [skip_blanks_cons hg' (by decide)]
      change (parseElements A k (ts ++ rest) >>= _) = _
      rw [hs.parse (by omega)]
      rfl

theorem SpellsMembers.parse {ms : List (TText × JsonTree D)} {ts : List UInt16}
    (h : SpellsMembers A (NumberText.Parsed A) Blanks ms ts) {k : Nat} {rest : List UInt16}
    (hk : 2 * ts.length < k + 1) : parseMembers A k (ts ++ rest) = .ok (ms, rest) := by
  cases k with
  | zero =>
    cases h with
    | last h hg' => simp only [List.length_append, List.length_cons] at hk; omega
    | more h hg' hs => simp only [List.length_append, List.length_cons] at hk; omega
  | succ k =>
    match h with
    | @SpellsMembers.last _ _ _ _ m t g' h hg' =>
      simp only [List.length_append, List.length_cons] at hk
      have hmember : parseMember A k (t ++ (g' ++ closeBrace :: rest)) =
          .ok (m, g' ++ closeBrace :: rest) :=
        h.parse (by omega) (stopsNumber_blanks hg' (.inr (.inr rfl)))
      rw [parseMembers, List.append_assoc, List.append_assoc]
      change (parseMember A k (t ++ (g' ++ closeBrace :: rest)) >>= _) = _
      rw [hmember]
      change (match skip (g' ++ closeBrace :: rest) with | [] => _ | c :: value => _) = _
      rw [skip_blanks_cons hg' (by decide)]
      rfl
    | @SpellsMembers.more _ _ _ _ m ms t g' ts h hg' hs =>
      simp only [List.length_append, List.length_cons] at hk
      have hmember : parseMember A k (t ++ (g' ++ comma :: (ts ++ rest))) =
          .ok (m, g' ++ comma :: (ts ++ rest)) :=
        h.parse (by omega) (stopsNumber_blanks hg' (.inl rfl))
      rw [parseMembers, List.append_assoc, List.append_assoc]
      change (parseMember A k (t ++ (g' ++ comma :: (ts ++ rest))) >>= _) = _
      rw [hmember]
      change (match skip (g' ++ comma :: (ts ++ rest)) with | [] => _ | c :: value => _) = _
      rw [skip_blanks_cons hg' (by decide)]
      change (parseMembers A k (ts ++ rest) >>= _) = _
      rw [hs.parse (by omega)]
      rfl

theorem SpellsMember.parse {m : TText × JsonTree D} {t : List UInt16}
    (h : SpellsMember A (NumberText.Parsed A) Blanks m t) {k : Nat} {rest : List UInt16} (hk : 2 * t.length < k + 3)
    (hrest : StopsNumber rest) : parseMember A k (t ++ rest) = .ok (m, rest) := by
  match h with
  | @SpellsMember.mk _ _ _ _ string v g name g₁ g₂ t hg hname hg₁ hg₂ h =>
    simp only [List.length_append, List.length_cons] at hk
    cases k with
    | zero => omega
    | succ k =>
      have hskip : skip (g ++ (quoteMark :: (name ++ (quoteMark :: (g₁ ++ (colon :: (g₂ ++ t)))))) ++
          rest) = quoteMark :: (name ++ quoteMark :: (g₁ ++ colon :: (g₂ ++ (t ++ rest)))) := by
        simp only [List.append_assoc, List.cons_append]
        exact skip_blanks_cons hg (by decide)
      rw [parseMember, hskip, hname.parse]
      change (match skip (g₁ ++ colon :: (g₂ ++ (t ++ rest))) with | [] => _ | c :: value => _) = _
      rw [skip_blanks_cons hg₁ (by decide)]
      change (parseValue A k (skip (g₂ ++ (t ++ rest))) >>= _) = _
      rw [h.skip_gap hg₂, h.parse (by omega) hrest]
      rfl

end

/-- `cJSON_Parse` takes every JSON text for what it spells. -/
theorem parse_spells {v : JsonTree D} {value : TText} (h : SpellsText A (NumberText.Parsed A) Blanks v value.units)
    (require_null_terminated : Bool) : ∃ end_, parseWithOpts A value require_null_terminated =
      .ok (v, end_) ∧ Blanks end_ := by
  have ⟨g, t, g', hg, h, hg', htext⟩ := h
  have hlength : 2 * t.length < 2 * value.units.length + 1 := by
    rw [htext, List.length_append, List.length_append]
    omega
  have hvalue : parseValue A (2 * value.units.length + 1) (skip value.units) = .ok (v, g') := by
    rw [htext, h.skip_gap hg, ← htext]
    exact h.parse hlength (stopsNumber_end hg')
  have hskip : skip g' = [] := by
    have hall := skip_blanks hg' (x := []) nofun
    rwa [List.append_nil] at hall
  rw [parseWithOpts, hvalue]
  cases require_null_terminated with
  | true =>
    change ∃ end_, (if skip g' = [] then _ else _) = _ ∧ Blanks end_
    rw [if_pos hskip]
    exact ⟨[], rfl, rfl⟩
  | false => exact ⟨g', rfl, hg'⟩

/-! ## 7. What stands in a text, and what may stand between its tokens -/

theorem zero_not_mem_blanks {g : List UInt16} (h : Blanks g) : 0 ∉ g :=
  fun hmem => absurd (List.all_eq_true.mp h 0 hmem) (by decide)

theorem SpellsUnits.no_nul {t s : List UInt16} (h : SpellsUnits t s) (hs : 0 ∉ s) : 0 ∉ t := by
  induction h with
  | nil => exact List.not_mem_nil
  | plain hquote hback h ih =>
    rw [List.mem_cons, not_or] at hs ⊢
    exact ⟨hs.1, ih hs.2⟩
  | @short e c t s he h ih =>
    have hne : 0 ≠ e := fun heq => by
      rw [← heq] at he
      cases he
    rw [List.mem_cons, not_or] at hs
    rw [List.mem_cons, List.mem_cons, not_or, not_or]
    exact ⟨by decide, hne, ih hs.2⟩
  | @hex a b c d u t s hu hpos hascii h ih =>
    rw [List.mem_cons, not_or] at hs
    have ⟨w, x, y, z, ha, hb, hc, hd⟩ := parseHex4_digits (hu ▸ Nat.pos_iff_ne_zero.mp hpos)
    have hne : ∀ {e : UInt16} {n : Nat}, hexDigit e = some n → 0 ≠ e := fun he heq => by
      rw [← heq] at he
      cases he
    simp only [List.mem_cons, not_or]
    exact ⟨by decide, by decide, hne ha, hne hb, hne hc, hne hd, ih hs.2⟩

/-- What a number consists of. -/
theorem NumberText.WellFormed.units {n : NumberText} (hn : n.WellFormed) :
    ∀ c ∈ n.text, isDigit c = true ∨ c = minus ∨ c = point ∨ c = 0x2B ∨ c = 0x65 ∨ c = 0x45 := by
  have hdigits : ∀ {ds : List UInt16} {c}, ds.all isDigit = true → c ∈ ds → isDigit c = true :=
    fun h hc => List.all_eq_true.mp h _ hc
  intro c hc
  simp only [text, List.mem_append] at hc
  rcases hc with hsign | hinteger | hfraction | hexponent
  · rw [signText] at hsign
    split at hsign
    · exact .inr (.inl (List.mem_singleton.mp hsign))
    · cases hsign
  · rcases hn.integer with h | ⟨d, ds, h, hd, hds⟩
    · rw [h, List.mem_singleton] at hinteger
      exact .inl (hinteger ▸ rfl)
    · rw [h, List.mem_cons] at hinteger
      rcases hinteger with rfl | hmem
      · rw [Bool.and_eq_true_iff, decide_eq_true_iff, decide_eq_true_iff,
          UInt16.le_iff_toNat_le] at hd
        refine .inl (Bool.and_eq_true_iff.mpr ⟨decide_eq_true ?_, decide_eq_true hd.2⟩)
        rw [UInt16.le_iff_toNat_le]
        exact Nat.le_trans (by decide) hd.1
      · exact .inl (hdigits hds hmem)
  · rw [fractionText] at hfraction
    split at hfraction
    · cases hfraction
    · next d ds h =>
      rcases List.mem_cons.mp hfraction with rfl | hmem
      · exact .inr (.inr (.inl rfl))
      · exact .inl (hdigits hn.fraction (h ▸ hmem))
  · rw [exponentText] at hexponent
    cases he : n.exponent with
    | none =>
      rw [he] at hexponent
      cases hexponent
    | some e =>
      rw [he] at hexponent
      obtain ⟨hletter, hsign, _, hall⟩ := hn.exponent e he
      rw [List.mem_cons, List.mem_append] at hexponent
      rcases hexponent with rfl | hmem | hmem
      · exact .inr (.inr (.inr (.inr hletter)))
      · rcases hsign with h | h | h
        · rw [h] at hmem
          cases hmem
        · rw [h, List.mem_singleton] at hmem
          exact .inr (.inr (.inr (.inl hmem)))
        · rw [h, List.mem_singleton] at hmem
          exact .inr (.inl hmem)
      · exact .inl (hdigits hall hmem)

theorem NumberText.WellFormed.no_nul {n : NumberText} (hn : n.WellFormed) : 0 ∉ n.text := by
  intro hmem
  rcases hn.units 0 hmem with h | h | h | h | h | h
  · exact absurd h (by decide)
  · exact absurd h (by decide)
  · exact absurd h (by decide)
  · exact absurd h (by decide)
  · exact absurd h (by decide)
  · exact absurd h (by decide)

section NoNul

variable {Number : NumberText → D → Prop} {Gap : List UInt16 → Prop} (hgap : ∀ g, Gap g → 0 ∉ g)

include hgap

mutual

theorem Spells.no_nul {v : JsonTree D} {t : List UInt16} (h : Spells A Number Gap v t) : 0 ∉ t := by
  match h with
  | .null => decide
  | .false => decide
  | .true => decide
  | .number hn _ => exact hn.no_nul
  | @Spells.string _ _ _ _ s t h =>
    simp only [List.mem_cons, List.mem_append, not_or]
    exact ⟨by decide, h.no_nul s.no_nul, by decide, List.not_mem_nil⟩
  | .emptyArray hg =>
    simp only [List.mem_cons, List.mem_append, not_or]
    exact ⟨by decide, hgap _ hg, by decide, List.not_mem_nil⟩
  | .array h =>
    rw [List.mem_cons, not_or]
    exact ⟨by decide, SpellsElements.no_nul h⟩
  | .emptyObject hg =>
    simp only [List.mem_cons, List.mem_append, not_or]
    exact ⟨by decide, hgap _ hg, by decide, List.not_mem_nil⟩
  | .object h =>
    rw [List.mem_cons, not_or]
    exact ⟨by decide, SpellsMembers.no_nul h⟩

theorem SpellsElements.no_nul {vs : List (JsonTree D)} {t : List UInt16}
    (h : SpellsElements A Number Gap vs t) : 0 ∉ t := by
  match h with
  | .last hg h hg' =>
    simp only [List.mem_cons, List.mem_append, not_or]
    exact ⟨hgap _ hg, Spells.no_nul h, hgap _ hg', by decide, List.not_mem_nil⟩
  | .more hg h hg' hs =>
    simp only [List.mem_cons, List.mem_append, not_or]
    exact ⟨hgap _ hg, Spells.no_nul h, hgap _ hg', by decide, SpellsElements.no_nul hs⟩

theorem SpellsMembers.no_nul {ms : List (TText × JsonTree D)} {t : List UInt16}
    (h : SpellsMembers A Number Gap ms t) : 0 ∉ t := by
  match h with
  | .last h hg' =>
    simp only [List.mem_cons, List.mem_append, not_or]
    exact ⟨SpellsMember.no_nul h, hgap _ hg', by decide, List.not_mem_nil⟩
  | .more h hg' hs =>
    simp only [List.mem_cons, List.mem_append, not_or]
    exact ⟨SpellsMember.no_nul h, hgap _ hg', by decide, SpellsMembers.no_nul hs⟩

theorem SpellsMember.no_nul {m : TText × JsonTree D} {t : List UInt16}
    (h : SpellsMember A Number Gap m t) : 0 ∉ t := by
  match h with
  | @SpellsMember.mk _ _ _ _ string v g k g₁ g₂ t hg hk hg₁ hg₂ h =>
    simp only [List.mem_cons, List.mem_append, not_or]
    exact ⟨hgap _ hg, by decide, hk.no_nul string.no_nul, by decide, hgap _ hg₁, by decide,
      hgap _ hg₂, Spells.no_nul h⟩

end

end NoNul

section Mono

variable {Number Number' : NumberText → D → Prop} {Gap Gap' : List UInt16 → Prop}

mutual

/-- The numbers may say more, and more may stand between the tokens. -/
theorem Spells.mono {v : JsonTree D} {t : List UInt16} (h : Spells A Number Gap v t)
    (hnumber : ∀ n d, n.WellFormed → Number n d → Number' n d) (hgap : ∀ g, Gap g → Gap' g) :
    Spells A Number' Gap' v t := by
  match h with
  | .null => exact .null
  | .false => exact .false
  | .true => exact .true
  | .number hn hd => exact .number hn (hnumber _ _ hn hd)
  | .string h => exact .string h
  | .emptyArray hg => exact .emptyArray (hgap _ hg)
  | .array h => exact .array (SpellsElements.mono h hnumber hgap)
  | .emptyObject hg => exact .emptyObject (hgap _ hg)
  | .object h => exact .object (SpellsMembers.mono h hnumber hgap)

theorem SpellsElements.mono {vs : List (JsonTree D)} {t : List UInt16}
    (h : SpellsElements A Number Gap vs t)
    (hnumber : ∀ n d, n.WellFormed → Number n d → Number' n d) (hgap : ∀ g, Gap g → Gap' g) :
    SpellsElements A Number' Gap' vs t := by
  match h with
  | .last hg h hg' => exact .last (hgap _ hg) (Spells.mono h hnumber hgap) (hgap _ hg')
  | .more hg h hg' hs =>
    exact .more (hgap _ hg) (Spells.mono h hnumber hgap) (hgap _ hg')
      (SpellsElements.mono hs hnumber hgap)

theorem SpellsMembers.mono {ms : List (TText × JsonTree D)} {t : List UInt16}
    (h : SpellsMembers A Number Gap ms t)
    (hnumber : ∀ n d, n.WellFormed → Number n d → Number' n d) (hgap : ∀ g, Gap g → Gap' g) :
    SpellsMembers A Number' Gap' ms t := by
  match h with
  | .last h hg' => exact .last (SpellsMember.mono h hnumber hgap) (hgap _ hg')
  | .more h hg' hs =>
    exact .more (SpellsMember.mono h hnumber hgap) (hgap _ hg')
      (SpellsMembers.mono hs hnumber hgap)

theorem SpellsMember.mono {m : TText × JsonTree D} {t : List UInt16}
    (h : SpellsMember A Number Gap m t)
    (hnumber : ∀ n d, n.WellFormed → Number n d → Number' n d) (hgap : ∀ g, Gap g → Gap' g) :
    SpellsMember A Number' Gap' m t := by
  match h with
  | .mk hg hk hg₁ hg₂ h =>
    exact .mk (hgap _ hg) hk (hgap _ hg₁) (hgap _ hg₂) (Spells.mono h hnumber hgap)

end

theorem SpellsText.mono {v : JsonTree D} {text : List UInt16} (h : SpellsText A Number Gap v text)
    (hnumber : ∀ n d, n.WellFormed → Number n d → Number' n d) (hgap : ∀ g, Gap g → Gap' g) :
    SpellsText A Number' Gap' v text := by
  have ⟨g, t, g', hg, ht, hg', htext⟩ := h
  exact ⟨g, t, g', hgap g hg, ht.mono hnumber hgap, hgap g' hg', htext⟩

end Mono

end VerifyServer.Protocol
