import Mathlib

/-!
# JavaString — strings as Java has them

A string is a list of UTF-16 code units; nothing asks for surrogates to be paired.
-/

namespace VerifyServer.Reasoning

abbrev JavaString := List UInt16

-- a string literal of the source; all of them are ASCII
def lit (s : String) : JavaString := s.toList.map fun c => UInt16.ofNat c.toNat

/-! ## `trim` and `replace` -/

def isTrimmed (c : UInt16) : Bool := c ≤ 0x20

/-- `String.trim()`. -/
def trim (s : JavaString) : JavaString :=
  ((s.dropWhile isTrimmed).reverse.dropWhile isTrimmed).reverse

/-- `String.replace(oldChar, newChar)`. -/
def replace (oldChar newChar : UInt16) (s : JavaString) : JavaString :=
  s.map fun c => if c = oldChar then newChar else c

theorem dropWhile_trimmed {a : JavaString} (ha : ∀ c ∈ a, isTrimmed c = true) {x : UInt16}
    (hx : isTrimmed x = false) (s : JavaString) : (a ++ x :: s).dropWhile isTrimmed = x :: s := by
  rw [List.dropWhile_append_of_pos ha]
  exact List.dropWhile_cons_of_neg (by rw [hx]; exact Bool.false_ne_true)

theorem trim_eq {a b : JavaString} {x y : UInt16} (ha : ∀ c ∈ a, isTrimmed c = true)
    (hb : ∀ c ∈ b, isTrimmed c = true) (hx : isTrimmed x = false) (hy : isTrimmed y = false)
    (s : JavaString) : trim (a ++ (x :: (s ++ y :: b))) = x :: (s ++ [y]) := by
  have hrev : (x :: (s ++ y :: b)).reverse = b.reverse ++ y :: (s.reverse ++ [x]) := by
    rw [show x :: (s ++ y :: b) = (x :: s) ++ y :: b from rfl, List.reverse_append,
      List.reverse_cons, List.reverse_cons, List.append_assoc]
    rfl
  rw [trim, dropWhile_trimmed ha hx, hrev,
    dropWhile_trimmed (fun c hc => hb c (List.mem_reverse.mp hc)) hy, List.reverse_cons,
    List.reverse_append, List.reverse_reverse]
  rfl

theorem trim_append_left {a : JavaString} (ha : ∀ c ∈ a, isTrimmed c = true) (s : JavaString) :
    trim (a ++ s) = trim s := by
  rw [trim, List.dropWhile_append_of_pos ha, trim]

theorem trim_of_trimmed {s : JavaString} (hs : ∀ c ∈ s, isTrimmed c = true) : trim s = [] := by
  rw [trim, List.dropWhile_eq_nil_iff.mpr hs]
  rfl

theorem trim_append_right {b : JavaString} (hb : ∀ c ∈ b, isTrimmed c = true) (s : JavaString) :
    trim (s ++ b) = trim s := by
  have hrev : ∀ c ∈ b.reverse, isTrimmed c = true := fun c hc => hb c (List.mem_reverse.mp hc)
  by_cases hs : ∀ c ∈ s, isTrimmed c = true
  · rw [trim_append_left hs, trim_of_trimmed hb, trim_of_trimmed hs]
  · have hdrop : (s ++ b).dropWhile isTrimmed = s.dropWhile isTrimmed ++ b := by
      rw [List.dropWhile_append, if_neg]
      rw [List.isEmpty_iff, List.dropWhile_eq_nil_iff]
      exact hs
    rw [trim, trim, hdrop, List.reverse_append, List.dropWhile_append_of_pos hrev]

/-- Characters at both ends that are not trimmed keep all between them. -/
theorem length_trim_of_ends {x y : UInt16} (hx : isTrimmed x = false) (hy : isTrimmed y = false)
    (s t : JavaString) : s.length + 2 ≤ (trim (x :: (s ++ y :: t))).length := by
  have hkeep : ∀ a w : JavaString, w.length + 1 ≤ ((a ++ y :: w).dropWhile isTrimmed).length := by
    intro a w
    induction a with
    | nil =>
      rw [List.nil_append, List.dropWhile_cons_of_neg (by rw [hy]; exact Bool.false_ne_true)]
      exact Nat.le_refl _
    | cons c a ih =>
      rw [List.cons_append, List.dropWhile_cons]
      split
      · exact ih
      · simp only [List.length_cons, List.length_append]
        omega
  have hlen := hkeep t.reverse (s.reverse ++ [x])
  rw [trim, List.dropWhile_cons_of_neg (by rw [hx]; exact Bool.false_ne_true), List.length_reverse,
    List.reverse_cons, List.reverse_append, List.reverse_cons, List.append_assoc, List.append_assoc]
  simp only [List.length_append, List.length_reverse, List.length_singleton] at hlen
  exact hlen

theorem replace_append (o n : UInt16) (s t : JavaString) :
    replace o n (s ++ t) = replace o n s ++ replace o n t := List.map_append

theorem replace_of_not_mem {o n : UInt16} {s : JavaString} (h : o ∉ s) : replace o n s = s := by
  have hid : s.map (fun c => if c = o then n else c) = s.map id :=
    List.map_congr_left fun c hc => if_neg (by rintro rfl; exact h hc)
  exact hid.trans (List.map_id s)

/-! ## Letters of either case -/

def lower (c : UInt16) : UInt16 := if 0x41 ≤ c && c ≤ 0x5A then c + 0x20 else c

/-- The capital and small letters of `i`, `s` and `k` outside ASCII count as these letters. -/
def foldCase (c : UInt16) : UInt16 :=
  if c = 0x130 ∨ c = 0x131 then 0x69
  else if c = 0x17F then 0x73
  else if c = 0x212A then 0x6B
  else lower c

theorem foldCase_lower (c : UInt16) : foldCase (lower c) = foldCase c := by
  by_cases hc : 0x41 ≤ c && c ≤ 0x5A
  · rw [Bool.and_eq_true, decide_eq_true_eq, decide_eq_true_eq, UInt16.le_iff_toNat_le,
      UInt16.le_iff_toNat_le] at hc
    have hascii : c.toNat ∈ (List.range' 0x41 26) := by
      rw [List.mem_range'_1]
      exact ⟨hc.1, Nat.lt_succ_of_le hc.2⟩
    have hall : (List.range' 0x41 26).all (fun n =>
        foldCase (lower (UInt16.ofNat n)) = foldCase (UInt16.ofNat n)) = true := by decide
    have hn := List.all_eq_true.mp hall _ hascii
    rwa [UInt16.ofNat_toNat, decide_eq_true_eq] at hn
  · rw [lower, if_neg hc]

/-- `regionMatches(true, 0, start, 0, start.length())`, for an ASCII `start`. -/
def startsWithIgnoringCase (s start : JavaString) : Bool :=
  (s.take start.length).map foldCase = start.map foldCase

theorem startsWithIgnoringCase_append {u start : JavaString} (h : u.map lower = start.map lower)
    (s : JavaString) : startsWithIgnoringCase (u ++ s) start = true := by
  have hlen : u.length = start.length := by
    have := congrArg List.length h
    rwa [List.length_map, List.length_map] at this
  have hfold : ∀ v : JavaString, v.map foldCase = (v.map lower).map foldCase := by
    intro v
    rw [List.map_map]
    exact List.map_congr_left fun c _ => (foldCase_lower c).symm
  rw [startsWithIgnoringCase, ← hlen, List.take_left, decide_eq_true_eq, hfold, h, ← hfold]

/-- `s.equalsIgnoreCase(t)`, for an ASCII `t`. -/
def equalsIgnoreCase (s t : JavaString) : Bool := s.map foldCase = t.map foldCase

theorem equalsIgnoreCase_self (s : JavaString) : equalsIgnoreCase s s = true := decide_eq_true rfl

/-! ## `String.format` -/

inductive Arg where
  | string (s : JavaString)
  | int (n : Int)

def digits (n : Nat) : JavaString := (Nat.toDigits 10 n).map fun c => UInt16.ofNat c.toNat

def decimal : Int → JavaString
  | .ofNat n => digits n
  | .negSucc n => 0x2D :: digits (n + 1)

/-- A number in the digits of a locale, of which `zero` is the first. -/
def localized (zero : UInt16) (s : JavaString) : JavaString :=
  s.map fun c => if 0x30 ≤ c && c ≤ 0x39 then c - 0x30 + zero else c

theorem localized_ascii (s : JavaString) : localized 0x30 s = s := by
  have hid : s.map (fun c => if 0x30 ≤ c && c ≤ 0x39 then c - 0x30 + 0x30 else c) = s.map id := by
    apply List.map_congr_left
    intro c _
    split
    · exact UInt16.sub_add_cancel c 0x30
    · rfl
  exact hid.trans (List.map_id s)

/-- What a conversion letter makes of its argument; only `d` asks for the locale. -/
def Arg.convert (zero k : UInt16) : Arg → Option JavaString
  | string s => if k = 0x73 then some s else none
  | int n =>
    if k = 0x73 then some (decimal n)
    else if k = 0x64 then some (localized zero (decimal n))
    else none

/-- The text before each conversion, with its letter, and the text after the last one. -/
def conversions : JavaString → List (JavaString × UInt16) × JavaString
  | [] => ([], [])
  | [c] => ([], [c])
  | c :: k :: s =>
    if c = 0x25 then
      match conversions s with
      | (ps, last) => (([], k) :: ps, last)
    else
      match conversions (k :: s) with
      | ([], last) => ([], c :: last)
      | ((p, l) :: ps, last) => ((c :: p, l) :: ps, last)

def fill (zero : UInt16) (last : JavaString) :
    List (JavaString × UInt16) → List Arg → Option JavaString
  | [], _ => some last
  | _ :: _, [] => none
  | (p, k) :: ps, a :: as =>
    (a.convert zero k).bind fun s => (fill zero last ps as).map fun t => p ++ (s ++ t)

/-- `String.format(format, args)`, for formats of plain conversions; `zero` is the first digit of
the default locale. -/
def format (zero : UInt16) (fmt : JavaString) (args : List Arg) : Option JavaString :=
  fill zero (conversions fmt).2 (conversions fmt).1 args

/-! ## `Integer.parseInt` -/

/-- The zeros among the decimal digits of the basic plane, those of Unicode 7 included. -/
def digitZeros : List UInt16 :=
  [0x0030, 0x0660, 0x06F0, 0x07C0, 0x0966, 0x09E6, 0x0A66, 0x0AE6, 0x0B66, 0x0BE6, 0x0C66, 0x0CE6,
    0x0D66, 0x0DE6, 0x0E50, 0x0ED0, 0x0F20, 0x1040, 0x1090, 0x17E0, 0x1810, 0x1946, 0x19D0, 0x1A80,
    0x1A90, 0x1B50, 0x1BB0, 0x1C40, 0x1C50, 0xA620, 0xA8D0, 0xA900, 0xA9D0, 0xA9F0, 0xAA50, 0xABF0,
    0xFF10]

/-- `Character.digit(c, 10)`. -/
def digitOf (c : UInt16) : Option Nat :=
  (digitZeros.find? fun zero => zero.toNat ≤ c.toNat && c.toNat < zero.toNat + 10).map
    fun zero => c.toNat - zero.toNat

def digitsValue (value : Nat) : JavaString → Option Nat
  | [] => some value
  | c :: s => (digitOf c).bind fun d => digitsValue (value * 10 + d) s

/-- The value of one digit or more. -/
def magnitude : JavaString → Option Nat
  | [] => none
  | s => digitsValue 0 s

/-- `Integer.parseInt(s)`, `none` when it throws. -/
def parseInt (s : JavaString) : Option Int :=
  let value : Option Int :=
    match s with
    | 0x2D :: s => (magnitude s).map fun n => -(n : Int)
    | 0x2B :: s => (magnitude s).map fun n => (n : Int)
    | s => (magnitude s).map fun n => (n : Int)
  value.filter fun n => -2 ^ 31 ≤ n && n < 2 ^ 31

example : (["12", "-3", "+4", "", "-", "1 ", "2147483648"].map fun s => parseInt (lit s)) =
    [some 12, some (-3), some 4, none, none, none, none] := by decide +kernel

theorem mem_digits {n : Nat} {c : UInt16} (hc : c ∈ digits n) : 0x30 ≤ c ∧ c ≤ 0x39 := by
  have ⟨d, hd, heq⟩ := List.mem_map.mp hc
  have hdigit := Nat.isDigit_of_mem_toDigits (by decide) (by decide) hd
  rw [Char.isDigit_iff_toNat, show '0'.toNat = 0x30 from rfl, show '9'.toNat = 0x39 from rfl]
    at hdigit
  rw [← heq, UInt16.le_iff_toNat_le, UInt16.le_iff_toNat_le,
    UInt16.toNat_ofNat_of_lt' (by unfold UInt16.size; omega)]
  exact hdigit

theorem digits_ne_nil (n : Nat) : digits n ≠ [] := fun h =>
  Nat.toDigits_ne_nil (List.map_eq_nil_iff.mp h)

-- in ASCII and in Arabic digits
example : ([0x30, 0x660].map fun zero => format zero (lit "'%s',%d;") [.string (lit "7"),
    .int (-10)]) = [some (lit "'7',-10;"), some (lit "'7',-" ++ [0x661, 0x660] ++ lit ";")] := by
  decide +kernel

end VerifyServer.Reasoning
