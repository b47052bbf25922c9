import Mathlib

/-!
# Utf8 — the UTF-8 encoding of UTF-16 text

Text is a list of UTF-16 code units.  A surrogate without its partner has no encoding; what stands
for it differs between systems and is a parameter.
-/

namespace VerifyServer.Reasoning

def isHighSurrogate (u : UInt16) : Bool := 0xD800 ≤ u && u < 0xDC00

def isLowSurrogate (u : UInt16) : Bool := 0xDC00 ≤ u && u < 0xE000

-- the continuation byte that holds the lowest six bits of `n`
def utf8Tail (n : Nat) : UInt8 := UInt8.ofNat (0x80 + n % 0x40)

/-- The bytes of a unit that stands for itself. -/
def utf8Unit (bad : List UInt8) (u : UInt16) : List UInt8 :=
  let n := u.toNat
  if n < 0x80 then [UInt8.ofNat n]
  else if n < 0x800 then [UInt8.ofNat (0xC0 + n / 0x40), utf8Tail n]
  else if isHighSurrogate u || isLowSurrogate u then bad
  else [UInt8.ofNat (0xE0 + n / 0x1000), utf8Tail (n / 0x40), utf8Tail n]

/-- The four bytes of a surrogate pair. -/
def utf8Pair (u v : UInt16) : List UInt8 :=
  let n := 0x10000 + (u.toNat - 0xD800) * 0x400 + (v.toNat - 0xDC00)
  [UInt8.ofNat (0xF0 + n / 0x40000), utf8Tail (n / 0x1000), utf8Tail (n / 0x40), utf8Tail n]

def utf8 (bad : List UInt8) : List UInt16 → List UInt8
  | [] => []
  | [u] => utf8Unit bad u
  | u :: v :: us =>
    if isHighSurrogate u && isLowSurrogate v then utf8Pair u v ++ utf8 bad us
    else utf8Unit bad u ++ utf8 bad (v :: us)

-- one, two and three bytes, a pair, and a surrogate alone
example : utf8 [0x3F] [0x41, 0xE9, 0x20AC, 0xD83D, 0xDE00, 0xD800] =
    [0x41, 0xC3, 0xA9, 0xE2, 0x82, 0xAC, 0xF0, 0x9F, 0x98, 0x80, 0x3F] := by decide

/-! ## Zero bytes -/

theorem ofNat_ne_zero {n : Nat} (h : 0 < n) (hlt : n < 256) : UInt8.ofNat n ≠ 0 := by
  intro heq
  have hzero := congrArg UInt8.toNat heq
  rw [UInt8.toNat_ofNat_of_lt' (by unfold UInt8.size; omega)] at hzero
  exact absurd hzero (by change n ≠ 0; omega)

theorem utf8Tail_ne_zero (n : Nat) : utf8Tail n ≠ 0 := ofNat_ne_zero (by omega) (by omega)

theorem utf8Unit_ne_zero {bad : List UInt8} (hbad : 0 ∉ bad) {u : UInt16} (hu : u ≠ 0) :
    0 ∉ utf8Unit bad u := by
  have hlt := u.toNat_lt
  have hpos : 0 < u.toNat := by
    by_contra hzero
    exact hu (UInt16.toNat_inj.mp (by change u.toNat = 0; omega))
  unfold utf8Unit
  simp only
  split
  · simpa using (ofNat_ne_zero hpos (by omega)).symm
  · split
    · have hlead := ofNat_ne_zero (n := 0xC0 + u.toNat / 0x40) (by omega) (by omega)
      simp only [List.mem_cons, List.not_mem_nil, or_false, not_or]
      exact ⟨hlead.symm, (utf8Tail_ne_zero _).symm⟩
    · split
      · exact hbad
      · have hlead := ofNat_ne_zero (n := 0xE0 + u.toNat / 0x1000) (by omega) (by omega)
        simp only [List.mem_cons, List.not_mem_nil, or_false, not_or]
        exact ⟨hlead.symm, (utf8Tail_ne_zero _).symm, (utf8Tail_ne_zero _).symm⟩

theorem utf8Pair_ne_zero {u v : UInt16} (hu : isHighSurrogate u = true)
    (hv : isLowSurrogate v = true) : 0 ∉ utf8Pair u v := by
  simp only [isHighSurrogate, isLowSurrogate, Bool.and_eq_true, decide_eq_true_eq,
    UInt16.le_iff_toNat_le, UInt16.lt_iff_toNat_lt] at hu hv
  have hhigh : (0xDC00 : UInt16).toNat = 0xDC00 := rfl
  have hlow : (0xE000 : UInt16).toNat = 0xE000 := rfl
  have hlead := ofNat_ne_zero
    (n := 0xF0 + (0x10000 + (u.toNat - 0xD800) * 0x400 + (v.toNat - 0xDC00)) / 0x40000)
    (by omega) (by omega)
  simp only [utf8Pair, List.mem_cons, List.not_mem_nil, or_false, not_or]
  exact ⟨hlead.symm, (utf8Tail_ne_zero _).symm, (utf8Tail_ne_zero _).symm,
    (utf8Tail_ne_zero _).symm⟩

/-- Text without a NUL has no zero byte in its encoding. -/
theorem utf8_ne_zero {bad : List UInt8} (hbad : 0 ∉ bad) {s : List UInt16} (hs : 0 ∉ s) :
    0 ∉ utf8 bad s := by
  fun_induction utf8 bad s with
  | case1 => exact List.not_mem_nil
  | case2 u => exact utf8Unit_ne_zero hbad (by rintro rfl; exact hs (List.mem_singleton_self _))
  | case3 u v us hpair ih =>
    rw [Bool.and_eq_true] at hpair
    rw [List.mem_append, not_or]
    exact ⟨utf8Pair_ne_zero hpair.1 hpair.2,
      ih fun h => hs (List.mem_cons_of_mem _ (List.mem_cons_of_mem _ h))⟩
  | case4 u v us hpair ih =>
    rw [List.mem_append, not_or]
    exact ⟨utf8Unit_ne_zero hbad (by rintro rfl; exact hs (List.mem_cons_self ..)),
      ih fun h => hs (List.mem_cons_of_mem _ h)⟩

/-! ## A text cut at a NUL -/

theorem utf8_zero_cons (bad : List UInt8) (s : List UInt16) :
    utf8 bad (0 :: s) = 0 :: utf8 bad s := by
  cases s with
  | nil => rfl
  | cons v us =>
    have hpair : ¬ (isHighSurrogate 0 && isLowSurrogate v) = true := by simp [isHighSurrogate]
    rw [utf8, if_neg hpair]
    rfl

/-- A NUL stands for itself and belongs to no pair. -/
theorem utf8_append_zero (bad : List UInt8) (s t : List UInt16) :
    utf8 bad (s ++ 0 :: t) = utf8 bad s ++ 0 :: utf8 bad t := by
  fun_induction utf8 bad s with
  | case1 => exact utf8_zero_cons bad t
  | case2 u =>
    have hpair : ¬ (isHighSurrogate u && isLowSurrogate 0) = true := by simp [isLowSurrogate]
    rw [List.singleton_append, utf8, if_neg hpair, utf8_zero_cons]
  | case3 u v us hpair ih =>
    rw [List.cons_append, List.cons_append, utf8, if_pos hpair, ih, List.append_assoc]
  | case4 u v us hpair ih =>
    rw [List.cons_append, List.cons_append, utf8, if_neg hpair, ← List.cons_append, ih,
      List.append_assoc]

/-! ## Text whose surrogates are paired

Its encoding can be read back, so no two such texts share one.
-/

def paired : List UInt16 → Bool
  | [] => true
  | [u] => !(isHighSurrogate u || isLowSurrogate u)
  | u :: v :: us =>
    if isHighSurrogate u && isLowSurrogate v then paired us
    else !(isHighSurrogate u || isLowSurrogate u) && paired (v :: us)

theorem paired_append {s t : List UInt16} (hs : paired s = true) (ht : paired t = true) :
    paired (s ++ t) = true := by
  fun_induction paired s with
  | case1 => exact ht
  | case2 u =>
    cases t with
    | nil => exact hs
    | cons v t =>
      have hu := (Bool.not_eq_true' _).mp hs
      rw [Bool.or_eq_false_iff] at hu
      rw [List.singleton_append, paired, hu.1, hu.2, ht]
      rfl
  | case3 u v us hpair ih =>
    rw [List.cons_append, List.cons_append, paired, if_pos hpair]
    exact ih hs
  | case4 u v us hpair ih =>
    rw [Bool.and_eq_true] at hs
    rw [List.cons_append, List.cons_append, paired, if_neg hpair, hs.1, ← List.cons_append,
      ih hs.2]
    rfl

/-- The first character of an encoded text, in code units, and the bytes after it. -/
def utf8Next : List UInt8 → Option (List UInt16 × List UInt8)
  | [] => none
  | b :: bs =>
    let n := b.toNat
    if n < 0x80 then some ([UInt16.ofNat n], bs)
    else if n < 0xE0 then
      match bs with
      | b1 :: bs => some ([UInt16.ofNat ((n - 0xC0) * 0x40 + (b1.toNat - 0x80))], bs)
      | _ => none
    else if n < 0xF0 then
      match bs with
      | b1 :: b2 :: bs =>
        some ([UInt16.ofNat ((n - 0xE0) * 0x1000 + (b1.toNat - 0x80) * 0x40 + (b2.toNat - 0x80))],
          bs)
      | _ => none
    else
      match bs with
      | b1 :: b2 :: b3 :: bs =>
        let m := (n - 0xF0) * 0x40000 + (b1.toNat - 0x80) * 0x1000 + (b2.toNat - 0x80) * 0x40 +
          (b3.toNat - 0x80) - 0x10000
        some ([UInt16.ofNat (0xD800 + m / 0x400), UInt16.ofNat (0xDC00 + m % 0x400)], bs)
      | _ => none

@[simp] theorem utf8Tail_toNat (n : Nat) : (utf8Tail n).toNat = 0x80 + n % 0x40 :=
  UInt8.toNat_ofNat_of_lt' (by unfold UInt8.size; omega)

theorem utf8Next_unit {bad : List UInt8} {u : UInt16}
    (hu : (isHighSurrogate u || isLowSurrogate u) = false) (bs : List UInt8) :
    utf8Next (utf8Unit bad u ++ bs) = some ([u], bs) := by
  have hlt := u.toNat_lt
  have hback : ∀ {k : Nat}, k = u.toNat → UInt16.ofNat k = u := by
    rintro k rfl
    exact UInt16.ofNat_toNat
  have hbyte : ∀ {k : Nat}, k < 256 → (UInt8.ofNat k).toNat = k :=
    fun hk => UInt8.toNat_ofNat_of_lt' hk
  unfold utf8Unit
  simp only
  split
  case isTrue h1 =>
    rw [List.singleton_append]
    unfold utf8Next
    simp only
    rw [hbyte (by omega), if_pos h1, hback rfl]
  case isFalse h1 =>
    split
    case isTrue h2 =>
      rw [List.cons_append, List.singleton_append, utf8Next]
      simp only
      rw [hbyte (by omega), if_neg (by omega), if_pos (by omega), utf8Tail_toNat,
        hback (by omega)]
    case isFalse h2 =>
      rw [if_neg (by rw [hu]; exact Bool.false_ne_true), List.cons_append, List.cons_append,
        List.singleton_append, utf8Next]
      simp only
      rw [hbyte (by omega), if_neg (by omega), if_neg (by omega), if_pos (by omega),
        utf8Tail_toNat, utf8Tail_toNat, hback (by omega)]

theorem utf8Next_pair {u v : UInt16} (hu : isHighSurrogate u = true)
    (hv : isLowSurrogate v = true) (bs : List UInt8) :
    utf8Next (utf8Pair u v ++ bs) = some ([u, v], bs) := by
  simp only [isHighSurrogate, isLowSurrogate, Bool.and_eq_true, decide_eq_true_eq,
    UInt16.le_iff_toNat_le, UInt16.lt_iff_toNat_lt] at hu hv
  have hlow : (0xDC00 : UInt16).toNat = 0xDC00 := rfl
  have hend : (0xE000 : UInt16).toNat = 0xE000 := rfl
  have hhigh : (0xD800 : UInt16).toNat = 0xD800 := rfl
  rw [hlow, hend] at hv
  rw [hhigh, hlow] at hu
  have hback : ∀ {k : Nat} {w : UInt16}, k = w.toNat → UInt16.ofNat k = w := by
    rintro k w rfl
    exact UInt16.ofNat_toNat
  have hbyte : ∀ {k : Nat}, k < 256 → (UInt8.ofNat k).toNat = k :=
    fun hk => UInt8.toNat_ofNat_of_lt' hk
  unfold utf8Pair
  simp only [List.cons_append, List.nil_append, utf8Next, utf8Tail_toNat]
  generalize hn : 0x10000 + (u.toNat - 0xD800) * 0x400 + (v.toNat - 0xDC00) = n
  rw [hbyte (by omega), if_neg (by omega), if_neg (by omega), if_neg (by omega),
    hback (w := u) (by omega), hback (w := v) (by omega)]

/-- Reading the first character of a text's encoding. -/
theorem utf8Next_utf8 (bad : List UInt8) {s : List UInt16} (hs : paired s = true)
    (hne : s ≠ []) :
    ∃ x rest, s = x ++ rest ∧ x ≠ [] ∧ paired rest = true ∧
      utf8Next (utf8 bad s) = some (x, utf8 bad rest) := by
  match s with
  | [] => exact absurd rfl hne
  | [u] =>
    have hnext : utf8Next (utf8Unit bad u ++ []) = some ([u], []) :=
      utf8Next_unit ((Bool.not_eq_true' _).mp hs) []
    rw [List.append_nil] at hnext
    exact ⟨[u], [], rfl, List.cons_ne_nil _ _, rfl, hnext⟩
  | u :: v :: us =>
    rw [paired] at hs
    rw [utf8]
    by_cases hpair : (isHighSurrogate u && isLowSurrogate v) = true
    · rw [if_pos hpair] at hs ⊢
      rw [Bool.and_eq_true] at hpair
      exact ⟨[u, v], us, rfl, List.cons_ne_nil _ _, hs, utf8Next_pair hpair.1 hpair.2 _⟩
    · rw [if_neg hpair] at hs ⊢
      rw [Bool.and_eq_true] at hs
      exact ⟨[u], v :: us, rfl, List.cons_ne_nil _ _, hs.2,
        utf8Next_unit ((Bool.not_eq_true' _).mp hs.1) _⟩

theorem utf8_injective {bad : List UInt8} {s t : List UInt16} (hs : paired s = true)
    (ht : paired t = true) (h : utf8 bad s = utf8 bad t) : s = t := by
  induction hlen : s.length using Nat.strong_induction_on generalizing s t with
  | _ n ih =>
    by_cases hsnil : s = []
    · by_contra hne
      have ⟨x, rest, _, _, _, hnext⟩ := utf8Next_utf8 bad ht (by rw [← hsnil]; exact Ne.symm hne)
      rw [← h, hsnil] at hnext
      nomatch hnext
    · have ⟨x, rest, hsx, hx, hrest, hnext⟩ := utf8Next_utf8 bad hs hsnil
      have htnil : t ≠ [] := by
        rintro rfl
        rw [h] at hnext
        nomatch hnext
      have ⟨y, rest', hty, _, hrest', hnext'⟩ := utf8Next_utf8 bad ht htnil
      rw [← h, hnext, Option.some.injEq, Prod.mk.injEq] at hnext'
      have hpos : 0 < x.length := List.length_pos_iff.mpr hx
      have hshort : rest.length < n := by
        rw [← hlen, hsx, List.length_append]
        omega
      rw [hsx, hty, hnext'.1, ih rest.length hshort hrest hrest' hnext'.2 rfl]

end VerifyServer.Reasoning
