import VerifyServer.Protocol.JsonSafety
import VerifyServer.Reasoning.Utf8

/-!
# JsonStrings — escapes with digits

`parse_string` was written for bytes: it makes the bytes of UTF-8 of an escape with digits, also where
a unit of a string is two bytes long.  A string comes out as its sender meant it exactly when he wrote
no such escape for a unit that is not ASCII.
-/

open VerifyServer.Reasoning

namespace VerifyServer.Protocol

/-! ## 1. The bytes of UTF-8 -/

def widen (bytes : List UInt8) : List UInt16 := bytes.map fun b => UInt16.ofNat b.toNat

theorem widen_ofNat {n : Nat} (h : n < 256) : UInt16.ofNat (UInt8.ofNat n).toNat = UInt16.ofNat n := by
  rw [UInt8.toNat_ofNat_of_lt' (by unfold UInt8.size; exact h)]

theorem widen_utf8Tail (n : Nat) :
    UInt16.ofNat (utf8Tail n).toNat = UInt16.ofNat ((n ||| 0x80) &&& 0xBF) := by
  have hsmall : ∀ m < 256, (m ||| 0x80) &&& 0xBF = 0x80 + m % 0x40 := by decide +kernel
  have hle : (n ||| 0x80) &&& 0xBF ≤ 0xBF := Nat.and_le_right
  have hmod : ((n ||| 0x80) &&& 0xBF) % 2 ^ 8 = (n % 2 ^ 8 ||| 0x80) &&& 0xBF := by
    rw [Nat.and_mod_two_pow, Nat.or_mod_two_pow]
  have hbits := hsmall (n % 2 ^ 8) (Nat.mod_lt n (by decide))
  rw [Nat.mod_eq_of_lt (by omega), hbits] at hmod
  rw [hmod, utf8Tail_toNat]
  congr 1
  omega

theorem or_lead {lead bound n : Nat} (hbits : ∀ m < bound, m ||| lead = lead + m) (h : n < bound) :
    n ||| lead = lead + n := hbits n h

/-- A unit that is no surrogate is transcoded to its bytes. -/
theorem transcode_unit {u : UInt16} (hlow : u.toNat < 0xD800 ∨ 0xE000 ≤ u.toNat) :
    transcode u.toNat = widen (utf8Unit [] u) := by
  have hlt := u.toNat_lt
  have hsurrogate : (isHighSurrogate u || isLowSurrogate u) = false := by
    have hhigh : (0xD800 : UInt16).toNat = 0xD800 := rfl
    have hmid : (0xDC00 : UInt16).toNat = 0xDC00 := rfl
    have hend : (0xE000 : UInt16).toNat = 0xE000 := rfl
    rw [Bool.or_eq_false_iff, isHighSurrogate, isLowSurrogate, Bool.and_eq_false_iff,
      Bool.and_eq_false_iff]
    simp only [decide_eq_false_iff_not, UInt16.le_iff_toNat_le, UInt16.lt_iff_toNat_lt]
    omega
  rw [transcode, utf8Unit]
  split
  · change [_] = [UInt16.ofNat (UInt8.ofNat u.toNat).toNat]
    rw [widen_ofNat (by omega)]
  · split
    · have hlead : u.toNat >>> 6 ||| 0xC0 = 0xC0 + u.toNat / 0x40 := by
        rw [Nat.shiftRight_eq_div_pow]
        exact @or_lead _ 32 _ (by decide) (by omega)
      change [_, _] = [UInt16.ofNat (UInt8.ofNat _).toNat, UInt16.ofNat (utf8Tail _).toNat]
      rw [widen_utf8Tail, widen_ofNat (by omega), hlead]
    · have hlead : u.toNat >>> 12 ||| 0xE0 = 0xE0 + u.toNat / 0x1000 := by
        rw [Nat.shiftRight_eq_div_pow]
        exact @or_lead _ 16 _ (by decide) (by omega)
      rw [hsurrogate]
      change [_, _, _] = [UInt16.ofNat (UInt8.ofNat _).toNat, UInt16.ofNat (utf8Tail _).toNat,
        UInt16.ofNat (utf8Tail _).toNat]
      rw [widen_utf8Tail, widen_utf8Tail, widen_ofNat (by omega), hlead,
        Nat.shiftRight_eq_div_pow]

/-- So is the code point of two surrogates. -/
theorem transcode_pair {u v : UInt16} (hu : 0xD800 ≤ u.toNat ∧ u.toNat ≤ 0xDBFF)
    (hv : 0xDC00 ≤ v.toNat ∧ v.toNat ≤ 0xDFFF) :
    transcode (0x10000 + ((u.toNat &&& 0x3FF) <<< 10 ||| v.toNat &&& 0x3FF)) =
      widen (utf8Pair u v) := by
  have hmask : ∀ n : Nat, n &&& 0x3FF = n % 2 ^ 10 := fun n => Nat.and_two_pow_sub_one_eq_mod n 10
  have hpoint : 0x10000 + ((u.toNat &&& 0x3FF) <<< 10 ||| v.toNat &&& 0x3FF) =
      0x10000 + (u.toNat - 0xD800) * 0x400 + (v.toNat - 0xDC00) := by
    rw [hmask, hmask, ← Nat.shiftLeft_add_eq_or_of_lt (Nat.mod_lt _ (by decide)),
      Nat.shiftLeft_eq]
    omega
  rw [hpoint, utf8Pair]
  generalize hn : 0x10000 + (u.toNat - 0xD800) * 0x400 + (v.toNat - 0xDC00) = n
  have hlow : 0x10000 ≤ n := by omega
  have hhigh : n < 0x110000 := by omega
  have hlead : n >>> 18 ||| 0xF0 = 0xF0 + n / 0x40000 := by
    rw [Nat.shiftRight_eq_div_pow]
    exact @or_lead _ 8 _ (by decide) (by omega)
  rw [transcode, if_neg (by omega), if_neg (by omega), if_neg (by omega)]
  change [_, _, _, _] = [UInt16.ofNat (UInt8.ofNat _).toNat, UInt16.ofNat (utf8Tail _).toNat,
    UInt16.ofNat (utf8Tail _).toNat, UInt16.ofNat (utf8Tail _).toNat]
  rw [widen_utf8Tail, widen_utf8Tail, widen_utf8Tail, widen_ofNat (by omega), hlead,
    Nat.shiftRight_eq_div_pow, Nat.shiftRight_eq_div_pow]

/-! ## 2. Strings with escapes of every unit -/

/-- The text between the quotes, the units that it spells, and what `parse_string` makes of it.
Surrogates are escaped in pairs. -/
inductive Reads : List UInt16 → List UInt16 → List UInt16 → Prop where
  | nil : Reads [] [] []
  | plain {c : UInt16} {t s o : List UInt16} (hquote : c ≠ quoteMark) (hback : c ≠ backslash)
      (h : Reads t s o) : Reads (c :: t) (c :: s) (c :: o)
  | short {e c : UInt16} {t s o : List UInt16} (he : shortEscape e = some c) (h : Reads t s o) :
      Reads (backslash :: e :: t) (c :: s) (c :: o)
  | unit {a b c d u : UInt16} {t s o : List UInt16} (hu : parseHex4 [a, b, c, d] = u.toNat)
      (hpos : 0 < u.toNat) (hsingle : u.toNat < 0xD800 ∨ 0xE000 ≤ u.toNat) (h : Reads t s o) :
      Reads (backslash :: letterU :: a :: b :: c :: d :: t) (u :: s) (widen (utf8Unit [] u) ++ o)
  | pair {a b c d e f g i u v : UInt16} {t s o : List UInt16}
      (hu : parseHex4 [a, b, c, d] = u.toNat) (hhigh : 0xD800 ≤ u.toNat ∧ u.toNat ≤ 0xDBFF)
      (hv : parseHex4 [e, f, g, i] = v.toNat) (hlow : 0xDC00 ≤ v.toNat ∧ v.toNat ≤ 0xDFFF)
      (h : Reads t s o) :
      Reads (backslash :: letterU :: a :: b :: c :: d ::
        backslash :: letterU :: e :: f :: g :: i :: t) (u :: v :: s) (widen (utf8Pair u v) ++ o)

theorem decodeEscape_unit {a b c d u : UInt16} {ptr : List UInt16}
    (hu : parseHex4 [a, b, c, d] = u.toNat) (hpos : 0 < u.toNat)
    (hsingle : u.toNat < 0xD800 ∨ 0xE000 ≤ u.toNat) :
    decodeEscape (letterU :: a :: b :: c :: d :: ptr) = .ok (widen (utf8Unit [] u), ptr) := by
  change decodeHex (a :: b :: c :: d :: ptr) = _
  rw [decodeHex, advance_four, parseHex4_append, hu]
  change (if 0xDC00 ≤ u.toNat ∧ u.toNat ≤ 0xDFFF ∨ u.toNat = 0 then _ else _) = _
  rw [if_neg (by omega), if_neg (by omega), transcode_unit hsingle]
  rfl

theorem decodeEscape_pair {a b c d e f g i u v : UInt16} {ptr : List UInt16}
    (hu : parseHex4 [a, b, c, d] = u.toNat) (hhigh : 0xD800 ≤ u.toNat ∧ u.toNat ≤ 0xDBFF)
    (hv : parseHex4 [e, f, g, i] = v.toNat) (hlow : 0xDC00 ≤ v.toNat ∧ v.toNat ≤ 0xDFFF) :
    decodeEscape (letterU :: a :: b :: c :: d :: backslash :: letterU :: e :: f :: g :: i :: ptr) =
      .ok (widen (utf8Pair u v), ptr) := by
  change decodeHex (a :: b :: c :: d :: backslash :: letterU :: e :: f :: g :: i :: ptr) = _
  rw [decodeHex, advance_four, parseHex4_append, hu]
  change (if 0xDC00 ≤ u.toNat ∧ u.toNat ≤ 0xDFFF ∨ u.toNat = 0 then _ else _) = _
  rw [if_neg (by omega), if_pos hhigh]
  change (do
    let low ← advance 4 (e :: f :: g :: i :: ptr)
    if parseHex4 (e :: f :: g :: i :: ptr) < 0xDC00 ∨ 0xDFFF < parseHex4 (e :: f :: g :: i :: ptr)
      then return ([], low)
    return (transcode (0x10000 + ((u.toNat &&& 0x3FF) <<< 10 |||
      parseHex4 (e :: f :: g :: i :: ptr) &&& 0x3FF)), low)) = _
  rw [advance_four, parseHex4_append, hv]
  change (if v.toNat < 0xDC00 ∨ 0xDFFF < v.toNat then _ else _) = _
  rw [if_neg (by omega), transcode_pair hhigh hlow]
  rfl

/-! ## 3. What `parse_string` makes of them -/

theorem length_utf8Unit {u : UInt16} (hsingle : u.toNat < 0xD800 ∨ 0xE000 ≤ u.toNat) :
    1 ≤ (utf8Unit [] u).length ∧ (utf8Unit [] u).length ≤ 3 ∧
      (0x80 ≤ u.toNat → 2 ≤ (utf8Unit [] u).length) := by
  have hmap : (utf8Unit [] u).length = (transcode u.toNat).length := by
    rw [transcode_unit hsingle, widen, List.length_map]
  have hlt := u.toNat_lt
  rw [hmap, transcode]
  split
  · change 1 ≤ 1 ∧ 1 ≤ 3 ∧ (_ → 2 ≤ 1)
    omega
  · split
    · change 1 ≤ 2 ∧ 2 ≤ 3 ∧ (_ → 2 ≤ 2)
      omega
    · change 1 ≤ 3 ∧ 3 ≤ 3 ∧ (_ → 2 ≤ 3)
      omega

theorem zero_not_mem_widen {bytes : List UInt8} (h : 0 ∉ bytes) : 0 ∉ widen bytes := by
  intro hmem
  have ⟨b, hb, hzero⟩ := List.mem_map.mp hmem
  have hlt := b.toNat_lt
  have hnat := congrArg UInt16.toNat hzero
  rw [UInt16.toNat_ofNat_of_lt' (by unfold UInt16.size; omega)] at hnat
  obtain rfl : b = 0 := UInt8.toNat_inj.mp hnat
  exact h hb

theorem isHighSurrogate_of_le {u : UInt16} (h : 0xD800 ≤ u.toNat ∧ u.toNat ≤ 0xDBFF) :
    isHighSurrogate u = true := by
  have hlow : (0xD800 : UInt16).toNat = 0xD800 := rfl
  have hhigh : (0xDC00 : UInt16).toNat = 0xDC00 := rfl
  rw [isHighSurrogate, Bool.and_eq_true, decide_eq_true_iff, decide_eq_true_iff,
    UInt16.le_iff_toNat_le, UInt16.lt_iff_toNat_lt]
  omega

theorem isLowSurrogate_of_le {u : UInt16} (h : 0xDC00 ≤ u.toNat ∧ u.toNat ≤ 0xDFFF) :
    isLowSurrogate u = true := by
  have hlow : (0xDC00 : UInt16).toNat = 0xDC00 := rfl
  have hhigh : (0xE000 : UInt16).toNat = 0xE000 := rfl
  rw [isLowSurrogate, Bool.and_eq_true, decide_eq_true_iff, decide_eq_true_iff,
    UInt16.le_iff_toNat_le, UInt16.lt_iff_toNat_lt]
  omega

namespace Reads

variable {t s o : List UInt16}

theorem no_nul (h : Reads t s o) (hs : 0 ∉ s) : 0 ∉ o := by
  induction h with
  | nil => exact hs
  | plain hquote hback h ih =>
    rw [List.mem_cons, not_or] at hs ⊢
    exact ⟨hs.1, ih hs.2⟩
  | short he h ih =>
    rw [List.mem_cons, not_or] at hs ⊢
    exact ⟨hs.1, ih hs.2⟩
  | unit hu hpos hsingle h ih =>
    rw [List.mem_cons, not_or] at hs
    rw [List.mem_append, not_or]
    exact ⟨zero_not_mem_widen (utf8Unit_ne_zero List.not_mem_nil (Ne.symm hs.1)), ih hs.2⟩
  | pair hu hhigh hv hlow h ih =>
    rw [List.mem_cons, List.mem_cons, not_or, not_or] at hs
    rw [List.mem_append, not_or]
    exact ⟨zero_not_mem_widen (utf8Pair_ne_zero (isHighSurrogate_of_le hhigh)
      (isLowSurrogate_of_le hlow)), ih hs.2.2⟩

/-- No unit is lost. -/
theorem length_le (h : Reads t s o) : s.length ≤ o.length := by
  induction h with
  | nil => exact Nat.le_refl 0
  | plain hquote hback h ih => exact Nat.succ_le_succ ih
  | short he h ih => exact Nat.succ_le_succ ih
  | unit hu hpos hsingle h ih =>
    have hlength := length_utf8Unit hsingle
    rw [List.length_cons, List.length_append, widen, List.length_map]
    omega
  | pair hu hhigh hv hlow h ih =>
    rw [List.length_cons, List.length_cons, List.length_append]
    change _ ≤ 4 + _
    omega

theorem scan (h : Reads t s o) (rest : List UInt16) :
    ∃ len, scanString (t ++ quoteMark :: rest) = .ok len ∧ o.length ≤ len := by
  induction h with
  | nil => exact ⟨0, scanString_quote, Nat.le_refl 0⟩
  | plain hquote hback h ih =>
    have ⟨len, hscan, hle⟩ := ih
    rw [List.cons_append, scanString_plain hquote hback, hscan]
    exact ⟨len + 1, rfl, Nat.succ_le_succ hle⟩
  | short he h ih =>
    have ⟨len, hscan, hle⟩ := ih
    rw [List.cons_append, List.cons_append, scanString_escape, hscan]
    exact ⟨len + 1, rfl, Nat.succ_le_succ hle⟩
  | unit hu hpos hsingle h ih =>
    have ⟨len, hscan, hle⟩ := ih
    have hlength := length_utf8Unit hsingle
    simp only [List.cons_append]
    rw [scanString_hex (by omega), hscan]
    exact ⟨len + 5, rfl, by rw [List.length_append, widen, List.length_map]; omega⟩
  | pair hu hhigh hv hlow h ih =>
    have ⟨len, hscan, hle⟩ := ih
    simp only [List.cons_append]
    rw [scanString_hex (by omega), scanString_hex (by omega), hscan]
    refine ⟨len + 5 + 5, rfl, ?_⟩
    rw [List.length_append]
    change 4 + _ ≤ _
    omega

theorem decode (h : Reads t s o) (rest : List UInt16) {k : Nat} (hk : t.length < k) :
    decodeString k (t ++ quoteMark :: rest) = .ok (o, quoteMark :: rest) := by
  induction h generalizing k with
  | nil =>
    cases k with
    | zero => cases hk
    | succ k => rfl
  | plain hquote hback h ih =>
    cases k with
    | zero => cases hk
    | succ k =>
      rw [List.cons_append, decodeString_plain hquote hback, ih (Nat.lt_of_succ_lt_succ hk)]
      rfl
  | short he h ih =>
    cases k with
    | zero => cases hk
    | succ k =>
      simp only [List.length_cons] at hk
      rw [List.cons_append, List.cons_append, decodeString_escape, decodeEscape_short he]
      change (decodeString k _ >>= _) = _
      rw [ih (by omega)]
      rfl
  | unit hu hpos hsingle h ih =>
    cases k with
    | zero => cases hk
    | succ k =>
      simp only [List.length_cons] at hk
      simp only [List.cons_append]
      rw [decodeString_escape, decodeEscape_unit hu hpos hsingle]
      change (decodeString k _ >>= _) = _
      rw [ih (by omega)]
      rfl
  | pair hu hhigh hv hlow h ih =>
    cases k with
    | zero => cases hk
    | succ k =>
      simp only [List.length_cons] at hk
      simp only [List.cons_append]
      rw [decodeString_escape, decodeEscape_pair hu hhigh hv hlow]
      change (decodeString k _ >>= _) = _
      rw [ih (by omega)]
      rfl

theorem parse (h : Reads t s o) (rest : List UInt16) :
    parseString (quoteMark :: (t ++ quoteMark :: rest)) = .ok (cStr o, rest) := by
  have ⟨len, hscan, hle⟩ := h.scan rest
  have hlength : t.length < (t ++ quoteMark :: rest).length := by
    rw [List.length_append, List.length_cons]
    omega
  rw [parseString, if_pos rfl, hscan]
  change (decodeString _ _ >>= _) = _
  rw [h.decode rest hlength]
  change (if len < o.length then _ else _) = _
  rw [if_neg (Nat.not_lt.mpr hle)]
  rfl

/-- What is read is what was meant where no escape with digits is longer than its unit. -/
theorem spells (h : Reads t s o) (heq : o = s) : SpellsUnits t s := by
  induction h with
  | nil => exact .nil
  | plain hquote hback h ih => exact .plain hquote hback (ih (List.cons.inj heq).2)
  | short he h ih => exact .short he (ih (List.cons.inj heq).2)
  | @unit a b c d u t s o hu hpos hsingle h ih =>
    have hle := h.length_le
    have hlength := congrArg List.length heq
    rw [List.length_append, List.length_cons, widen, List.length_map] at hlength
    have hascii : u.toNat < 0x80 := by
      have hunit := length_utf8Unit hsingle
      omega
    have hone : widen (utf8Unit [] u) = [u] := by
      rw [← transcode_unit hsingle, transcode, if_pos hascii, UInt16.ofNat_toNat]
    rw [hone] at heq
    have hspells := SpellsUnits.hex hu hpos hascii (ih (List.cons.inj heq).2)
    rwa [UInt16.ofNat_toNat] at hspells
  | pair hu hhigh hv hlow h ih =>
    have hle := h.length_le
    have hlength := congrArg List.length heq
    rw [List.length_append, List.length_cons, List.length_cons] at hlength
    change 4 + _ = _ at hlength
    omega

end Reads

end VerifyServer.Protocol
