import Mathlib

/-!
# Bytes — little-endian words and bounded copies

The two wire formats of the system write a 32-bit word byte by byte, least significant byte first,
and move blocks between arrays.  A word is a `UInt32`, an array is a `List UInt8`, and a copy that
leaves its source or its destination has no result.
-/

namespace VerifyServer.Reasoning

/-! ## 1. Little-endian words -/

/-- The four bytes of a word, least significant first. -/
def leBytes (w : UInt32) : List UInt8 :=
  [w.toUInt8, (w >>> 8).toUInt8, (w >>> 16).toUInt8, (w >>> 24).toUInt8]

def leWord (b₀ b₁ b₂ b₃ : UInt8) : UInt32 :=
  b₀.toUInt32 ||| (b₁.toUInt32 <<< 8) ||| (b₂.toUInt32 <<< 16) ||| (b₃.toUInt32 <<< 24)

/-- The word stored at index `i` of an array, as a `DWORD *` read sees it. -/
def readLeWord (buf : List UInt8) (i : Nat) : UInt32 :=
  leWord (buf.getD i 0) (buf.getD (i + 1) 0) (buf.getD (i + 2) 0) (buf.getD (i + 3) 0)

@[simp] theorem leBytes_length (w : UInt32) : (leBytes w).length = 4 := rfl

theorem leWord_leBytes (w : UInt32) :
    leWord w.toUInt8 (w >>> 8).toUInt8 (w >>> 16).toUInt8 (w >>> 24).toUInt8 = w := by
  apply UInt32.eq_of_toBitVec_eq
  simp only [leWord, UInt32.toBitVec_or, UInt32.toBitVec_shiftLeft, UInt8.toBitVec_toUInt32,
    UInt32.toBitVec_toUInt8, UInt32.toBitVec_shiftRight]
  ext i hi
  have hcases : i < 8 ∨ (8 ≤ i ∧ i < 16) ∨ (16 ≤ i ∧ i < 24) ∨ (24 ≤ i ∧ i < 32) := by omega
  rcases hcases with h | ⟨h, h'⟩ | ⟨h, h'⟩ | ⟨h, h'⟩
  · simp [h, show i < 16 by omega, show i < 24 by omega, BitVec.getLsbD_eq_getElem hi]
  · simp [h', show ¬ i < 8 by omega, show i < 24 by omega, show i - 8 < 8 by omega,
      show 8 + (i - 8) = i by omega, BitVec.getLsbD_eq_getElem hi]
  · simp [h', show ¬ i < 8 by omega, show ¬ i < 16 by omega, show ¬ i - 8 < 8 by omega,
      show i - 16 < 8 by omega, show 16 + (i - 16) = i by omega, BitVec.getLsbD_eq_getElem hi]
  · simp [show ¬ i < 8 by omega, show ¬ i < 16 by omega, show ¬ i < 24 by omega,
      show ¬ i - 8 < 8 by omega, show ¬ i - 16 < 8 by omega, show i - 24 < 8 by omega,
      show 24 + (i - 24) = i by omega, BitVec.getLsbD_eq_getElem hi]

/-- Four bytes read as a word are the bytes of that word. -/
theorem leBytes_leWord (b₀ b₁ b₂ b₃ : UInt8) :
    leBytes (leWord b₀ b₁ b₂ b₃) = [b₀, b₁, b₂, b₃] := by
  have hout (b : UInt8) {j : Nat} (hj : 8 ≤ j) : b.toBitVec.getLsbD j = false :=
    BitVec.getLsbD_of_ge b.toBitVec j hj
  simp only [leBytes, leWord, List.cons.injEq, and_true]
  refine ⟨?_, ?_, ?_, ?_⟩ <;> apply UInt8.eq_of_toBitVec_eq <;>
    simp only [UInt32.toBitVec_or, UInt32.toBitVec_shiftLeft, UInt8.toBitVec_toUInt32,
      UInt32.toBitVec_toUInt8, UInt32.toBitVec_shiftRight] <;>
    ext i hi
  · simp
  · simp [show 8 + i < 16 by omega, show 8 + i < 24 by omega, show 8 + i < 32 by omega,
      BitVec.getLsbD_eq_getElem hi]
  · simp [show 16 + i < 24 by omega, show 16 + i < 32 by omega, show 16 + i - 8 = 8 + i by omega,
      hout b₀ (show 8 ≤ 16 + i by omega), BitVec.getLsbD_eq_getElem hi]
  · simp [show 24 + i < 32 by omega, show 24 + i - 8 = 16 + i by omega,
      show 24 + i - 16 = 8 + i by omega, hout b₀ (show 8 ≤ 24 + i by omega),
      hout b₁ (show 8 ≤ 16 + i by omega), BitVec.getLsbD_eq_getElem hi]

/-- A word written after a prefix is read back at the prefix's length. -/
theorem readLeWord_append (pre post : List UInt8) (w : UInt32) :
    readLeWord (pre ++ (leBytes w ++ post)) pre.length = w := by
  have hget (k : Nat) : (pre ++ (leBytes w ++ post)).getD (pre.length + k) 0 =
      (leBytes w ++ post).getD k 0 := by
    rw [List.getD_append_right _ _ _ _ (by omega), Nat.add_sub_cancel_left]
  have hzero := hget 0
  rw [Nat.add_zero] at hzero
  rw [readLeWord, hzero, hget 1, hget 2, hget 3]
  exact leWord_leBytes w

/-- A word read depends only on the bytes up to its end. -/
theorem readLeWord_append_left (a b : List UInt8) (i : Nat) (h : i + 4 ≤ a.length) :
    readLeWord (a ++ b) i = readLeWord a i := by
  simp only [readLeWord]
  rw [List.getD_append _ _ _ _ (by omega), List.getD_append _ _ _ _ (by omega),
    List.getD_append _ _ _ _ (by omega), List.getD_append _ _ _ _ (by omega)]

/-! ## 2. Bounded copies -/

/-- Copy `src` over `dst` from index `at_` on; no result when it does not fit. -/
def blit (dst : List UInt8) (at_ : Nat) (src : List UInt8) : Option (List UInt8) :=
  if at_ + src.length ≤ dst.length then
    some (dst.take at_ ++ src ++ dst.drop (at_ + src.length))
  else
    none

theorem blit_eq_some {dst src : List UInt8} {at_ : Nat} (h : at_ + src.length ≤ dst.length) :
    blit dst at_ src = some (dst.take at_ ++ src ++ dst.drop (at_ + src.length)) := if_pos h

/-- A copy has a result only inside the destination. -/
theorem blit_fits {dst src out : List UInt8} {at_ : Nat} (h : blit dst at_ src = some out) :
    at_ + src.length ≤ dst.length := by
  unfold blit at h
  split at h
  · assumption
  · cases h

theorem blit_length {dst src out : List UInt8} {at_ : Nat} (h : blit dst at_ src = some out) :
    out.length = dst.length := by
  unfold blit at h
  split at h
  · rename_i hfit
    obtain rfl := Option.some.inj h
    simp only [List.length_append, List.length_take, List.length_drop]
    omega
  · cases h

/-- The written window and everything before it, read back. -/
theorem blit_take {dst src out : List UInt8} {at_ : Nat} (h : blit dst at_ src = some out) :
    out.take (at_ + src.length) = dst.take at_ ++ src := by
  unfold blit at h
  split at h
  · rename_i hfit
    obtain rfl := Option.some.inj h
    exact List.take_left' (by simp only [List.length_append, List.length_take]; omega)
  · cases h

end VerifyServer.Reasoning
