import VerifyServer.Socket.Wellformed

/-!
# Segmentation — what a stream delivers, however TCP cuts it

Where a packet should start and the bytes are no header, `SaveData` drops what it has in front of it:
the whole rest of the chunk.  A packet behind the junk is lost when it came in the same chunk and
delivered when it came in a later one.
-/

open VerifyServer.Reasoning

namespace VerifyServer.Socket

/-! ## 1. Streams -/

/-- Every length field in the stream, wherever it may be read, is below `2 ^ 31`. -/
def AllFit (s : List UInt8) : Prop := ∀ i, noPacket ≤ getPacketLen (s.drop i)

/-- A whole packet lies at the front. -/
def Complete (s : List UInt8) : Prop := 0 ≤ getPacketLen s ∧ getPacketLen s ≤ s.length

instance (s : List UInt8) : Decidable (AllFit s) :=
  decidable_of_iff (∀ i < s.length, noPacket ≤ getPacketLen (s.drop i)) <| by
    refine ⟨fun h i => ?_, fun h i _ => h i⟩
    by_cases hi : i < s.length
    · exact h i hi
    · rw [List.drop_of_length_le (by omega)]
      decide

theorem AllFit.drop {s : List UInt8} (h : AllFit s) (j : Nat) : AllFit (s.drop j) := by
  intro i
  rw [List.drop_drop]
  exact h _

theorem AllFit.left {s r : List UInt8} (h : AllFit (s ++ r)) : AllFit s := by
  intro i
  by_cases hshort : (s.drop i).length ≤ 10
  · exact (getPacketLen_short hshort).ge
  · have hi : i ≤ s.length := by rw [List.length_drop] at hshort; omega
    have := h i
    rwa [List.drop_append_of_le_length hi, getPacketLen_append (by omega)] at this

theorem AllFit.fit {s : List UInt8} (h : AllFit s) : LengthsFit s := fun i _ => h i

theorem Boundary.trans {s : List UInt8} {i j : Nat} (hi : Boundary s i)
    (hj : Boundary (s.drop i) j) : Boundary s (i + j) := by
  induction hi with
  | here => rwa [List.drop_zero, ← Nat.zero_add j] at hj
  | @next s n i hn hle _ ih =>
    rw [Nat.add_assoc]
    apply Boundary.next hn hle
    apply ih
    rwa [List.drop_drop]

-- the frame of `{}` with parameter 50
private def emptyObject : List UInt8 :=
  [0x53, 0x3A, 50, 0, 0, 0, 17, 0, 0, 0, 0x7B, 0x7D, 0xF8, 0, 0, 0, 0x45]

end VerifyServer.Socket
