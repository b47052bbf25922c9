import Mathlib.Data.List.Infix

/-!
# Region — copying inside one allocated region

A region is the list of its cells.  A copy that leaves the region has no result.  The lemmas follow
a text that fills the front of the region.
-/

namespace VerifyServer.Reasoning

variable {α : Type*}

/-- The `n` cells from `off`. -/
def load (mem : List α) (off n : Nat) : Option (List α) :=
  if off + n ≤ mem.length then some ((mem.drop off).take n) else none

def store (mem : List α) (off : Nat) (cells : List α) : Option (List α) :=
  if off + cells.length ≤ mem.length then
    some (mem.take off ++ (cells ++ mem.drop (off + cells.length)))
  else none

/-- The ranges may overlap: the source is read before anything is written. -/
def move (mem : List α) (dst src n : Nat) : Option (List α) :=
  (load mem src n).bind (store mem dst)

theorem load_front {mem text : List α} (h : text <+: mem) {n : Nat} (hn : n ≤ text.length) :
    load mem 0 n = some (text.take n) := by
  have ⟨rest, hrest⟩ := h
  have hlen := h.length_le
  rw [load, if_pos (by omega), List.drop_zero, ← hrest, List.take_append_of_le_length hn]

theorem load_of_le {mem : List α} {off n : Nat} (h : off + n ≤ mem.length) :
    load mem off n = some ((mem.drop off).take n) := if_pos h

theorem length_store {mem mem' cells : List α} {off : Nat} (h : store mem off cells = some mem') :
    mem'.length = mem.length := by
  unfold store at h
  split at h
  · rw [← Option.some.inj h]
    simp only [List.length_append, List.length_take, List.length_drop]
    omega
  · cases h

/-- Cells stored behind the text. -/
theorem store_behind {mem text cells : List α} (h : text <+: mem)
    (hroom : text.length + cells.length ≤ mem.length) :
    ∃ mem', store mem text.length cells = some mem' ∧ text ++ cells <+: mem' := by
  have ⟨rest, hrest⟩ := h
  refine ⟨_, if_pos hroom, mem.drop (text.length + cells.length), ?_⟩
  rw [← hrest, List.take_left, List.append_assoc]

theorem store_front {mem cells : List α} (hroom : cells.length ≤ mem.length) :
    ∃ mem', store mem 0 cells = some mem' ∧ cells <+: mem' :=
  ⟨_, if_pos (by omega), List.prefix_append _ _⟩

/-- Cells stored before the text. -/
theorem store_before {mem text cells : List α} (h : text <+: mem.drop cells.length)
    (hroom : cells.length ≤ mem.length) :
    ∃ mem', store mem 0 cells = some mem' ∧ cells ++ text <+: mem' := by
  have ⟨rest, hrest⟩ := h
  refine ⟨_, if_pos (by omega), rest, ?_⟩
  rw [List.take_zero, List.nil_append, Nat.zero_add, List.append_assoc, hrest]

/-- The whole region moved to its front: the text loses its first cells. -/
theorem move_down {mem text : List α} (h : text <+: mem) {n : Nat} (hn : n ≤ text.length) :
    ∃ mem', move mem 0 n (mem.length - n) = some mem' ∧ text.drop n <+: mem' := by
  have ⟨rest, hrest⟩ := h
  have hlen := h.length_le
  have hmoved : (mem.drop n).take (mem.length - n) = mem.drop n :=
    List.take_of_length_le (by rw [List.length_drop])
  rw [move, load_of_le (by omega), hmoved]
  have hstore : 0 + (mem.drop n).length ≤ mem.length := by
    rw [List.length_drop]
    omega
  refine ⟨_, if_pos hstore, ?_⟩
  refine ⟨rest ++ mem.drop (0 + (mem.drop n).length), ?_⟩
  rw [List.take_zero, List.nil_append, ← List.append_assoc]
  congr 1
  rw [← hrest, List.drop_append_of_le_length hn]

/-- The whole region moved up: the text is `n` cells further on. -/
theorem move_up {mem text : List α} (h : text <+: mem) {n : Nat}
    (hroom : n + text.length ≤ mem.length) :
    ∃ mem', move mem n 0 (mem.length - n) = some mem' ∧ text <+: mem'.drop n := by
  have ⟨rest, hrest⟩ := h
  have hlen : (mem.take (mem.length - n)).length = mem.length - n :=
    List.length_take_of_le (by omega)
  rw [move, load_of_le (by omega), List.drop_zero, Option.bind_some]
  refine ⟨_, if_pos (by omega), ?_⟩
  have htake : (mem.take n).length = n := List.length_take_of_le (by omega)
  rw [List.drop_append_of_le_length (by omega), List.drop_of_length_le (by omega),
    List.nil_append]
  have htext : text <+: mem.take (mem.length - n) :=
    List.prefix_take_iff.mpr ⟨h, by omega⟩
  exact htext.trans (List.prefix_append _ _)

theorem length_move {mem mem' : List α} {dst src n : Nat} (h : move mem dst src n = some mem') :
    mem'.length = mem.length := by
  have ⟨_, _, hstore⟩ := Option.bind_eq_some_iff.mp h
  exact length_store hstore

end VerifyServer.Reasoning
