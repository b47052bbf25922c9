import Mathlib.Data.List.Basic

/-!
# Block — a block of memory filled from its front

A block of some size is written one piece behind the other, and each piece is closed by a terminator
whose place the next piece takes.  A write that would leave the block has no result.
-/

namespace VerifyServer.Reasoning

namespace Block

variable {α β : Type*}

/-- The next piece, in a block that holds `text` so far. -/
def put (size : Nat) (text piece : List α) : Option (List α) :=
  if (text ++ piece).length < size then some (text ++ piece) else none

/-- The text in the end. -/
def fill (size : Nat) (pieces : List (List α)) : Option (List α) := pieces.foldlM (put size) []

theorem foldlM_put {size : Nat} {text : List α} {pieces : List (List α)}
    (h : text.length + pieces.flatten.length < size) :
    pieces.foldlM (put size) text = some (text ++ pieces.flatten) := by
  induction pieces generalizing text with
  | nil => simp
  | cons piece pieces ih =>
    rw [List.flatten_cons, List.length_append] at h
    have hrest : (text ++ piece).length + pieces.flatten.length < size := by
      rw [List.length_append]
      omega
    have hput : put size text piece = some (text ++ piece) :=
      if_pos (Nat.lt_of_le_of_lt (Nat.le_add_right _ _) hrest)
    rw [List.foldlM_cons, hput]
    change pieces.foldlM (put size) (text ++ piece) = _
    rw [ih hrest, List.flatten_cons, List.append_assoc]

theorem fill_eq {size : Nat} {pieces : List (List α)} (h : pieces.flatten.length < size) :
    fill size pieces = some pieces.flatten := by
  rw [fill, foldlM_put (by rwa [List.length_nil, Nat.zero_add]), List.nil_append]

/-! ## Cells -/

/-- The units are written from the place on; nothing is where nothing was written yet. -/
def poke (cells : List (Option α)) (place : Nat) (units : List α) : Option (List (Option α)) :=
  if place + units.length ≤ cells.length then
    some (cells.take place ++ (units.map some ++ cells.drop (place + units.length)))
  else none

/-- How many units stand in front of the terminator. -/
def unitsBefore [DecidableEq α] (terminator : α) : List (Option α) → Option Nat
  | some c :: cells => if c = terminator then some 0 else (· + 1) <$> unitsBefore terminator cells
  | _ => none

/-- What is written behind a text leaves the text as it is. -/
theorem poke_behind (text units : List α) (tail : List (Option α))
    (h : units.length ≤ tail.length) :
    poke (text.map some ++ tail) text.length units =
      some ((text ++ units).map some ++ tail.drop units.length) := by
  have hplace : (text.map some).length = text.length := List.length_map some
  have hfit : text.length + units.length ≤ (text.map some ++ tail).length := by
    rw [List.length_append, hplace]
    omega
  rw [poke, if_pos hfit, ← hplace, List.take_left, List.drop_length_add_append, List.map_append,
    List.append_assoc]

theorem unitsBefore_eq [DecidableEq α] {terminator : α} {units : List α}
    (h : terminator ∉ units) (tail : List (Option α)) :
    unitsBefore terminator (units.map some ++ some terminator :: tail) = some units.length := by
  induction units with
  | nil =>
    rw [List.map_nil, List.nil_append, unitsBefore, if_pos rfl]
    rfl
  | cons c units ih =>
    rw [List.mem_cons, not_or] at h
    rw [List.map_cons, List.cons_append, unitsBefore, if_neg (Ne.symm h.1), ih h.2]
    rfl

end Block

end VerifyServer.Reasoning
