import Mathlib.Data.List.Infix

/-!
# CString — searching a terminated text in memory

Memory is a list of cells, `none` for a cell that nothing was written to; a text in it ends before
its first zero.  A read of such a cell, or behind the memory, has no result.  The search reads from
left to right and compares each place only up to the first difference.
-/

namespace VerifyServer.Reasoning

variable {α : Type*} [DecidableEq α]

/-- Whether the cells begin with `pat`. -/
def startsWith : List (Option α) → List α → Option Bool
  | _, [] => some true
  | [], _ :: _ => none
  | cell :: cells, x :: pat => cell.bind fun c => if c = x then startsWith cells pat else some false

theorem startsWith_append {text pat : List α} (h : pat.length ≤ text.length)
    (rest : List (Option α)) :
    startsWith (text.map some ++ rest) pat = some (decide (pat <+: text)) := by
  induction pat generalizing text with
  | nil => rw [startsWith, decide_eq_true List.nil_prefix]
  | cons x pat ih =>
    cases text with
    | nil => cases h
    | cons c text =>
      rw [List.map_cons, List.cons_append, startsWith, Option.bind_some]
      by_cases hc : c = x
      · rw [if_pos hc, ih (Nat.le_of_succ_le_succ h), hc]
        simp only [List.cons_prefix_cons, true_and]
      · rw [if_neg hc, decide_eq_false]
        exact fun hprefix => hc (List.cons_prefix_cons.mp hprefix).1.symm

theorem prefix_of_startsWith {text pat : List α} (h : startsWith (text.map some) pat = some true) :
    pat <+: text := by
  induction pat generalizing text with
  | nil => exact List.nil_prefix
  | cons x pat ih =>
    cases text with
    | nil => cases h
    | cons c text =>
      rw [List.map_cons, startsWith, Option.bind_some] at h
      split at h
      · next hc => exact hc ▸ List.cons_prefix_cons.mpr ⟨rfl, ih h⟩
      · cases h

variable [Zero α]

/-- `strstr`: the offset of the first place where `pat` is, before the text ends. -/
def strstr (pat : List α) : List (Option α) → Option (Option Nat)
  | [] => if pat = [] then some (some 0) else none
  | cell :: cells =>
    (startsWith (cell :: cells) pat).bind fun found =>
      if found then some (some 0)
      else cell.bind fun c =>
        if c = 0 then some none else (strstr pat cells).map (Option.map (· + 1))

/-- A text without a zero that has `pat` in it is searched no further than its first place. -/
theorem strstr_of_infix {text pat : List α} (hzero : 0 ∉ text) (hne : pat ≠ [])
    (h : pat <:+: text) :
    ∃ k, (∀ rest, strstr pat (text.map some ++ rest) = some (some k)) ∧
      pat <+: text.drop k ∧ ∀ j < k, ¬pat <+: text.drop j := by
  induction text with
  | nil => exact absurd (List.infix_nil.mp h) hne
  | cons c text ih =>
    have hlen := h.length_le
    by_cases hprefix : pat <+: c :: text
    · refine ⟨0, fun rest => ?_, hprefix, nofun⟩
      have hstart := startsWith_append hlen rest
      rw [List.map_cons, List.cons_append] at hstart ⊢
      rw [strstr, hstart, decide_eq_true hprefix, Option.bind_some, if_pos rfl]
    · have hrest := (List.infix_cons_iff.mp h).resolve_left hprefix
      have ⟨k, hk, hat, hfirst⟩ := ih (fun hmem => hzero (List.mem_cons_of_mem _ hmem)) hrest
      refine ⟨k + 1, fun rest => ?_, hat, fun j hj => ?_⟩
      · have hstart := startsWith_append hlen rest
        have hc : c ≠ 0 := fun hc => hzero (hc ▸ List.mem_cons_self)
        rw [List.map_cons, List.cons_append] at hstart ⊢
        rw [strstr, hstart, decide_eq_false hprefix, Option.bind_some, if_neg Bool.false_ne_true,
          Option.bind_some, if_neg hc, hk]
        rfl
      · cases j with
        | zero => exact hprefix
        | succ j => exact hfirst j (Nat.lt_of_succ_lt_succ hj)

/-- A text without a zero that does not have `pat` in it is searched beyond its end. -/
theorem strstr_of_not_infix {text pat : List α} (hzero : 0 ∉ text) (h : ¬pat <:+: text) :
    strstr pat (text.map some) = none := by
  have hne : pat ≠ [] := fun hnil => h (hnil ▸ List.nil_infix)
  induction text with
  | nil => exact if_neg hne
  | cons c text ih =>
    have hprefix : ¬pat <+: c :: text := fun hprefix => h hprefix.isInfix
    have hrest : ¬pat <:+: text := fun hrest => h (List.infix_cons_iff.mpr (.inr hrest))
    have hc : c ≠ 0 := fun hc => hzero (hc ▸ List.mem_cons_self)
    have ih := ih (fun hmem => hzero (List.mem_cons_of_mem _ hmem)) hrest
    rw [List.map_cons, strstr]
    match hstart : startsWith (some c :: text.map some) pat with
    | none => rfl
    | some true =>
      have hstart : startsWith ((c :: text).map some) pat = some true := hstart
      exact absurd (prefix_of_startsWith hstart) hprefix
    | some false =>
      rw [Option.bind_some, if_neg Bool.false_ne_true, Option.bind_some, if_neg hc, ih]
      rfl

end VerifyServer.Reasoning
