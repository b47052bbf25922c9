import Mathlib.Data.List.Basic

/-!
# DoublyLinked — lists of nodes in memory, linked both ways

Memory maps an address to the node that lives there; nothing lives at an address that was never
given out or was freed.  `next` and `prev` are the links of a node.
-/

namespace VerifyServer.Reasoning

variable {A ν : Type*} (next prev : ν → Option A)

/-- From `first` on the nodes are `as`, all alive, and each links back to the one before it. -/
def DoublyLinked (mem : A → Option ν) : Option A → Option A → List A → Prop
  | _, first, [] => first = none
  | before, first, a :: as =>
    first = some a ∧ ∃ n, mem a = some n ∧ prev n = before ∧ DoublyLinked mem (some a) (next n) as

variable {next prev} {mem mem' : A → Option ν} {before first : Option A} {as : List A}

namespace DoublyLinked

theorem first_eq (h : DoublyLinked next prev mem before first as) : first = as.head? := by
  cases as with
  | nil => exact h
  | cons a as => exact h.1

theorem alive (h : DoublyLinked next prev mem before first as) {a : A} (ha : a ∈ as) :
    ∃ n, mem a = some n := by
  induction as generalizing before first with
  | nil => cases ha
  | cons b as ih =>
    have ⟨_, n, hn, _, hrest⟩ := h
    cases ha with
    | head => exact ⟨n, hn⟩
    | tail _ ha => exact ih hrest ha

/-- A list depends on the links of its own nodes only. -/
theorem congr (h : DoublyLinked next prev mem before first as)
    (hsame : ∀ a ∈ as, ∀ n, mem a = some n →
      ∃ n', mem' a = some n' ∧ next n' = next n ∧ prev n' = prev n) :
    DoublyLinked next prev mem' before first as := by
  induction as generalizing before first with
  | nil => exact h
  | cons a as ih =>
    have ⟨hfirst, n, hn, hprev, hrest⟩ := h
    have ⟨n', hn', hnext', hprev'⟩ := hsame a List.mem_cons_self n hn
    have hrest' := ih hrest fun b hb => hsame b (List.mem_cons_of_mem _ hb)
    exact ⟨hfirst, n', hn', hprev'.trans hprev, hnext' ▸ hrest'⟩

/-- A node `x` put behind the last one, `a`, which links to it. -/
theorem snoc {a x : A} (h : DoublyLinked next prev mem before first (as ++ [a]))
    (hdistinct : a ∉ as)
    (hsame : ∀ b ∈ as, ∀ n, mem b = some n →
      ∃ n', mem' b = some n' ∧ next n' = next n ∧ prev n' = prev n)
    (ha : ∀ n, mem a = some n → ∃ n', mem' a = some n' ∧ next n' = some x ∧ prev n' = prev n)
    (hx : ∃ n, mem' x = some n ∧ next n = none ∧ prev n = some a) :
    DoublyLinked next prev mem' before first (as ++ [a] ++ [x]) := by
  induction as generalizing before first with
  | nil =>
    have ⟨hfirst, n, hn, hprev, _⟩ := h
    have ⟨n', hn', hnext', hprev'⟩ := ha n hn
    have ⟨k, hk, hknext, hkprev⟩ := hx
    exact ⟨hfirst, n', hn', hprev'.trans hprev, hnext', k, hk, hkprev, hknext⟩
  | cons b as ih =>
    have ⟨hfirst, n, hn, hprev, hrest⟩ := h
    have ⟨n', hn', hnext', hprev'⟩ := hsame b List.mem_cons_self n hn
    have hrest' := ih hrest (fun hmem => hdistinct (List.mem_cons_of_mem _ hmem))
      fun c hc => hsame c (List.mem_cons_of_mem _ hc)
    exact ⟨hfirst, n', hn', hprev'.trans hprev, hnext' ▸ hrest'⟩

end DoublyLinked

end VerifyServer.Reasoning
