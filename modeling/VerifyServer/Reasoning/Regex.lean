import Mathlib

/-!
# Regex — patterns matched by backtracking

A pattern has at most one group.  What it matches at a position is the list of its successes in
the order a backtracking matcher tries them, so a greedy repetition lists the longest match first.
-/

namespace VerifyServer.Reasoning

inductive Regex (α : Type*) where
  | empty
  | one (p : α → Bool)
  | many (p : α → Bool)
  | seq (r t : Regex α)
  | alt (r t : Regex α)
  | group (r : Regex α)

namespace Regex

variable {α : Type*}

/-- The text of the group, when the match went through it, and what the match left. -/
structure Success (α : Type*) where
  captured : Option (List α)
  rest : List α
  deriving DecidableEq

def Success.extend (tail : List α) (m : Success α) : Success α := ⟨m.captured, m.rest ++ tail⟩

/-- What a greedy repetition of one class can leave. -/
def manyRests (p : α → Bool) : List α → List (List α)
  | [] => [[]]
  | c :: cs => if p c then manyRests p cs ++ [c :: cs] else [c :: cs]

def successes : Regex α → List α → List (Success α)
  | empty, s => [⟨none, s⟩]
  | one _, [] => []
  | one p, c :: cs => if p c then [⟨none, cs⟩] else []
  | many p, s => (manyRests p s).map fun rest => ⟨none, rest⟩
  | seq r t, s => (r.successes s).flatMap fun m =>
      (t.successes m.rest).map fun n => ⟨m.captured.or n.captured, n.rest⟩
  | alt r t, s => r.successes s ++ t.successes s
  | group r, s => (r.successes s).map fun m => ⟨some (s.take (s.length - m.rest.length)), m.rest⟩

section Equations

variable (p : α → Bool) (r t : Regex α) (c : α) (cs s : List α)

theorem manyRests_nil : manyRests p [] = [[]] := rfl

theorem manyRests_cons :
    manyRests p (c :: cs) = if p c then manyRests p cs ++ [c :: cs] else [c :: cs] := rfl

theorem one_nil : (one p).successes [] = [] := rfl

theorem one_cons : (one p).successes (c :: cs) = if p c then [⟨none, cs⟩] else [] := rfl

theorem many_successes :
    (many p).successes s = (manyRests p s).map fun rest => ⟨none, rest⟩ := rfl

theorem seq_successes : (seq r t).successes s = (r.successes s).flatMap fun m =>
    (t.successes m.rest).map fun n => ⟨m.captured.or n.captured, n.rest⟩ := rfl

theorem alt_successes : (alt r t).successes s = r.successes s ++ t.successes s := rfl

theorem group_successes : (group r).successes s =
    (r.successes s).map fun m => ⟨some (s.take (s.length - m.rest.length)), m.rest⟩ := rfl

end Equations

/-- The match at the first position that has one. -/
def find (r : Regex α) : List α → Option (Success α)
  | [] => (r.successes []).head?
  | c :: cs => (r.successes (c :: cs)).head?.or (find r cs)

theorem find_nil (r : Regex α) : find r [] = (r.successes []).head? := rfl

theorem find_cons (r : Regex α) (c : α) (cs : List α) :
    find r (c :: cs) = (r.successes (c :: cs)).head?.or (find r cs) := rfl

/-- The first `n` matches, each searched from where the one before it ended. -/
def findAll (r : Regex α) : Nat → List α → List (Success α)
  | 0, _ => []
  | n + 1, s =>
    match find r s with
    | none => []
    | some m => m :: findAll r n m.rest

def plus (p : α → Bool) : Regex α := seq (one p) (many p)

/-- One class after the other. -/
def word : List (α → Bool) → Regex α
  | [] => empty
  | p :: ps => seq (one p) (word ps)

/-! ## Greedy repetition -/

theorem manyRests_head? (p : α → Bool) (s : List α) :
    (manyRests p s).head? = some (s.dropWhile p) := by
  induction s with
  | nil => rfl
  | cons c cs ih =>
    rw [manyRests_cons]
    by_cases hc : p c = true
    · rw [if_pos hc, List.head?_append, ih, List.dropWhile_cons_of_pos hc]
      rfl
    · rw [if_neg hc, List.dropWhile_cons_of_neg hc]
      rfl

/-- A greedy group takes all it can. -/
theorem group_many_head? (p : α → Bool) (s : List α) :
    ((group (many p)).successes s).head? = some ⟨some (s.takeWhile p), s.dropWhile p⟩ := by
  have htake : s.take (s.length - (s.dropWhile p).length) = s.takeWhile p := by
    have hlen := congrArg List.length (List.takeWhile_append_dropWhile (p := p) (l := s))
    rw [List.length_append] at hlen
    rw [show s.length - (s.dropWhile p).length = (s.takeWhile p).length by omega]
    exact (List.prefix_iff_eq_take.mp (List.takeWhile_prefix p)).symm
  rw [group_successes, many_successes, List.map_map, List.head?_map, manyRests_head?, ← htake]
  rfl

/-- After a prefix of its class, a repetition comes down to the tail through shorter ones. -/
theorem manyRests_prefix {p : α → Bool} {s : List α} (hs : ∀ c ∈ s, p c = true) (c : α)
    (t : List α) :
    ∃ pre post, manyRests p (s ++ c :: t) = pre ++ (c :: t) :: post ∧
      ∀ u ∈ pre, u ∈ manyRests p t := by
  induction s with
  | nil =>
    rw [List.nil_append, manyRests_cons]
    by_cases hc : p c = true
    · rw [if_pos hc]
      exact ⟨manyRests p t, [], rfl, fun u hu => hu⟩
    · rw [if_neg hc]
      exact ⟨[], [], rfl, fun u hu => absurd hu List.not_mem_nil⟩
  | cons d s ih =>
    have ⟨pre, post, heq, hpre⟩ := ih fun x hx => hs x (List.mem_cons_of_mem _ hx)
    refine ⟨pre, post ++ [d :: (s ++ c :: t)], ?_, hpre⟩
    rw [List.cons_append, manyRests_cons, if_pos (hs d (List.mem_cons_self ..)), heq,
      List.append_assoc, List.cons_append]

/-! ## Searching -/

variable {r t : Regex α}

theorem successes_of_find_none {s : List α} (h : find r s = none) : r.successes s = [] := by
  cases s with
  | nil => exact List.head?_eq_none_iff.mp h
  | cons c cs => exact List.head?_eq_none_iff.mp (Option.or_eq_none_iff.mp h).1

theorem successes_manyRests_of_find_none (p : α → Bool) {s : List α} (h : find r s = none) :
    ∀ u ∈ manyRests p s, r.successes u = [] := by
  induction s with
  | nil =>
    intro u hu
    rw [manyRests_nil, List.mem_singleton] at hu
    rw [hu]
    exact successes_of_find_none h
  | cons c cs ih =>
    have hcs : find r cs = none := (Option.or_eq_none_iff.mp h).2
    intro u hu
    rw [manyRests_cons] at hu
    split at hu
    · rcases List.mem_append.mp hu with hu | hu
      · exact ih hcs u hu
      · rw [List.mem_singleton.mp hu]
        exact successes_of_find_none h
    · rw [List.mem_singleton.mp hu]
      exact successes_of_find_none h

/-- A pattern is not found where its first part is not. -/
theorem find_seq_none {s : List α} (h : find r s = none) : find (seq r t) s = none := by
  induction s with
  | nil => rw [find_nil, seq_successes, successes_of_find_none h]; rfl
  | cons c cs ih =>
    rw [find_cons, seq_successes, successes_of_find_none h, ih (Option.or_eq_none_iff.mp h).2]
    rfl

theorem find_seq_of_successes {s : List α} {m n : Success α} {ms : List (Success α)}
    (hr : r.successes s = m :: ms) (ht : (t.successes m.rest).head? = some n) :
    ((seq r t).successes s).head? = some ⟨m.captured.or n.captured, n.rest⟩ := by
  rw [seq_successes, hr, List.flatMap_cons, List.head?_append, List.head?_map, ht]
  rfl

/-- Where the first part is found and the second goes on from there, both are found. -/
theorem find_seq {s : List α} {m n : Success α} (hr : find r s = some m)
    (ht : (t.successes m.rest).head? = some n) :
    find (seq r t) s = some ⟨m.captured.or n.captured, n.rest⟩ := by
  induction s with
  | nil =>
    have ⟨ms, hms⟩ := List.head?_eq_some_iff.mp hr
    exact find_seq_of_successes hms ht
  | cons c cs ih =>
    rw [find_cons] at hr ⊢
    cases hc : r.successes (c :: cs) with
    | nil =>
      rw [hc] at hr
      rw [show (seq r t).successes (c :: cs) = [] by rw [seq_successes, hc]; rfl]
      exact ih hr
    | cons m' ms =>
      rw [hc] at hr
      have hm : m' = m := Option.some.inj hr
      rw [find_seq_of_successes hc (hm ▸ ht), hm]
      rfl

theorem find_one_none {p : α → Bool} {s : List α} (h : ∀ c ∈ s, p c = false) :
    find (one p) s = none := by
  induction s with
  | nil => rfl
  | cons c cs ih =>
    rw [find_cons, one_cons, if_neg (by rw [h c (List.mem_cons_self ..)]; decide),
      ih fun x hx => h x (List.mem_cons_of_mem _ hx)]
    rfl

/-- A greedy group between two parts ends where the part after it is found last. -/
theorem group_many_last {p : α → Bool} {s u : List α} {c : α} {n : Success α}
    (hs : ∀ x ∈ s, p x = true) (hlast : find t u = none)
    (ht : (t.successes (c :: u)).head? = some n) :
    ((seq (group (many p)) t).successes (s ++ c :: u)).head? = some ⟨some s, n.rest⟩ := by
  have ⟨pre, post, heq, hpre⟩ := manyRests_prefix hs c u
  have hnone : ∀ v ∈ pre, t.successes v = [] :=
    fun v hv => successes_manyRests_of_find_none p hlast v (hpre v hv)
  have htake : (s ++ c :: u).take ((s ++ c :: u).length - (c :: u).length) = s := by
    rw [List.length_append, Nat.add_sub_cancel]
    exact List.take_left
  rw [seq_successes, group_successes, many_successes, heq, List.map_map, List.flatMap_map,
    List.flatMap_append, List.flatMap_cons, List.flatMap_eq_nil_iff.mpr fun v hv => by
      show (t.successes v).map _ = []
      rw [hnone v hv]
      rfl]
  show ((t.successes (c :: u)).map _ ++ _).head? = _
  rw [List.head?_append, List.head?_map, ht]
  show some (Success.mk (some ((s ++ c :: u).take _)) n.rest) = _
  rw [htake]

/-! ## Where a pattern matches -/

/-- A repetition takes characters of its class. -/
theorem mem_manyRests {p : α → Bool} {s rest : List α} (h : rest ∈ manyRests p s) :
    ∃ taken, s = taken ++ rest ∧ ∀ c ∈ taken, p c = true := by
  induction s with
  | nil =>
    rw [manyRests_nil, List.mem_singleton] at h
    exact ⟨[], h.symm, nofun⟩
  | cons c cs ih =>
    rw [manyRests_cons] at h
    split at h
    · next hc =>
      rcases List.mem_append.mp h with h | h
      · have ⟨taken, heq, htaken⟩ := ih h
        exact ⟨c :: taken, congrArg (c :: ·) heq, List.forall_mem_cons.mpr ⟨hc, htaken⟩⟩
      · exact ⟨[], (List.mem_singleton.mp h).symm, nofun⟩
    · exact ⟨[], (List.mem_singleton.mp h).symm, nofun⟩

theorem mem_manyRests_append {p : α → Bool} {taken : List α} (h : ∀ c ∈ taken, p c = true)
    (rest : List α) : rest ∈ manyRests p (taken ++ rest) := by
  induction taken with
  | nil =>
    cases rest with
    | nil => exact List.mem_singleton_self _
    | cons c cs =>
      rw [List.nil_append, manyRests_cons]
      split
      · exact List.mem_append_right _ (List.mem_singleton_self _)
      · exact List.mem_singleton_self _
  | cons c cs ih =>
    rw [List.cons_append, manyRests_cons, if_pos (h c List.mem_cons_self)]
    exact List.mem_append_left _ (ih fun x hx => h x (List.mem_cons_of_mem _ hx))

theorem manyRests_sorted (p : α → Bool) (s : List α) :
    (manyRests p s).Pairwise fun u v => u.length < v.length := by
  induction s with
  | nil => exact List.pairwise_singleton ..
  | cons c cs ih =>
    rw [manyRests_cons]
    split
    · apply List.pairwise_append.mpr
      refine ⟨ih, List.pairwise_singleton .., fun u hu v hv => ?_⟩
      have ⟨taken, heq, _⟩ := mem_manyRests hu
      have hlen := congrArg List.length heq
      rw [List.length_append] at hlen
      rw [List.mem_singleton.mp hv, List.length_cons]
      omega
    · exact List.pairwise_singleton ..

/-- What a greedy group takes, and what is left to the pattern after it. -/
theorem mem_group_many {p : α → Bool} {t : Regex α} {s : List α} {m : Success α} :
    m ∈ (seq (group (many p)) t).successes s ↔
      ∃ taken rest n, s = taken ++ rest ∧ (∀ c ∈ taken, p c = true) ∧ n ∈ t.successes rest ∧
        m = ⟨some taken, n.rest⟩ := by
  have htake : ∀ taken rest : List α,
      (taken ++ rest).take ((taken ++ rest).length - rest.length) = taken := by
    intro taken rest
    rw [List.length_append, Nat.add_sub_cancel]
    exact List.take_left
  rw [seq_successes, group_successes, many_successes, List.map_map, List.flatMap_map,
    List.mem_flatMap]
  constructor
  · intro ⟨rest, hrest, hm⟩
    have ⟨taken, hs, htaken⟩ := mem_manyRests hrest
    have ⟨n, hn, heq⟩ := List.mem_map.mp hm
    refine ⟨taken, rest, n, hs, htaken, hn, ?_⟩
    rw [← heq, hs]
    exact congrArg (fun x => Success.mk (some x) n.rest) (htake taken rest)
  · intro ⟨taken, rest, n, hs, htaken, hn, heq⟩
    refine ⟨rest, hs ▸ mem_manyRests_append htaken rest, List.mem_map.mpr ⟨n, hn, ?_⟩⟩
    rw [heq, hs]
    exact congrArg (fun x => Success.mk (some x) n.rest) (htake taken rest)

/-- A greedy group takes at first the most that it takes at all. -/
theorem group_many_longest {p : α → Bool} {t : Regex α} {s : List α} {m n : Success α}
    (hm : ((seq (group (many p)) t).successes s).head? = some m)
    (hn : n ∈ (seq (group (many p)) t).successes s) :
    (n.captured.getD []).length ≤ (m.captured.getD []).length := by
  have hsorted : ((seq (group (many p)) t).successes s).Pairwise fun m n =>
      (n.captured.getD []).length ≤ (m.captured.getD []).length := by
    rw [seq_successes, group_successes, many_successes, List.map_map, List.flatMap_map,
      List.pairwise_flatMap]
    constructor
    · intro rest _
      apply List.pairwise_map.mpr
      exact List.pairwise_of_forall fun _ _ => le_refl _
    · apply (manyRests_sorted p s).imp
      intro u v huv x hx y hy
      have ⟨_, _, hx⟩ := List.mem_map.mp hx
      have ⟨_, _, hy⟩ := List.mem_map.mp hy
      rw [← hx, ← hy]
      change (s.take (s.length - v.length)).length ≤ (s.take (s.length - u.length)).length
      rw [List.length_take, List.length_take]
      omega
  have ⟨ms, hms⟩ := List.head?_eq_some_iff.mp hm
  rw [hms] at hsorted hn
  cases hn with
  | head => exact le_refl _
  | tail _ hn => exact (List.pairwise_cons.mp hsorted).1 n hn

/-- A pattern is not found just when it matches at no position. -/
theorem find_eq_none_iff {s : List α} :
    find r s = none ↔ ∀ v, v <:+ s → r.successes v = [] := by
  induction s with
  | nil =>
    rw [find_nil, List.head?_eq_none_iff]
    exact ⟨fun h v hv => List.suffix_nil.mp hv ▸ h, fun h => h [] (List.suffix_refl _)⟩
  | cons c cs ih =>
    rw [find_cons, Option.or_eq_none_iff, List.head?_eq_none_iff, ih]
    constructor
    · intro h v hv
      rcases List.suffix_cons_iff.mp hv with rfl | hv
      · exact h.1
      · exact h.2 v hv
    · exact fun h => ⟨h _ (List.suffix_refl _), fun v hv => h v (hv.trans (List.suffix_cons ..))⟩

/-- A pattern is found at the first position where it matches. -/
theorem find_eq_some {s : List α} {m : Success α} (h : find r s = some m) :
    ∃ v, v <:+ s ∧ (r.successes v).head? = some m ∧
      ∀ u, u <:+ s → r.successes u ≠ [] → u.length ≤ v.length := by
  induction s with
  | nil =>
    refine ⟨[], List.suffix_refl _, h, fun u hu _ => ?_⟩
    rw [List.suffix_nil.mp hu]
  | cons c cs ih =>
    rw [find_cons, Option.or_eq_some_iff] at h
    rcases h with h | ⟨hnone, h⟩
    · exact ⟨c :: cs, List.suffix_refl _, h, fun u hu _ => hu.length_le⟩
    · have ⟨v, hv, hhead, hfirst⟩ := ih h
      refine ⟨v, hv.trans (List.suffix_cons ..), hhead, fun u hu hne => ?_⟩
      rcases List.suffix_cons_iff.mp hu with rfl | hu
      · exact absurd (List.head?_eq_none_iff.mp hnone) hne
      · exact hfirst u hu hne

/-- Both parts of a sequence, when the first matches in one way. -/
theorem seq_successes_of_singleton {s : List α} {m : Success α} (h : r.successes s = [m]) :
    (seq r t).successes s =
      (t.successes m.rest).map fun n => ⟨m.captured.or n.captured, n.rest⟩ := by
  rw [seq_successes, h, List.flatMap_cons, List.flatMap_nil, List.append_nil]

/-! ## Patterns without a group -/

def HasGroup : Regex α → Prop
  | empty | one _ | many _ => False
  | seq r t | alt r t => r.HasGroup ∨ t.HasGroup
  | group _ => True

theorem successes_captured_none (h : ¬ r.HasGroup) {s : List α} {m : Success α}
    (hm : m ∈ r.successes s) : m.captured = none := by
  induction r generalizing s m with
  | empty =>
    rw [List.mem_singleton.mp hm]
  | one p =>
    cases s with
    | nil => exact absurd hm List.not_mem_nil
    | cons c cs =>
      rw [one_cons] at hm
      split at hm
      · rw [List.mem_singleton.mp hm]
      · exact absurd hm List.not_mem_nil
  | many p =>
    have ⟨_, _, heq⟩ := List.mem_map.mp hm
    rw [← heq]
  | seq r t ihr iht =>
    have ⟨m', hm', hn⟩ := List.mem_flatMap.mp hm
    have ⟨n, hn', heq⟩ := List.mem_map.mp hn
    rw [← heq, ihr (fun hr => h (.inl hr)) hm', iht (fun ht => h (.inr ht)) hn']
    rfl
  | alt r t ihr iht =>
    rcases List.mem_append.mp hm with hm | hm
    · exact ihr (fun hr => h (.inl hr)) hm
    · exact iht (fun ht => h (.inr ht)) hm
  | group r _ => exact absurd trivial h

/-- A match of a pattern without a group has none to ask for. -/
theorem find_captured_none (h : ¬ r.HasGroup) {s : List α} {m : Success α}
    (hm : find r s = some m) : m.captured = none := by
  induction s with
  | nil => exact successes_captured_none h (List.mem_of_mem_head? hm)
  | cons c cs ih =>
    rw [find_cons, Option.or_eq_some_iff] at hm
    rcases hm with hm | ⟨_, hm⟩
    · exact successes_captured_none h (List.mem_of_mem_head? hm)
    · exact ih hm

/-! ## The texts a pattern takes -/

/-- A pattern without a group takes exactly the texts of `P`. -/
def Takes (r : Regex α) (P : List α → Prop) : Prop :=
  ∀ (s : List α) (m : Success α),
    m ∈ r.successes s ↔ m.captured = none ∧ ∃ u, s = u ++ m.rest ∧ P u

/-- `rest` stands behind the first text of `P` in `s`. -/
def FirstAfter (P : List α → Prop) (s rest : List α) : Prop :=
  ∃ pre u, s = pre ++ (u ++ rest) ∧ P u ∧
    ∀ pre' v rest', s = pre' ++ (v ++ rest') → P v → pre.length ≤ pre'.length

/-- No text of `P` begins another one. -/
def PrefixFree (P : List α → Prop) : Prop := ∀ u v, P u → P v → u <+: v → u = v

theorem takes_one (p : α → Bool) : (one p).Takes fun u => ∃ c, u = [c] ∧ p c = true := by
  intro s m
  cases s with
  | nil =>
    rw [one_nil]
    refine iff_of_false List.not_mem_nil ?_
    rintro ⟨_, u, hu, c, rfl, _⟩
    cases hu
  | cons c cs =>
    rw [one_cons]
    constructor
    · intro h
      split at h
      · next hc =>
        rw [List.mem_singleton.mp h]
        exact ⟨rfl, [c], rfl, c, rfl, hc⟩
      · cases h
    · rintro ⟨hnone, u, hu, d, rfl, hd⟩
      have ⟨hc, hcs⟩ := List.cons.inj hu
      rw [hc, if_pos hd, hcs, List.mem_singleton, ← hnone]
      rfl

theorem takes_many (p : α → Bool) : (many p).Takes fun u => ∀ c ∈ u, p c = true := by
  intro s m
  rw [many_successes, List.mem_map]
  constructor
  · intro ⟨rest, hrest, heq⟩
    have ⟨taken, hs, htaken⟩ := mem_manyRests hrest
    rw [← heq]
    exact ⟨rfl, taken, hs, htaken⟩
  · intro ⟨hnone, u, hs, hu⟩
    refine ⟨m.rest, hs ▸ mem_manyRests_append hu m.rest, ?_⟩
    rw [← hnone]

theorem Takes.seq {P Q : List α → Prop} (hr : r.Takes P) (ht : t.Takes Q) :
    (seq r t).Takes fun w => ∃ u v, w = u ++ v ∧ P u ∧ Q v := by
  intro s m
  rw [seq_successes, List.mem_flatMap]
  constructor
  · intro ⟨m', hm', hm⟩
    have ⟨n, hn, heq⟩ := List.mem_map.mp hm
    have ⟨hnone, u, hs, hu⟩ := (hr s m').mp hm'
    have ⟨hnone', v, hrest, hv⟩ := (ht m'.rest n).mp hn
    rw [← heq]
    refine ⟨by rw [hnone, hnone']; rfl, u ++ v, ?_, u, v, rfl, hu, hv⟩
    rw [hs, hrest, List.append_assoc]
  · rintro ⟨hnone, w, hs, u, v, rfl, hu, hv⟩
    refine ⟨⟨none, v ++ m.rest⟩, (hr _ _).mpr ⟨rfl, u, by rw [hs, List.append_assoc], hu⟩, ?_⟩
    refine List.mem_map.mpr ⟨m, (ht _ _).mpr ⟨hnone, v, rfl, hv⟩, ?_⟩
    rw [Option.none_or]

theorem Takes.congr {P Q : List α → Prop} (h : r.Takes P) (heq : ∀ u, P u ↔ Q u) : r.Takes Q := by
  intro s m
  rw [h s m]
  simp only [heq]

theorem takes_plus (p : α → Bool) :
    (plus p).Takes fun u => u ≠ [] ∧ ∀ c ∈ u, p c = true := by
  apply ((takes_one p).seq (takes_many p)).congr
  intro u
  constructor
  · rintro ⟨_, v, rfl, ⟨c, rfl, hc⟩, hv⟩
    exact ⟨List.cons_ne_nil c v, List.forall_mem_cons.mpr ⟨hc, hv⟩⟩
  · intro ⟨hne, hu⟩
    have ⟨c, cs, heq⟩ := List.exists_cons_of_ne_nil hne
    rw [heq, List.forall_mem_cons] at hu
    exact ⟨[c], cs, heq, ⟨c, rfl, hu.1⟩, hu.2⟩

section Search

variable {P : List α → Prop}

/-- A pattern is not found just when none of its texts stands anywhere. -/
theorem Takes.find_none_iff (h : r.Takes P) {s : List α} :
    find r s = none ↔ ∀ u, P u → ¬u <:+: s := by
  rw [find_eq_none_iff]
  constructor
  · rintro hnone u hu ⟨pre, rest, hs⟩
    have hmem : ⟨none, rest⟩ ∈ r.successes (u ++ rest) := (h _ _).mpr ⟨rfl, u, rfl, hu⟩
    rw [hnone _ ⟨pre, by rw [← hs, List.append_assoc]⟩] at hmem
    cases hmem
  · rintro hno v ⟨pre, hv⟩
    rw [List.eq_nil_iff_forall_not_mem]
    intro m hm
    have ⟨_, u, hs, hu⟩ := (h v m).mp hm
    exact hno u hu ⟨pre, m.rest, by rw [← hv, hs, List.append_assoc]⟩

theorem FirstAfter.unique (hfree : PrefixFree P) {s rest rest' : List α} (h : FirstAfter P s rest)
    (h' : FirstAfter P s rest') : rest = rest' := by
  have ⟨pre, u, hs, hu, hfirst⟩ := h
  have ⟨pre', v, hs', hv, hfirst'⟩ := h'
  have hlen : pre.length = pre'.length :=
    Nat.le_antisymm (hfirst _ _ _ hs' hv) (hfirst' _ _ _ hs hu)
  have htail := (List.append_inj (hs.symm.trans hs') hlen).2
  have huv : u = v := by
    rcases Nat.le_total u.length v.length with hle | hle
    · exact hfree u v hu hv (List.prefix_of_prefix_length_le ⟨_, rfl⟩ ⟨_, htail.symm⟩ hle)
    · exact (hfree v u hv hu (List.prefix_of_prefix_length_le ⟨_, rfl⟩ ⟨_, htail⟩ hle)).symm
  rw [huv] at htail
  exact List.append_cancel_left htail

theorem Takes.captured_none (h : r.Takes P) {s : List α} {m : Success α} (hm : find r s = some m) :
    m.captured = none := by
  have ⟨v, _, hhead, _⟩ := find_eq_some hm
  exact ((h v m).mp (List.mem_of_mem_head? hhead)).1

/-- What a found pattern leaves stands behind the first of its texts. -/
theorem Takes.find_iff (h : r.Takes P) (hfree : PrefixFree P) {s rest : List α} :
    find r s = some ⟨none, rest⟩ ↔ FirstAfter P s rest := by
  have hfound : ∀ m, find r s = some m → FirstAfter P s m.rest := by
    intro m hm
    have ⟨v, ⟨pre, hpre⟩, hhead, hfirst⟩ := find_eq_some hm
    have ⟨_, u, hv, hu⟩ := (h v m).mp (List.mem_of_mem_head? hhead)
    refine ⟨pre, u, by rw [← hpre, hv], hu, fun pre' w rest' hs hw => ?_⟩
    have hmem : ⟨none, rest'⟩ ∈ r.successes (w ++ rest') := (h _ _).mpr ⟨rfl, w, rfl, hw⟩
    have hle := hfirst _ ⟨pre', hs.symm⟩ (List.ne_nil_of_mem hmem)
    have hlen := congrArg List.length (hpre.trans hs)
    rw [List.length_append, List.length_append] at hlen
    omega
  constructor
  · exact fun hfind => hfound _ hfind
  · intro hafter
    cases hfind : find r s with
    | none =>
      have ⟨pre, u, hs, hu, _⟩ := hafter
      exact absurd ⟨pre, rest, by rw [hs, List.append_assoc]⟩ (h.find_none_iff.mp hfind u hu)
    | some m =>
      have hrest : rest = m.rest := hafter.unique hfree (hfound m hfind)
      rw [hrest, ← h.captured_none hfind]

end Search

/-! ## A character no class accepts

No match can contain it, so the text before it and the text after it are searched apart. -/

def Avoids (q : α) : Regex α → Prop
  | empty => True
  | one p => p q = false
  | many p => p q = false
  | seq r t => r.Avoids q ∧ t.Avoids q
  | alt r t => r.Avoids q ∧ t.Avoids q
  | group r => r.Avoids q

instance Avoids.decidable (q : α) : ∀ r : Regex α, Decidable (r.Avoids q)
  | empty => inferInstanceAs (Decidable True)
  | one p => inferInstanceAs (Decidable (p q = false))
  | many p => inferInstanceAs (Decidable (p q = false))
  | seq r t =>
    have := Avoids.decidable q r
    have := Avoids.decidable q t
    inferInstanceAs (Decidable (_ ∧ _))
  | alt r t =>
    have := Avoids.decidable q r
    have := Avoids.decidable q t
    inferInstanceAs (Decidable (_ ∧ _))
  | group r => Avoids.decidable q r

variable {q : α}

theorem manyRests_append {p : α → Bool} (hq : p q = false) (s t : List α) :
    manyRests p (s ++ q :: t) = (manyRests p s).map (· ++ q :: t) := by
  have hnot : ¬ p q = true := by rw [hq]; decide
  induction s with
  | nil => rw [List.nil_append, manyRests_cons, manyRests_nil, if_neg hnot]; rfl
  | cons c cs ih =>
    rw [List.cons_append, manyRests_cons, manyRests_cons, ih]
    split
    · rw [List.map_append]; rfl
    · rfl

theorem successes_append (h : r.Avoids q) (s t : List α) :
    r.successes (s ++ q :: t) = (r.successes s).map (Success.extend (q :: t)) := by
  induction r generalizing s with
  | empty => rfl
  | one p =>
    cases s with
    | nil =>
      have hnot : ¬ p q = true := by rw [show p q = false from h]; decide
      rw [List.nil_append, one_cons, one_nil, if_neg hnot]
      rfl
    | cons c cs =>
      rw [List.cons_append, one_cons, one_cons]
      split <;> rfl
  | many p =>
    rw [many_successes, many_successes, manyRests_append h, List.map_map, List.map_map]
    rfl
  | seq r t ihr iht =>
    rw [seq_successes, seq_successes, ihr h.1, List.flatMap_map, List.map_flatMap]
    apply List.flatMap_congr
    intro m _
    show (t.successes (m.rest ++ _)).map _ = _
    rw [iht h.2, List.map_map, List.map_map]
    rfl
  | alt r t ihr iht => rw [alt_successes, alt_successes, ihr h.1, iht h.2, List.map_append]
  | group r ih =>
    rw [group_successes, group_successes, ih h, List.map_map, List.map_map]
    apply List.map_congr_left
    intro m _
    have htake : (s ++ q :: t).take ((s ++ q :: t).length - (m.rest ++ q :: t).length) =
        s.take (s.length - m.rest.length) := by
      rw [List.length_append, List.length_append, Nat.add_sub_add_right,
        List.take_append_of_le_length (Nat.sub_le ..)]
    exact congrArg (fun x => Success.mk (some x) (m.rest ++ q :: t)) htake

/-- A search that fails before the character goes on behind it. -/
theorem find_append_none (h : r.Avoids q) {s : List α} (hs : find r s = none) (t : List α) :
    find r (s ++ q :: t) = find r t := by
  induction s with
  | nil =>
    have hq := successes_append h [] t
    rw [successes_of_find_none hs, List.nil_append] at hq
    rw [List.nil_append, find_cons, hq]
    rfl
  | cons c cs ih =>
    have hc := successes_append h (c :: cs) t
    rw [successes_of_find_none hs, List.cons_append] at hc
    rw [List.cons_append, find_cons, hc, ih (Option.or_eq_none_iff.mp hs).2]
    rfl

theorem find_append_some (h : r.Avoids q) {s : List α} {m : Success α} (hs : find r s = some m)
    (t : List α) : find r (s ++ q :: t) = some (m.extend (q :: t)) := by
  induction s with
  | nil =>
    have hq := successes_append h [] t
    rw [List.nil_append] at hq
    rw [List.nil_append, find_cons, hq, List.head?_map,
      show (r.successes []).head? = some m from hs]
    rfl
  | cons c cs ih =>
    have hc := successes_append h (c :: cs) t
    rw [List.cons_append] at hc
    rw [List.cons_append, find_cons, hc, List.head?_map]
    rw [find_cons] at hs
    cases hm : (r.successes (c :: cs)).head? with
    | none =>
      rw [hm] at hs
      exact ih hs
    | some m' =>
      rw [hm] at hs
      rw [Option.some.inj hs]
      rfl

end Regex

end VerifyServer.Reasoning
