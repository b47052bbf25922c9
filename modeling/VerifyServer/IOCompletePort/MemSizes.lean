import VerifyServer.IOCompletePort.MemAlloctor

/-!
# MemSizes — how far a buffer and the clearing of a block reach

The calls of the pool with the sizes of their `memset`s beside the result: a call whose `memset`
leaves the array goes on as if the bytes behind the array were nobody's, so that large blocks can be
deleted and used again.
-/

open VerifyServer.Reasoning

namespace VerifyServer.IOCompletePort

/-! ## 1. The calls -/

/-- `CMem(size_t nsize)`; `_NewBuf` clears `m_nSize` bytes. -/
def CMem.make (nsize : Nat) : CMem := { m_nSize := if nsize = 0 then 1 else nsize }

def CMem.unUse (pMem : CMem) : CMem × List Nat :=
  if pMem.m_bFree = false then ({ pMem with m_bFree := true }, [pMem.m_nSize]) else (pMem, [])

/-- `NewMem(nsize)`: the buffer, the pool and the sizes cleared. -/
def newMemClearing (s : CMemPool) (nsize : Nat) : (Nat × CMemPool) × List Nat :=
  match takeFit (fun p => nsize ≤ (s.mem p).m_nSize) s.m_listFreeMem with
  | some (p, free) => ((p, { s with
      mem := Function.update s.mem p ((s.mem p).useMem nsize)
      m_listFreeMem := free
      m_listBusyMem := s.m_listBusyMem ++ [p] }), [])
  | none =>
    let p := s.created
    if nsize ≤ nTenKB then
      let pOtherMem := CMem.make nTenKB
      ((p, { s with
        mem := Function.update s.mem p (pOtherMem.useMem nsize)
        created := s.created + 1
        m_vecMemBuf := s.m_vecMemBuf ++ [p]
        m_listBusyMem := s.m_listBusyMem ++ [p] }), [pOtherMem.m_nSize])
    else
      let pOtherMem := CMem.make nsize
      ((p, { s with
        mem := Function.update s.mem p (pOtherMem.useMem nsize)
        created := s.created + 1
        m_vecOtherMembuf := s.m_vecOtherMembuf ++ [p]
        m_listBusyMem := s.m_listBusyMem ++ [p] }), [pOtherMem.m_nSize])

/-- `DeleteMem(p)`. -/
def deleteMemClearing (s : CMemPool) (p : Nat) : CMemPool × List Nat :=
  let (mem, sizes) := (s.mem p).unUse
  ({ s with
    mem := Function.update s.mem p mem
    m_listBusyMem := s.m_listBusyMem.filter (· ≠ p)
    m_listFreeMem := s.m_listFreeMem ++ [p] }, sizes)

def stepClearing (s : PoolRun) : PoolCall → Option PoolRun
  | .newMem nsize =>
    let ((p, pool), _) := newMemClearing s.pool nsize
    some ⟨pool, p :: s.live⟩
  | .deleteMem p =>
    if p ∈ s.live then some ⟨(deleteMemClearing s.pool p).1, s.live.erase p⟩ else none

/-- The sizes that a call clears. -/
def cleared (s : PoolRun) : PoolCall → List Nat
  | .newMem nsize => (newMemClearing s.pool nsize).2
  | .deleteMem p => if p ∈ s.live then (deleteMemClearing s.pool p).2 else []

/-! ## 2. The same calls -/

theorem new_eq (nsize : Nat) :
    CMem.new nsize = (memsetByte (CMem.make nsize).m_nSize).map fun _ => CMem.make nsize := rfl

theorem newMem_eq (s : CMemPool) (nsize : Nat) :
    newMem s nsize = if ∀ size ∈ (newMemClearing s nsize).2, size ≤ nTenKB then
      some (newMemClearing s nsize).1 else none := by
  unfold newMem newMemClearing
  cases takeFit (fun p => nsize ≤ (s.mem p).m_nSize) s.m_listFreeMem with
  | some fit => exact (if_pos (List.forall_mem_nil _)).symm
  | none =>
    by_cases hsize : nsize ≤ nTenKB
    · simp only [if_pos hsize, List.forall_mem_singleton]
      rfl
    · simp only [if_neg hsize, List.forall_mem_singleton, new_eq, memsetByte]
      split <;> rfl

theorem deleteMem_eq (s : CMemPool) (p : Nat) :
    deleteMem s p = if ∀ size ∈ (deleteMemClearing s p).2, size ≤ nTenKB then
      some (deleteMemClearing s p).1 else none := by
  unfold deleteMem deleteMemClearing CMem.unUseMem CMem.unUse
  by_cases hbusy : (s.mem p).m_bFree = false
  · simp only [if_pos hbusy, List.forall_mem_singleton, memsetByte]
    split <;> rfl
  · simp only [if_neg hbusy]
    exact (if_pos (List.forall_mem_nil _)).symm

/-- Up to the first `memset` that leaves its array, the calls are those of the pool. -/
theorem stepPool_eq (s : PoolRun) (call : PoolCall) :
    stepPool s call =
      if ∀ size ∈ cleared s call, size ≤ nTenKB then stepClearing s call else none := by
  cases call with
  | newMem nsize =>
    rw [stepPool, newMem_eq, stepClearing, cleared]
    split <;> rfl
  | deleteMem p =>
    rw [stepPool, deleteMem_eq, stepClearing, cleared]
    by_cases hp : p ∈ s.live
    · simp only [if_pos hp]
      split <;> rfl
    · simp only [if_neg hp]
      exact (if_pos (List.forall_mem_nil _)).symm

/-! ## 3. What the sizes must be -/

/-- The blocks in `m_vecOtherMembuf` are the larger ones, and the buffers in use are busy. -/
structure Sized (s : PoolRun) : Prop where
  other : ∀ p, p ∈ s.pool.m_vecOtherMembuf ↔
    p < s.pool.created ∧ nTenKB < (s.pool.mem p).m_nSize
  made : ∀ p ∈ s.pool.m_listFreeMem ++ s.live, p < s.pool.created
  busy : ∀ p ∈ s.live, (s.pool.mem p).m_bFree = false
  apart : (s.pool.m_listFreeMem ++ s.live).Nodup

theorem useMem_size (pMem : CMem) (nsize : Nat) : (pMem.useMem nsize).m_nSize = pMem.m_nSize := by
  unfold CMem.useMem
  split <;> rfl

/-- A new block that fits the request; a larger one is noted in `m_vecOtherMembuf`. -/
theorem Sized.create {s : PoolRun} (h : Sized s) {nsize : Nat} {pOtherMem : CMem}
    (hsize : nsize ≤ pOtherMem.m_nSize) {memBuf other : List Nat}
    (hother : ∀ q, q ∈ other ↔ q ∈ s.pool.m_vecOtherMembuf ∨
      q = s.pool.created ∧ nTenKB < pOtherMem.m_nSize) :
    Sized ⟨{ s.pool with
      mem := Function.update s.pool.mem s.pool.created (pOtherMem.useMem nsize)
      created := s.pool.created + 1
      m_vecMemBuf := memBuf
      m_vecOtherMembuf := other
      m_listBusyMem := s.pool.m_listBusyMem ++ [s.pool.created] }, s.pool.created :: s.live⟩ := by
  have hne {q : Nat} (hq : q ∈ s.pool.m_listFreeMem ++ s.live) : q ≠ s.pool.created :=
    Nat.ne_of_lt (h.made q hq)
  have hmove : (s.pool.m_listFreeMem ++ s.pool.created :: s.live).Perm
      (s.pool.created :: (s.pool.m_listFreeMem ++ s.live)) := List.perm_middle
  constructor
  case other =>
    intro q
    show q ∈ other ↔ q < s.pool.created + 1 ∧
      nTenKB < (Function.update s.pool.mem s.pool.created _ q).m_nSize
    rw [hother q, h.other q]
    by_cases hq : q = s.pool.created
    · subst hq
      rw [Function.update_self, useMem_size]
      exact ⟨fun h => h.elim (fun h => absurd h.1 (Nat.lt_irrefl _)) fun h => ⟨by omega, h.2⟩,
        fun h => .inr ⟨rfl, h.2⟩⟩
    · rw [update_mem hq]
      exact ⟨fun h => h.elim (fun h => ⟨by omega, h.2⟩) fun h => absurd h.1 hq,
        fun h => .inl ⟨by omega, h.2⟩⟩
  case made =>
    intro q hq
    show q < s.pool.created + 1
    rcases List.mem_cons.mp (hmove.mem_iff.mp hq) with rfl | hq
    · exact Nat.lt_succ_self _
    · exact Nat.lt_succ_of_lt (h.made q hq)
  case busy =>
    intro q hq
    show (Function.update s.pool.mem s.pool.created _ q).m_bFree = false
    rcases List.mem_cons.mp hq with rfl | hq
    · rw [Function.update_self, useMem_of_le hsize]
    · rw [update_mem (hne (List.mem_append_right _ hq))]
      exact h.busy q hq
  case apart =>
    exact hmove.nodup_iff.mpr (List.nodup_cons.mpr ⟨fun hmem => hne hmem rfl, h.apart⟩)

theorem unUse_size (pMem : CMem) : pMem.unUse.1.m_nSize = pMem.m_nSize := by
  unfold CMem.unUse
  split <;> rfl

theorem Sized.delete {s : PoolRun} (h : Sized s) {p : Nat} (hp : p ∈ s.live) :
    Sized ⟨(deleteMemClearing s.pool p).1, s.live.erase p⟩ := by
  have hnodup : s.live.Nodup := h.apart.of_append_right
  have hmove : ((s.pool.m_listFreeMem ++ [p]) ++ s.live.erase p).Perm
      (s.pool.m_listFreeMem ++ s.live) := by
    rw [List.append_assoc, List.singleton_append]
    exact (List.perm_cons_erase hp).symm.append_left _
  constructor
  case other =>
    intro q
    show q ∈ s.pool.m_vecOtherMembuf ↔
      q < s.pool.created ∧ nTenKB < (Function.update s.pool.mem p (s.pool.mem p).unUse.1 q).m_nSize
    rw [h.other q]
    by_cases hqp : q = p
    · rw [hqp, Function.update_self, unUse_size]
    · rw [update_mem hqp]
  case made => exact fun q hq => h.made q (hmove.mem_iff.mp hq)
  case busy =>
    intro q hq
    show (Function.update s.pool.mem p _ q).m_bFree = false
    have ⟨hne, hq⟩ := hnodup.mem_erase_iff.mp hq
    rw [update_mem hne]
    exact h.busy q hq
  case apart => exact hmove.nodup_iff.mpr h.apart

end VerifyServer.IOCompletePort
