import VerifyServer.Reasoning.Run

/-!
# MemAlloctor — the pool of blocks behind `CMemAlloctor`

Blocks are numbered in the order of their creation and never deleted while the pool lives.  The
buffer of a block is the array at its start, so a buffer and its block have the same address.  The
array has `nTenKB` bytes whatever the size the block is given: `memset` over a larger size leaves
it, and the call has no result here.
-/

open VerifyServer.Reasoning

namespace VerifyServer.IOCompletePort

/-! ## 1. Blocks -/

def nTenKB : Nat := 1024 * 10
def nInitMaxCount : Nat := 100

structure CMem where
  m_bFree : Bool := true
  m_nSize : Nat := nTenKB

/-- `memset(m_byte, 0, nsize)`. -/
def memsetByte (nsize : Nat) : Option Unit := if nsize ≤ nTenKB then some () else none

/-- `CMem(size_t nsize)`. -/
def CMem.new (nsize : Nat) : Option CMem :=
  let m_nSize := if nsize = 0 then 1 else nsize
  (memsetByte m_nSize).map fun _ => { m_nSize := m_nSize }

def CMem.useMem (pMem : CMem) (nsize : Nat) : CMem :=
  if nsize ≤ pMem.m_nSize then { pMem with m_bFree := false } else pMem

def CMem.unUseMem (pMem : CMem) : Option CMem :=
  if pMem.m_bFree = false then
    (memsetByte pMem.m_nSize).map fun _ => { pMem with m_bFree := true }
  else some pMem

/-! ## 2. The pool -/

structure CMemPool where
  mem : Nat → CMem
  -- how many blocks there are
  created : Nat
  m_vecMemBuf : List Nat
  m_vecOtherMembuf : List Nat
  m_listFreeMem : List Nat
  m_listBusyMem : List Nat

/-- The first block that fits, and the list without it. -/
def takeFit (fits : Nat → Bool) : List Nat → Option (Nat × List Nat)
  | [] => none
  | pMem :: rest =>
    if fits pMem then some (pMem, rest)
    else (takeFit fits rest).map fun (p, rest) => (p, pMem :: rest)

/-- `NewMem(nsize)`: the buffer it returns. -/
def newMem (s : CMemPool) (nsize : Nat) : Option (Nat × CMemPool) :=
  match takeFit (fun p => nsize ≤ (s.mem p).m_nSize) s.m_listFreeMem with
  | some (p, free) => some (p, { s with
      mem := Function.update s.mem p ((s.mem p).useMem nsize)
      m_listFreeMem := free
      m_listBusyMem := s.m_listBusyMem ++ [p] })
  | none =>
    let p := s.created
    if nsize ≤ nTenKB then
      (CMem.new nTenKB).map fun pOtherMem => (p, { s with
        mem := Function.update s.mem p (pOtherMem.useMem nsize)
        created := s.created + 1
        m_vecMemBuf := s.m_vecMemBuf ++ [p]
        m_listBusyMem := s.m_listBusyMem ++ [p] })
    else
      (CMem.new nsize).map fun pOtherMem => (p, { s with
        mem := Function.update s.mem p (pOtherMem.useMem nsize)
        created := s.created + 1
        m_vecOtherMembuf := s.m_vecOtherMembuf ++ [p]
        m_listBusyMem := s.m_listBusyMem ++ [p] })

/-- `DeleteMem(p)`. -/
def deleteMem (s : CMemPool) (p : Nat) : Option CMemPool :=
  (s.mem p).unUseMem.map fun mem => { s with
    mem := Function.update s.mem p mem
    m_listBusyMem := s.m_listBusyMem.filter (· ≠ p)
    m_listFreeMem := s.m_listFreeMem ++ [p] }

inductive PoolCall where
  | newMem (nsize : Nat)
  | deleteMem (p : Nat)

/-- A pool, and the buffers that `NewMem` has returned and nobody has deleted. -/
structure PoolRun where
  pool : CMemPool
  live : List Nat

def stepPool (s : PoolRun) : PoolCall → Option PoolRun
  | .newMem nsize => (newMem s.pool nsize).map fun (p, pool) => ⟨pool, p :: s.live⟩
  | .deleteMem p =>
    if p ∈ s.live then (deleteMem s.pool p).map fun pool => ⟨pool, s.live.erase p⟩ else none

/-- Free and busy blocks together are all blocks, each has the size of its array, and the busy ones
are those in use. -/
structure Whole (s : PoolRun) : Prop where
  perm : (s.pool.m_listFreeMem ++ s.pool.m_listBusyMem).Perm (List.range s.pool.created)
  free : ∀ p ∈ s.pool.m_listFreeMem, (s.pool.mem p).m_bFree = true
  busy : ∀ p ∈ s.pool.m_listBusyMem, (s.pool.mem p).m_bFree = false
  size : ∀ p < s.pool.created, (s.pool.mem p).m_nSize = nTenKB
  live : s.live.Perm s.pool.m_listBusyMem

theorem Whole.nodup {s : PoolRun} (h : Whole s) :
    (s.pool.m_listFreeMem ++ s.pool.m_listBusyMem).Nodup :=
  h.perm.nodup_iff.mpr List.nodup_range

theorem Whole.mem {s : PoolRun} (h : Whole s) (p : Nat) :
    p < s.pool.created ↔ p ∈ s.pool.m_listFreeMem ∨ p ∈ s.pool.m_listBusyMem := by
  rw [← List.mem_append, h.perm.mem_iff, List.mem_range]

theorem useMem_of_le {pMem : CMem} {nsize : Nat} (h : nsize ≤ pMem.m_nSize) :
    pMem.useMem nsize = { pMem with m_bFree := false } := if_pos h

/-- Another block's state is what it was. -/
theorem update_mem {s : CMemPool} {p q : Nat} {mem : CMem} (h : q ≠ p) :
    Function.update s.mem p mem q = s.mem q := Function.update_of_ne h ..

/-- A new block of ten kilobytes goes to the busy list. -/
theorem Whole.create {s : PoolRun} (h : Whole s) {nsize : Nat} (hsize : nsize ≤ nTenKB) :
    s.pool.created ∉ s.live ∧ Whole ⟨{ s.pool with
      mem := Function.update s.pool.mem s.pool.created (CMem.useMem {} nsize)
      created := s.pool.created + 1
      m_vecMemBuf := s.pool.m_vecMemBuf ++ [s.pool.created]
      m_listBusyMem := s.pool.m_listBusyMem ++ [s.pool.created] }, s.pool.created :: s.live⟩ := by
  have hnew : ¬(s.pool.created ∈ s.pool.m_listFreeMem ∨ s.pool.created ∈ s.pool.m_listBusyMem) :=
    fun hmem => Nat.lt_irrefl _ ((h.mem _).mpr hmem)
  have hne {q : Nat} (hq : q ∈ s.pool.m_listFreeMem ∨ q ∈ s.pool.m_listBusyMem) :
      q ≠ s.pool.created := fun heq => hnew (heq ▸ hq)
  have huse : CMem.useMem {} nsize = { m_bFree := false } := useMem_of_le hsize
  refine ⟨fun hlive => hnew (.inr (h.live.mem_iff.mp hlive)), ?_⟩
  constructor
  case perm =>
    show (s.pool.m_listFreeMem ++ (s.pool.m_listBusyMem ++ [_])).Perm (List.range (_ + 1))
    rw [← List.append_assoc, List.range_succ]
    exact h.perm.append_right _
  case free =>
    intro q hq
    show (Function.update s.pool.mem s.pool.created _ q).m_bFree = true
    rw [update_mem (hne (.inl hq))]
    exact h.free q hq
  case busy =>
    intro q hq
    show (Function.update s.pool.mem s.pool.created _ q).m_bFree = false
    rcases List.mem_append.mp hq with hq | hq
    · rw [update_mem (hne (.inr hq))]
      exact h.busy q hq
    · rw [List.mem_singleton.mp hq, Function.update_self, huse]
  case size =>
    intro q hq
    show (Function.update s.pool.mem s.pool.created _ q).m_nSize = nTenKB
    by_cases hqp : q = s.pool.created
    · rw [hqp, Function.update_self, huse]
    · rw [update_mem hqp]
      have hq : q < s.pool.created + 1 := hq
      exact h.size q (by omega)
  case live => exact (h.live.cons _).trans (List.perm_append_singleton _ _).symm

end VerifyServer.IOCompletePort
