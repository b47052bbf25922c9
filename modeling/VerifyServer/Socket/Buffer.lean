import VerifyServer.Reasoning.Region
import VerifyServer.Reasoning.Run

/-!
# Buffer — `CBuffer`

A region of memory with a write position.  `m_pData` is kept as its distance from `m_pBase`; a cell
that nothing was written to is `none`.  A `memcpy` or `memmove` that leaves the region has no
result, and `new` succeeds.
-/

open VerifyServer.Reasoning

namespace VerifyServer.Socket

/-! ## 1. Reallocation -/

/-- `a - b` on `UINT`s. -/
def uintSub (a b : Nat) : Nat := (a + 2 ^ 32 - b) % 2 ^ 32

structure CBuffer where
  m_pBase : Option (List (Option UInt8)) := none
  m_pData : Nat := 0
  m_nSize : Nat := 0

/-- The memory at `m_pBase`. -/
def CBuffer.cells (b : CBuffer) : List (Option UInt8) := b.m_pBase.getD []

def CBuffer.getBufferLen (b : CBuffer) : Nat :=
  if b.m_pBase = none then 0 else b.m_pData % 2 ^ 32

/-- `(UINT)ceil(nRequestSize / 1024.0) * 1024`. -/
def newSize (nRequestSize : Nat) : Nat := (nRequestSize + 1023) / 1024 * 1024 % 2 ^ 32

/-- `new BYTE[nNewSize]`, the data copied over and the old memory deleted. -/
def CBuffer.copyOver (b : CBuffer) (nNewSize : Nat) : Option CBuffer := do
  let nBufferLen := b.getBufferLen
  let data ← load b.cells 0 nBufferLen
  let pNewBuffer ← store (List.replicate nNewSize none) 0 data
  some ⟨some pNewBuffer, nBufferLen, nNewSize⟩

def CBuffer.reAllocateBuffer (b : CBuffer) (nRequestSize : Nat) : Option CBuffer :=
  if nRequestSize < b.m_nSize then some b else b.copyOver (newSize nRequestSize)

def CBuffer.deAllocateBuffer (b : CBuffer) (nRequestSize : Nat) : Option CBuffer :=
  if nRequestSize < b.getBufferLen then some b
  else if newSize nRequestSize < b.m_nSize then some b
  else b.copyOver (newSize nRequestSize)

/-! ## 2. The operations -/

/-- The same memory with other cells. -/
def CBuffer.withCells (b : CBuffer) (cells : List (Option UInt8)) : CBuffer :=
  { b with m_pBase := b.m_pBase.map fun _ => cells }

def CBuffer.write (b : CBuffer) (pData : List UInt8) : Option (Nat × CBuffer) := do
  let b ← b.reAllocateBuffer ((pData.length + b.getBufferLen) % 2 ^ 32)
  let cells ← store b.cells b.m_pData (pData.map some)
  some (pData.length, { b.withCells cells with m_pData := b.m_pData + pData.length })

def CBuffer.insert (b : CBuffer) (pData : List UInt8) : Option (Nat × CBuffer) := do
  let b ← b.reAllocateBuffer ((pData.length + b.getBufferLen) % 2 ^ 32)
  let cells ← move b.cells pData.length 0 (uintSub b.m_nSize pData.length)
  let cells ← store cells 0 (pData.map some)
  some (pData.length, { b.withCells cells with m_pData := b.m_pData + pData.length })

/-- `memmove(m_pBase, m_pBase+nSize, GetMemorySize()-nSize)` and `m_pData -= nSize`. -/
def CBuffer.dropFront (b : CBuffer) (nSize : Nat) : Option CBuffer := do
  let cells ← move b.cells 0 nSize (uintSub b.m_nSize nSize)
  some { b.withCells cells with m_pData := b.m_pData - nSize }

/-- The `if (nSize)` of `Delete`. -/
def CBuffer.skipFront (b : CBuffer) (nSize : Nat) : Option CBuffer :=
  if nSize = 0 then some b else b.dropFront nSize

/-- The `if (nSize)` of `Read`, with the bytes it stores at `pData`. -/
def CBuffer.takeFront (b : CBuffer) (nSize : Nat) : Option (List (Option UInt8) × CBuffer) :=
  if nSize = 0 then some ([], b)
  else do
    let pData ← load b.cells 0 nSize
    let b ← b.dropFront nSize
    some (pData, b)

/-- `nSize`, or the length where it is shorter. -/
def CBuffer.atMostLen (b : CBuffer) (nSize : Nat) : Nat :=
  if nSize > b.getBufferLen then b.getBufferLen else nSize

def CBuffer.read (b : CBuffer) (nSize : Nat) : Option ((Nat × List (Option UInt8)) × CBuffer) :=
  if nSize > b.m_nSize then some ((0, []), b)
  else do
    let (pData, front) ← b.takeFront (b.atMostLen nSize)
    let rest ← front.deAllocateBuffer front.getBufferLen
    some ((b.atMostLen nSize, pData), rest)

def CBuffer.delete (b : CBuffer) (nSize : Nat) : Option (Nat × CBuffer) :=
  if nSize > b.m_nSize then some (0, b)
  else do
    let front ← b.skipFront (b.atMostLen nSize)
    let rest ← front.deAllocateBuffer front.getBufferLen
    some (b.atMostLen nSize, rest)

def CBuffer.clearBuffer (b : CBuffer) : Option CBuffer :=
  { b with m_pData := 0 }.deAllocateBuffer 1024

def CBuffer.copy (b buffer : CBuffer) : Option CBuffer := do
  let nReSize := buffer.m_nSize
  let nSize := buffer.getBufferLen
  let b ← b.clearBuffer
  let b ← b.reAllocateBuffer nReSize
  let data ← load buffer.cells 0 buffer.getBufferLen
  let cells ← store b.cells 0 data
  some { b.withCells cells with m_pData := nSize }

/-! ## 3. The byte list a buffer stands for -/

structure Represents (b : CBuffer) (bytes : List UInt8) : Prop where
  data : b.m_pData = bytes.length
  contents : bytes.map some <+: b.cells
  allocated : b.cells.length = b.m_nSize
  bound : b.m_pData ≤ b.m_nSize
  aligned : 1024 ∣ b.m_nSize

variable {I : Type} [DecidableEq I]

inductive BufferCall (I : Type) where
  | write (i : I) (pData : List UInt8)
  | insert (i : I) (pData : List UInt8)
  | read (i : I) (nSize : Nat)
  | delete (i : I) (nSize : Nat)
  | clearBuffer (i : I)
  | copy (i buffer : I)

/-- What a call returns, and the bytes it stores at `pData`. -/
structure BufferAnswer where
  returned : Nat := 0
  pData : List (Option UInt8) := []

/-- The buffers a call leaves, and its answer. -/
def performBuffer (s : I → CBuffer) : BufferCall I → Option (BufferAnswer × (I → CBuffer))
  | .write i pData => ((s i).write pData).map fun (n, b) => (⟨n, []⟩, Function.update s i b)
  | .insert i pData => ((s i).insert pData).map fun (n, b) => (⟨n, []⟩, Function.update s i b)
  | .read i nSize => ((s i).read nSize).map fun ((n, pData), b) =>
    (⟨n, pData⟩, Function.update s i b)
  | .delete i nSize => ((s i).delete nSize).map fun (n, b) => (⟨n, []⟩, Function.update s i b)
  | .clearBuffer i => (s i).clearBuffer.map fun b => ({}, Function.update s i b)
  | .copy i buffer => ((s i).copy (s buffer)).map fun b => ({}, Function.update s i b)

/-- The same calls on byte lists.  A `Read` or `Delete` beyond the capacity does nothing. -/
def performBytes (capacity : I → Nat) (l : I → List UInt8) :
    BufferCall I → BufferAnswer × (I → List UInt8)
  | .write i pData => (⟨pData.length, []⟩, Function.update l i (l i ++ pData))
  | .insert i pData => (⟨pData.length, []⟩, Function.update l i (pData ++ l i))
  | .read i nSize =>
    if nSize ≤ capacity i then
      (⟨min nSize (l i).length, ((l i).take nSize).map some⟩,
        Function.update l i ((l i).drop nSize))
    else ({}, l)
  | .delete i nSize =>
    if nSize ≤ capacity i then
      (⟨min nSize (l i).length, []⟩, Function.update l i ((l i).drop nSize))
    else ({}, l)
  | .clearBuffer i => ({}, Function.update l i [])
  | .copy i buffer => ({}, Function.update l i (l buffer))

/-- Contents and arguments below `2^31` bytes; `Copy` is from another buffer. -/
def BufferCall.small (l : I → List UInt8) : BufferCall I → Prop
  | .write i pData | .insert i pData => (l i).length + pData.length < 2 ^ 31
  | .read _ nSize | .delete _ nSize => nSize < 2 ^ 31
  | .clearBuffer _ => True
  | .copy i buffer => i ≠ buffer

instance (l : I → List UInt8) : DecidablePred (BufferCall.small l)
  | .write _ _ | .insert _ _ | .read _ _ | .delete _ _ | .clearBuffer _ | .copy _ _ => by
    unfold BufferCall.small
    infer_instance

/-- Buffers beside the byte lists they stand for. -/
structure Buffers (I : Type) where
  buffer : I → CBuffer
  bytes : I → List UInt8

def noBuffers : Buffers I := ⟨fun _ => {}, fun _ => []⟩

def stepBuffers (s : Buffers I) (call : BufferCall I) : Option (Buffers I) :=
  if call.small s.bytes then
    (performBuffer s.buffer call).map fun (_, buffer) =>
      ⟨buffer, (performBytes (fun i => (s.buffer i).m_nSize) s.bytes call).2⟩
  else none

/-- The call stays inside allocated memory, answers what it answers on the byte lists, and leaves
buffers that stand for the byte lists it leaves; beyond the capacity nothing changes. -/
structure Refines (s : Buffers I) (call : BufferCall I) (answer : BufferAnswer) (t : I → CBuffer) :
    Prop where
  performed : performBuffer s.buffer call = some (answer, t)
  answer : answer = (performBytes (fun i => (s.buffer i).m_nSize) s.bytes call).1
  bytes : ∀ i, Represents (t i) ((performBytes (fun i => (s.buffer i).m_nSize) s.bytes call).2 i)
  kept : ∀ i nSize, call = .read i nSize ∨ call = .delete i nSize →
    (s.buffer i).m_nSize < nSize → t = s.buffer

/-! ## 4. Memory -/

/-- A buffer whose sizes fit a `UINT` and an `int`. -/
structure Held (b : CBuffer) (bytes : List UInt8) : Prop extends Represents b bytes where
  short : bytes.length < 2 ^ 31
  size : b.m_nSize ≤ 2 ^ 31

theorem held_new : Held {} [] where
  data := rfl
  contents := List.nil_prefix
  allocated := rfl
  bound := Nat.le_refl _
  aligned := by decide
  short := by decide
  size := by decide

theorem Represents.length_le {b : CBuffer} {bytes : List UInt8} (h : Represents b bytes) :
    bytes.length ≤ b.m_nSize := h.data ▸ h.bound

theorem Held.getBufferLen_eq {b : CBuffer} {bytes : List UInt8} (h : Held b bytes) :
    b.getBufferLen = bytes.length := by
  have hshort := h.short
  unfold CBuffer.getBufferLen
  split
  · next hnull =>
    have hlen := h.length_le
    rw [← h.allocated, CBuffer.cells, hnull] at hlen
    exact (Nat.le_zero.mp hlen).symm
  · rw [h.data, Nat.mod_eq_of_lt (by omega)]

theorem Held.load_contents {b : CBuffer} {bytes : List UInt8} (h : Held b bytes) :
    load b.cells 0 b.getBufferLen = some (bytes.map some) := by
  rw [h.getBufferLen_eq, load_front h.contents (by rw [List.length_map]),
    List.take_of_length_le (by rw [List.length_map])]

theorem newSize_spec {n : Nat} (h : n ≤ 2 ^ 31) :
    n ≤ newSize n ∧ newSize n ≤ 2 ^ 31 ∧ 1024 ∣ newSize n := by
  unfold newSize
  refine ⟨?_, ?_, ?_⟩ <;> omega

theorem uintSub_of_le {a b : Nat} (h : b ≤ a) (ha : a ≤ 2 ^ 31) : uintSub a b = a - b := by
  unfold uintSub
  omega

theorem copyOver_held {b : CBuffer} {bytes : List UInt8} (h : Held b bytes) {n : Nat}
    (hlen : bytes.length ≤ n) (hn : n ≤ 2 ^ 31) (haligned : 1024 ∣ n) :
    ∃ b', b.copyOver n = some b' ∧ Held b' bytes ∧ b'.m_nSize = n := by
  have hfits : (bytes.map some).length ≤ (List.replicate n (none : Option UInt8)).length := by
    rw [List.length_map, List.length_replicate]
    exact hlen
  have ⟨cells, hstore, hcells⟩ := store_front hfits
  unfold CBuffer.copyOver
  simp only [h.load_contents, hstore, Option.bind_eq_bind, Option.bind_some]
  refine ⟨_, rfl, ?_, rfl⟩
  constructor
  case toRepresents =>
    constructor
    case data => exact h.getBufferLen_eq
    case contents => exact hcells
    case allocated =>
      show cells.length = n
      rw [length_store hstore, List.length_replicate]
    case bound =>
      show b.getBufferLen ≤ n
      rw [h.getBufferLen_eq]
      exact hlen
    case aligned => exact haligned
  case short => exact h.short
  case size => exact hn

theorem reAllocateBuffer_held {b : CBuffer} {bytes : List UInt8} (h : Held b bytes) {n : Nat}
    (hlen : bytes.length ≤ n) (hn : n ≤ 2 ^ 31) :
    ∃ b', b.reAllocateBuffer n = some b' ∧ Held b' bytes ∧ n ≤ b'.m_nSize := by
  unfold CBuffer.reAllocateBuffer
  split
  · exact ⟨b, rfl, h, by omega⟩
  · have ⟨hle, hbound, haligned⟩ := newSize_spec hn
    have ⟨b', heq, hb', hsize⟩ := copyOver_held h (hlen.trans hle) hbound haligned
    exact ⟨b', heq, hb', hsize ▸ hle⟩

theorem deAllocateBuffer_held {b : CBuffer} {bytes : List UInt8} (h : Held b bytes) {n : Nat}
    (hn : n ≤ 2 ^ 31) : ∃ b', b.deAllocateBuffer n = some b' ∧ Held b' bytes := by
  unfold CBuffer.deAllocateBuffer
  split
  · exact ⟨b, rfl, h⟩
  · next hlen =>
    rw [h.getBufferLen_eq, Nat.not_lt] at hlen
    split
    · exact ⟨b, rfl, h⟩
    · have ⟨hle, hbound, haligned⟩ := newSize_spec hn
      have ⟨b', heq, hb', _⟩ := copyOver_held h (hlen.trans hle) hbound haligned
      exact ⟨b', heq, hb'⟩

theorem withCells_cells {b : CBuffer} {cells : List (Option UInt8)}
    (hlen : cells.length = b.cells.length) : (b.withCells cells).cells = cells := by
  unfold CBuffer.withCells CBuffer.cells at *
  cases hbase : b.m_pBase with
  | none =>
    rw [hbase] at hlen
    exact (List.length_eq_zero_iff.mp hlen).symm
  | some _ => rfl

/-- Other contents in the same memory. -/
theorem Held.withCells {b : CBuffer} {bytes bytes' : List UInt8} (h : Held b bytes)
    {cells : List (Option UInt8)} (hlen : cells.length = b.cells.length)
    (hcells : bytes'.map some <+: cells) (hshort : bytes'.length < 2 ^ 31) {n : Nat}
    (hn : n = bytes'.length) : Held { b.withCells cells with m_pData := n } bytes' := by
  have hcells' : (b.withCells cells).cells = cells := withCells_cells hlen
  constructor
  case toRepresents =>
    constructor
    case data => exact hn
    case contents =>
      show _ <+: (b.withCells cells).cells
      rw [hcells']
      exact hcells
    case allocated =>
      show (b.withCells cells).cells.length = b.m_nSize
      rw [hcells', hlen, h.allocated]
    case bound =>
      show n ≤ b.m_nSize
      have hle := hcells.length_le
      rw [List.length_map, hlen, h.allocated] at hle
      omega
    case aligned => exact h.aligned
  case short => exact hshort
  case size => exact h.size

/-! ## 5. The operations -/

theorem write_held {b : CBuffer} {bytes : List UInt8} (h : Held b bytes) {pData : List UInt8}
    (hsmall : bytes.length + pData.length < 2 ^ 31) :
    ∃ b', b.write pData = some (pData.length, b') ∧ Held b' (bytes ++ pData) := by
  have hrequest : (pData.length + b.getBufferLen) % 2 ^ 32 = pData.length + bytes.length := by
    rw [h.getBufferLen_eq, Nat.mod_eq_of_lt (by omega)]
  have ⟨r, hre, hr, hroom⟩ := reAllocateBuffer_held h (n := pData.length + bytes.length)
    (by omega) (by omega)
  have hfits : (bytes.map some).length + (pData.map some).length ≤ r.cells.length := by
    rw [List.length_map, List.length_map, hr.allocated]
    omega
  have ⟨cells, hstore, hcells⟩ := store_behind hr.contents hfits
  rw [List.length_map, ← hr.data] at hstore
  unfold CBuffer.write
  simp only [hrequest, hre, hstore, Option.bind_eq_bind, Option.bind_some]
  refine ⟨_, rfl, hr.withCells (length_store hstore) ?_ ?_ ?_⟩
  · rw [List.map_append]
    exact hcells
  · rw [List.length_append]
    exact hsmall
  · rw [hr.data, List.length_append]

theorem insert_held {b : CBuffer} {bytes : List UInt8} (h : Held b bytes) {pData : List UInt8}
    (hsmall : bytes.length + pData.length < 2 ^ 31) :
    ∃ b', b.insert pData = some (pData.length, b') ∧ Held b' (pData ++ bytes) := by
  have hrequest : (pData.length + b.getBufferLen) % 2 ^ 32 = pData.length + bytes.length := by
    rw [h.getBufferLen_eq, Nat.mod_eq_of_lt (by omega)]
  have ⟨r, hre, hr, hroom⟩ := reAllocateBuffer_held h (n := pData.length + bytes.length)
    (by omega) (by omega)
  have hsub : uintSub r.m_nSize pData.length = r.cells.length - pData.length := by
    rw [uintSub_of_le (by omega) hr.size, hr.allocated]
  have hroom : pData.length + (bytes.map some).length ≤ r.cells.length := by
    rw [List.length_map, hr.allocated]
    exact hroom
  have ⟨moved, hmove, hmoved⟩ := move_up hr.contents hroom
  have hlen : moved.length = r.cells.length := length_move hmove
  rw [← List.length_map (some : UInt8 → Option UInt8)] at hmoved
  have hfits : (pData.map some).length ≤ moved.length := by
    rw [List.length_map]
    omega
  have ⟨cells, hstore, hcells⟩ := store_before hmoved hfits
  unfold CBuffer.insert
  rw [hrequest, hre, Option.bind_eq_bind, Option.bind_some, hsub, hmove, Option.bind_eq_bind,
    Option.bind_some, hstore]
  refine ⟨_, rfl, hr.withCells ((length_store hstore).trans hlen) ?_ ?_ ?_⟩
  · rw [List.map_append]
    exact hcells
  · rw [List.length_append]
    omega
  · rw [hr.data, List.length_append]
    omega

theorem dropFront_held {b : CBuffer} {bytes : List UInt8} (h : Held b bytes) {n : Nat}
    (hn : n ≤ bytes.length) : ∃ b', b.dropFront n = some b' ∧ Held b' (bytes.drop n) := by
  have hle := h.length_le
  have hshort := h.short
  have hsub : uintSub b.m_nSize n = b.cells.length - n := by
    rw [uintSub_of_le (by omega) h.size, h.allocated]
  have hfront : n ≤ (bytes.map some).length := by
    rw [List.length_map]
    exact hn
  have ⟨cells, hmove, hcells⟩ := move_down h.contents hfront
  unfold CBuffer.dropFront
  rw [hsub, hmove]
  have hlen : (bytes.drop n).length = bytes.length - n := List.length_drop
  refine ⟨_, rfl, h.withCells (length_move hmove) ?_ ?_ ?_⟩
  · rw [List.map_drop]
    exact hcells
  · omega
  · rw [h.data, hlen]

theorem Held.atMostLen_eq {b : CBuffer} {bytes : List UInt8} (h : Held b bytes) (n : Nat) :
    b.atMostLen n = min n bytes.length := by
  unfold CBuffer.atMostLen
  rw [h.getBufferLen_eq]
  split <;> omega

theorem skipFront_held {b : CBuffer} {bytes : List UInt8} (h : Held b bytes) (n : Nat) :
    ∃ b', b.skipFront (b.atMostLen n) = some b' ∧ Held b' (bytes.drop n) := by
  have hdrop : bytes.drop n = bytes.drop (min n bytes.length) :=
    List.drop_eq_drop_iff.mpr (by omega)
  rw [h.atMostLen_eq, hdrop]
  unfold CBuffer.skipFront
  split
  · next hzero =>
    rw [hzero]
    exact ⟨b, rfl, h⟩
  · exact dropFront_held h (Nat.min_le_right _ _)

theorem takeFront_held {b : CBuffer} {bytes : List UInt8} (h : Held b bytes) (n : Nat) :
    ∃ b', b.takeFront (b.atMostLen n) = some ((bytes.take n).map some, b') ∧
      Held b' (bytes.drop n) := by
  have hle : min n bytes.length ≤ (bytes.map some).length := by
    rw [List.length_map]
    exact Nat.min_le_right _ _
  have hdrop : bytes.drop n = bytes.drop (min n bytes.length) :=
    List.drop_eq_drop_iff.mpr (by omega)
  rw [h.atMostLen_eq, hdrop, List.take_eq_take_min]
  unfold CBuffer.takeFront
  split
  · next hzero =>
    rw [hzero]
    exact ⟨b, rfl, h⟩
  · have ⟨b', hdrop, hb'⟩ := dropFront_held h (Nat.min_le_right n bytes.length)
    rw [load_front h.contents hle, hdrop, ← List.map_take]
    exact ⟨b', rfl, hb'⟩

theorem shrunk_held {b : CBuffer} {bytes : List UInt8} (h : Held b bytes) :
    ∃ b', b.deAllocateBuffer b.getBufferLen = some b' ∧ Held b' bytes := by
  apply deAllocateBuffer_held h
  rw [h.getBufferLen_eq]
  exact Nat.le_of_lt h.short

theorem delete_held {b : CBuffer} {bytes : List UInt8} (h : Held b bytes) {n : Nat}
    (hn : n ≤ b.m_nSize) :
    ∃ b', b.delete n = some (min n bytes.length, b') ∧ Held b' (bytes.drop n) := by
  have ⟨front, hskip, hfront⟩ := skipFront_held h n
  have ⟨b', hshrink, hb'⟩ := shrunk_held hfront
  unfold CBuffer.delete
  rw [if_neg (Nat.not_lt.mpr hn), hskip, Option.bind_eq_bind, Option.bind_some, hshrink,
    h.atMostLen_eq]
  exact ⟨b', rfl, hb'⟩

theorem read_held {b : CBuffer} {bytes : List UInt8} (h : Held b bytes) {n : Nat}
    (hn : n ≤ b.m_nSize) :
    ∃ b', b.read n = some ((min n bytes.length, (bytes.take n).map some), b') ∧
      Held b' (bytes.drop n) := by
  have ⟨front, htake, hfront⟩ := takeFront_held h n
  have ⟨b', hshrink, hb'⟩ := shrunk_held hfront
  unfold CBuffer.read
  rw [if_neg (Nat.not_lt.mpr hn), htake, Option.bind_eq_bind, Option.bind_some]
  dsimp only
  rw [hshrink, h.atMostLen_eq]
  exact ⟨b', rfl, hb'⟩

theorem read_beyond {b : CBuffer} {n : Nat} (h : b.m_nSize < n) :
    b.read n = some ((0, []), b) := if_pos h

theorem delete_beyond {b : CBuffer} {n : Nat} (h : b.m_nSize < n) :
    b.delete n = some (0, b) := if_pos h

theorem clearBuffer_held {b : CBuffer} {bytes : List UInt8} (h : Held b bytes) :
    ∃ b', b.clearBuffer = some b' ∧ Held b' [] := by
  have hcleared : Held { b with m_pData := 0 } [] := by
    constructor
    case toRepresents => exact ⟨rfl, List.nil_prefix, h.allocated, Nat.zero_le _, h.aligned⟩
    case short => decide
    case size => exact h.size
  exact deAllocateBuffer_held hcleared (by decide)

theorem copy_held {b buffer : CBuffer} {bytes bytes' : List UInt8} (h : Held b bytes)
    (h' : Held buffer bytes') : ∃ t, b.copy buffer = some t ∧ Held t bytes' := by
  have ⟨c, hclear, hc⟩ := clearBuffer_held h
  have ⟨r, hre, hr, hroom⟩ := reAllocateBuffer_held hc (Nat.zero_le buffer.m_nSize) h'.size
  have hfits : (bytes'.map some).length ≤ r.cells.length := by
    rw [List.length_map, hr.allocated]
    exact h'.length_le.trans hroom
  have ⟨cells, hstore, hcells⟩ := store_front hfits
  unfold CBuffer.copy
  simp only [hclear, hre, h'.load_contents, hstore, Option.bind_eq_bind, Option.bind_some]
  exact ⟨_, rfl, hr.withCells (length_store hstore) hcells h'.short h'.getBufferLen_eq⟩

/-! ## 6. Runs -/

def HeldAll (s : Buffers I) : Prop := ∀ i, Held (s.buffer i) (s.bytes i)

theorem HeldAll.update {s : Buffers I} (h : HeldAll s) {i : I} {b : CBuffer} {bytes : List UInt8}
    (hb : Held b bytes) :
    HeldAll ⟨Function.update s.buffer i b, Function.update s.bytes i bytes⟩ := by
  intro j
  dsimp only
  by_cases hj : j = i
  · rw [hj, Function.update_self, Function.update_self]
    exact hb
  · rw [Function.update_of_ne hj, Function.update_of_ne hj]
    exact h j

/-- A call within the bounds answers as on the byte lists and keeps every buffer. -/
theorem performBuffer_held {s : Buffers I} (h : HeldAll s) {call : BufferCall I}
    (hsmall : call.small s.bytes) :
    ∃ t, performBuffer s.buffer call =
        some ((performBytes (fun i => (s.buffer i).m_nSize) s.bytes call).1, t) ∧
      HeldAll ⟨t, (performBytes (fun i => (s.buffer i).m_nSize) s.bytes call).2⟩ ∧
      ∀ i nSize, call = .read i nSize ∨ call = .delete i nSize →
        (s.buffer i).m_nSize < nSize → t = s.buffer := by
  cases call with
  | write i pData =>
    have ⟨b, hwrite, hb⟩ := write_held (h i) hsmall
    refine ⟨_, ?_, h.update hb, nofun⟩
    rw [performBuffer, hwrite]
    rfl
  | insert i pData =>
    have ⟨b, hinsert, hb⟩ := insert_held (h i) hsmall
    refine ⟨_, ?_, h.update hb, nofun⟩
    rw [performBuffer, hinsert]
    rfl
  | read i nSize =>
    rw [performBuffer, performBytes]
    by_cases hsize : nSize ≤ (s.buffer i).m_nSize
    · have ⟨b, hread, hb⟩ := read_held (h i) hsize
      rw [hread, if_pos hsize]
      refine ⟨_, rfl, h.update hb, ?_⟩
      rintro j n (hcall | hcall) hlt <;> cases hcall
      omega
    · rw [read_beyond (Nat.lt_of_not_le hsize), if_neg hsize]
      refine ⟨_, rfl, ?_, fun _ _ _ _ => Function.update_eq_self ..⟩
      rw [Function.update_eq_self]
      exact h
  | delete i nSize =>
    rw [performBuffer, performBytes]
    by_cases hsize : nSize ≤ (s.buffer i).m_nSize
    · have ⟨b, hdelete, hb⟩ := delete_held (h i) hsize
      rw [hdelete, if_pos hsize]
      refine ⟨_, rfl, h.update hb, ?_⟩
      rintro j n (hcall | hcall) hlt <;> cases hcall
      omega
    · rw [delete_beyond (Nat.lt_of_not_le hsize), if_neg hsize]
      refine ⟨_, rfl, ?_, fun _ _ _ _ => Function.update_eq_self ..⟩
      rw [Function.update_eq_self]
      exact h
  | clearBuffer i =>
    have ⟨b, hclear, hb⟩ := clearBuffer_held (h i)
    refine ⟨_, ?_, h.update hb, nofun⟩
    rw [performBuffer, hclear]
    rfl
  | copy i buffer =>
    have ⟨b, hcopy, hb⟩ := copy_held (h i) (h buffer)
    refine ⟨_, ?_, h.update hb, nofun⟩
    rw [performBuffer, hcopy]
    rfl

theorem stepBuffers_held {s t : Buffers I} {call : BufferCall I} (h : HeldAll s)
    (ht : stepBuffers s call = some t) : HeldAll t := by
  unfold stepBuffers at ht
  split at ht
  · next hsmall =>
    have ⟨u, hperform, hu, _⟩ := performBuffer_held h hsmall
    rw [hperform] at ht
    exact Option.some.inj ht ▸ hu
  · cases ht

theorem refines_of_held {s : Buffers I} (h : HeldAll s) {call : BufferCall I}
    (hsmall : call.small s.bytes) : ∃ answer t, Refines s call answer t := by
  have ⟨t, hperform, ht, hkept⟩ := performBuffer_held h hsmall
  exact ⟨_, t, hperform, rfl, fun i => (ht i).toRepresents, hkept⟩

/-- Every call within the bounds refines its call on the byte lists, in every sequence of calls. -/
theorem run_refines (calls : List (BufferCall I)) :
    RunMeets stepBuffers (fun s call => call.small s.bytes → ∃ answer t, Refines s call answer t)
      noBuffers calls :=
  (runMeets_congr_of_invariant (P := fun _ _ => True) (I := HeldAll)
    (fun _ _ _ h _ hst => stepBuffers_held h hst)
    (fun _ _ h => iff_of_true trivial (refines_of_held h)) (fun _ => held_new) calls).mp
      (runMeets_of_forall (fun _ _ _ => trivial) _)

end VerifyServer.Socket
