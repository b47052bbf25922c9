import VerifyServer.Reasoning.CString
import VerifyServer.Socket.Buffer

/-!
# Scan — `CBuffer::Scan`

`Scan` gives the memory of the buffer to `strstr`, which looks for the zero that ends a text; no
operation of a buffer writes one behind its bytes.  An object has less than `2^31` bytes, so an
offset in it fits the `int` that `Scan` returns.
-/

open VerifyServer.Reasoning

namespace VerifyServer.Socket

/-! ## 1. The operation -/

/-- The bytes of a C string. -/
def cBytes (pScan : List UInt8) : List UInt8 := pScan.takeWhile (· ≠ 0)

def CBuffer.scan (b : CBuffer) (pScan : List UInt8) (nPos : Nat) : Option Int :=
  if nPos > b.getBufferLen then some (-1)
  else (strstr (cBytes pScan) (b.cells.drop nPos)).map fun pData =>
    match pData with
    | some pData => ((nPos + pData + (cBytes pScan).length : Nat) : Int)
    | none => 0

/-! ## 2. What it must return -/

/-- The end of the first place from `nPos` on where `pScan` lies in `bytes`, and zero when there is
none. -/
def FirstEnd (bytes pScan : List UInt8) (nPos : Nat) (n : Int) : Prop :=
  (∃ k, nPos ≤ k ∧ pScan <+: bytes.drop k ∧ (∀ j, nPos ≤ j → j < k → ¬pScan <+: bytes.drop j) ∧
    n = ((k + pScan.length : Nat) : Int)) ∨
  ((∀ k, nPos ≤ k → ¬pScan <+: bytes.drop k) ∧ n = 0)

/-- The buffer with no memory but its live bytes. -/
def CBuffer.onlyLive (b : CBuffer) : CBuffer := b.withCells (b.cells.take b.getBufferLen)

/-- The answer is right, and the same where nothing but the live bytes can be read. -/
structure ScanRight (b : CBuffer) (bytes pScan : List UInt8) (nPos : Nat) : Prop where
  answer : ∃ n, b.scan pScan nPos = some n ∧ FirstEnd bytes pScan nPos n
  inside : b.onlyLive.scan pScan nPos = b.scan pScan nPos

/-! ## 3. The live bytes -/

theorem cBytes_eq {pScan : List UInt8} (h : 0 ∉ pScan) : cBytes pScan = pScan :=
  List.takeWhile_eq_self_iff.mpr fun _ hc => decide_eq_true fun hzero => h (hzero ▸ hc)

theorem onlyLive_cells (b : CBuffer) : b.onlyLive.cells = b.cells.take b.getBufferLen := by
  unfold CBuffer.onlyLive CBuffer.withCells CBuffer.cells
  cases b.m_pBase with
  | none => exact List.take_nil.symm
  | some cells => rfl

theorem onlyLive_getBufferLen (b : CBuffer) : b.onlyLive.getBufferLen = b.getBufferLen := by
  unfold CBuffer.onlyLive CBuffer.withCells CBuffer.getBufferLen
  cases b.m_pBase <;> rfl

section Live

variable {b : CBuffer} {bytes pScan : List UInt8} {nPos : Nat}

/-- What is loaded from the front of the memory is all of the live bytes. -/
theorem live_cells (hlive : load b.cells 0 b.getBufferLen = some (bytes.map some)) :
    b.getBufferLen = bytes.length ∧ b.cells.take b.getBufferLen = bytes.map some := by
  unfold load at hlive
  split at hlive
  · next hfits =>
    have htake := Option.some.inj hlive
    rw [List.drop_zero] at htake
    have hlen := congrArg List.length htake
    rw [List.length_take, List.length_map] at hlen
    exact ⟨by omega, htake⟩
  · cases hlive

/-- The memory from a position on: the rest of the live bytes, and what is behind them. -/
theorem live_drop (hlive : load b.cells 0 b.getBufferLen = some (bytes.map some))
    (hpos : nPos ≤ bytes.length) :
    b.cells.drop nPos = (bytes.drop nPos).map some ++ b.cells.drop b.getBufferLen ∧
      b.onlyLive.cells.drop nPos = (bytes.drop nPos).map some := by
  have ⟨hlen, htake⟩ := live_cells hlive
  constructor
  · have hsplit := List.take_append_drop b.getBufferLen b.cells
    rw [htake] at hsplit
    rw [← hsplit, List.drop_append_of_le_length (by rw [List.length_map]; exact hpos),
      List.map_drop, hsplit]
  · rw [onlyLive_cells, htake, List.map_drop]

/-! ## 4. Where it is right -/

/-- Positions in the rest of the bytes. -/
theorem firstEnd_of_drop {k : Nat} (hat : pScan <+: (bytes.drop nPos).drop k)
    (hfirst : ∀ j < k, ¬pScan <+: (bytes.drop nPos).drop j) :
    FirstEnd bytes pScan nPos ((nPos + k + pScan.length : Nat) : Int) := by
  simp only [List.drop_drop] at hat hfirst
  refine .inl ⟨nPos + k, Nat.le_add_right _ _, hat, fun j hj hlt hprefix => ?_, rfl⟩
  refine hfirst (j - nPos) (by omega) ?_
  rw [Nat.add_sub_cancel' hj]
  exact hprefix

theorem scanRight_of_infix (hlive : load b.cells 0 b.getBufferLen = some (bytes.map some))
    (hbytes : 0 ∉ bytes) (hscan : 0 ∉ pScan) (hne : pScan ≠ []) (hpos : nPos ≤ bytes.length)
    (h : pScan <:+: bytes.drop nPos) : ScanRight b bytes pScan nPos := by
  have ⟨hlen, _⟩ := live_cells hlive
  have ⟨hcells, honly⟩ := live_drop hlive hpos
  have hrest : 0 ∉ bytes.drop nPos := fun hmem => hbytes (List.mem_of_mem_drop hmem)
  have ⟨k, hk, hat, hfirst⟩ := strstr_of_infix hrest hne h
  have hin : ¬nPos > b.getBufferLen := by omega
  have hlast := hk []
  rw [List.append_nil] at hlast
  constructor
  case answer =>
    refine ⟨_, ?_, firstEnd_of_drop hat hfirst⟩
    rw [CBuffer.scan, if_neg hin, cBytes_eq hscan, hcells, hk]
    rfl
  case inside =>
    rw [CBuffer.scan, CBuffer.scan, onlyLive_getBufferLen, if_neg hin, if_neg hin,
      cBytes_eq hscan, hcells, hk, honly, hlast]

theorem not_scanRight_of_not_infix
    (hlive : load b.cells 0 b.getBufferLen = some (bytes.map some)) (hbytes : 0 ∉ bytes)
    (hscan : 0 ∉ pScan) (hpos : nPos ≤ bytes.length) (h : ¬pScan <:+: bytes.drop nPos) :
    ¬ScanRight b bytes pScan nPos := by
  rintro ⟨⟨n, hn, _⟩, hinside⟩
  have ⟨hlen, _⟩ := live_cells hlive
  have ⟨_, honly⟩ := live_drop hlive hpos
  have hrest : 0 ∉ bytes.drop nPos := fun hmem => hbytes (List.mem_of_mem_drop hmem)
  rw [hn, CBuffer.scan, onlyLive_getBufferLen, if_neg (by omega), cBytes_eq hscan, honly,
    strstr_of_not_infix hrest h] at hinside
  cases hinside

end Live

/-- Whatever was done to a buffer, its live bytes are a text in its memory. -/
theorem run_live {I : Type} [DecidableEq I] {calls : List (BufferCall I)} {s : Buffers I}
    (h : run stepBuffers noBuffers calls = some s) (i : I) :
    load (s.buffer i).cells 0 (s.buffer i).getBufferLen = some ((s.bytes i).map some) :=
  (run_preserves (I := HeldAll) (fun _ _ _ hs hst => stepBuffers_held hs hst)
    (fun _ => held_new) h i).load_contents

/-- `Scan` is right on a buffer just where what it looks for is there. -/
theorem scanRight_iff {b : CBuffer} {bytes pScan : List UInt8} {nPos : Nat}
    (hlive : load b.cells 0 b.getBufferLen = some (bytes.map some)) (hbytes : 0 ∉ bytes)
    (hscan : 0 ∉ pScan) (hne : pScan ≠ []) (hpos : nPos ≤ bytes.length) :
    ScanRight b bytes pScan nPos ↔ pScan <:+: bytes.drop nPos := by
  constructor
  · intro hright
    by_contra h
    exact not_scanRight_of_not_infix hlive hbytes hscan hpos h hright
  · exact scanRight_of_infix hlive hbytes hscan hne hpos

/-- `ca` in `abcab`, from the second byte on. -/
theorem scanRight_iff_found : ∃ b, CBuffer.write {} [97, 98, 99, 97, 98] = some (5, b) ∧
    ScanRight b [97, 98, 99, 97, 98] [99, 97] 1 := by
  have hsmall : ([] : List UInt8).length + ([97, 98, 99, 97, 98] : List UInt8).length < 2 ^ 31 := by
    decide
  have ⟨b, hwrite, hb⟩ := write_held held_new hsmall
  refine ⟨b, hwrite, (scanRight_iff hb.load_contents ?_ ?_ ?_ ?_).mpr ?_⟩ <;> decide

/-- `c` is not in `ab`, and the search goes on behind it. -/
theorem scan_reads_behind : ∃ b, CBuffer.write {} [97, 98] = some (2, b) ∧
    ¬ScanRight b [97, 98] [99] 0 := by
  have hsmall : ([] : List UInt8).length + ([97, 98] : List UInt8).length < 2 ^ 31 := by decide
  have ⟨b, hwrite, hb⟩ := write_held held_new hsmall
  exact ⟨b, hwrite, not_scanRight_of_not_infix hb.load_contents (by decide) (by decide) (by decide)
    (by decide)⟩

end VerifyServer.Socket
