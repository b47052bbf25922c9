import VerifyServer.Socket.Frame

/-!
# SaveData — reassembly of the TCP stream on one `IO_CONTEXT`

`CTcpServer::SaveData` is called with every chunk a socket receives.  It keeps two buffers on the
`IO_CONTEXT`: `tmpHeadBuf` holds up to ten bytes that are too few to contain a length, `tmpBuf` is
a packet whose length is known and whose bytes are still arriving.  Lengths are `int`s in the code
and `Int`s here; the only caller passes at most `MAX_BUFFER` bytes, so none of the sums wraps.
-/

open VerifyServer.Reasoning

namespace VerifyServer.Socket

/-! ## 1. The context -/

abbrev Sock := Nat

def invalidSocket : Sock := 0xFFFFFFFF

def maxBuffer : Nat := 1024

inductive ESocketOperation where
  | null | init | accept | connect | read | write
  deriving DecidableEq, Repr

/-- `RCV_BUF`: a pointer, `none` for `NULL`, and a length kept beside it. -/
structure RcvBuf where
  pBuf : Option (List UInt8) := none
  nLen : Int := 0
  deriving DecidableEq, Repr

/-- `RCV_TMPBUF`: the packet under assembly, its length and the bytes of it already there. -/
structure RcvTmpBuf where
  pBuf : Option (List UInt8) := none
  nDesLen : Int := 0
  nCurLen : Int := 0
  deriving DecidableEq, Repr

/-- `IO_CONTEXT`; a fresh one is what `clean()` leaves. -/
structure IoContext where
  connID : UInt32 := 0
  sockAccept : Sock := invalidSocket
  wsaBuf : List UInt8 := []
  tmpBuf : RcvTmpBuf := {}
  tmpHeadBuf : RcvBuf := {}
  so : ESocketOperation := .null
  deriving DecidableEq, Repr

/-- Nothing is left over from an earlier chunk. -/
def IoContext.Clean (pIo : IoContext) : Prop :=
  pIo.tmpHeadBuf.nLen = 0 ∧ pIo.tmpBuf.nDesLen = 0 ∧ pIo.tmpBuf.nCurLen = 0

instance (pIo : IoContext) : Decidable pIo.Clean := inferInstanceAs (Decidable (_ ∧ _ ∧ _))

/-! ## 2. Memory -/

/-- The ways a call can leave the defined behaviour: `new[]` of a negative size throws, a
`memcpy` outside its buffers is undefined. -/
inductive Fault where
  | badAlloc
  | badCopy
  deriving DecidableEq, Repr

/-- `new char[n]`.  The bytes are unspecified until written. -/
def newChar (n : Int) : List UInt8 := List.replicate n.toNat 0xCD

/-- The `n` bytes from offset `i` of a pointer on. -/
def copyOut (p : Option (List UInt8)) (i n : Int) : Option (List UInt8) :=
  match p with
  | none => none
  | some bs =>
    if 0 ≤ i ∧ 0 ≤ n ∧ i + n ≤ bs.length then some ((bs.drop i.toNat).take n.toNat) else none

/-- `memcpy(tmpBuf.pBuf + tmpBuf.nCurLen, src, n)`. -/
def fill (b : RcvTmpBuf) (src : List UInt8) : Option (List UInt8) :=
  match b.pBuf with
  | none => none
  | some bs => if 0 ≤ b.nCurLen then blit bs b.nCurLen.toNat src else none

theorem copyOut_length {p : Option (List UInt8)} {i n : Int} {out : List UInt8}
    (h : copyOut p i n = some out) : out.length = n.toNat := by
  unfold copyOut at h
  split at h
  · cases h
  · split at h
    · rename_i hfit
      obtain rfl := Option.some.inj h
      simp only [List.length_take, List.length_drop]
      omega
    · cases h

/-! ## 3. Delivery -/

/-- What the call depends on besides the context: whether `m_pRecevier` is set, and the number of
wide characters, terminator included, that `MultiByteToWideChar` counts in a terminated buffer. -/
structure SaveEnv where
  hasRecevier : Bool
  multiByteToWideChar : List UInt8 → Int

/-- One call `m_pRecevier->Recevie(uSokcetID, rev_buf, rev_len)`. -/
structure Rev where
  uSokcetID : UInt32
  rev_buf : List UInt8
  rev_len : Int
  deriving DecidableEq, Repr

/-- The part of `SaveData` between a complete packet and the end of its delivery. -/
def deliver (env : SaveEnv) (connID : UInt32) (pkt : List UInt8) (nDesLen : Int) :
    Except Fault (List Rev) :=
  let nLen := nDesLen - 15
  if nLen + 1 < 0 then .error .badAlloc
  else
    match copyOut (some pkt) 10 nLen with
    | none => .error .badCopy
    | some payload =>
      let tmp := payload ++ [0]
      let nLen := env.multiByteToWideChar tmp
      .ok (if 0 < nLen ∧ env.hasRecevier then [⟨connID, tmp, nLen⟩] else [])

/-! ## 4. `CTcpServer::SaveData` -/

/-- The context a call leaves, the deliveries it made, and the fault that ended it, if any. -/
structure Saved where
  ctx : IoContext
  revs : List Rev
  fault : Option Fault
  deriving DecidableEq, Repr

/-- Where the recursion stands when the bytes still to look at are the same: a pending head is
merged first, then the packet's length is read, then bytes are consumed. -/
private def phase (pIo : IoContext) : Nat :=
  if 0 < pIo.tmpHeadBuf.nLen then 2
  else if pIo.tmpBuf.nDesLen - pIo.tmpBuf.nCurLen = 0 then 1 else 0

/-- `CTcpServer::SaveData(pIo, pBuf, nLen)` with `nLen` the length of `pBuf`. -/
def saveData (env : SaveEnv) (pIo : IoContext) (pBuf : List UInt8) : Saved :=
  if 0 < pIo.tmpHeadBuf.nLen then
    match _hcopy : copyOut pIo.tmpHeadBuf.pBuf 0 pIo.tmpHeadBuf.nLen with
    | none => ⟨pIo, [], some .badCopy⟩
    | some head => saveData env { pIo with tmpHeadBuf := {} } (head ++ pBuf)
  else
    let nDesLeave := pIo.tmpBuf.nDesLen - pIo.tmpBuf.nCurLen
    if nDesLeave = 0 then
      if 10 < pBuf.length then
        let nDesLen := getPacketLen pBuf
        if nDesLen = noPacket then
          -- bytes in front of a header are dropped together with the rest of the chunk
          ⟨pIo, [], none⟩
        else if nDesLen < 0 then
          -- the old buffer is gone when the allocation of the new one throws
          ⟨{ pIo with tmpBuf.pBuf := none }, [], some .badAlloc⟩
        else
          saveData env { pIo with tmpBuf := ⟨some (newChar nDesLen), nDesLen, 0⟩ } pBuf
      else
        ⟨{ pIo with tmpHeadBuf := ⟨some pBuf, pBuf.length⟩ }, [], none⟩
    else if 0 < nDesLeave then
      if nDesLeave ≤ pBuf.length then
        match fill pIo.tmpBuf (pBuf.take nDesLeave.toNat) with
        | none => ⟨pIo, [], some .badCopy⟩
        | some pkt =>
          match deliver env pIo.connID pkt pIo.tmpBuf.nDesLen with
          | .error e => ⟨pIo, [], some e⟩
          | .ok revs =>
            let rest := pBuf.drop nDesLeave.toNat
            if 0 < rest.length then
              let next := saveData env { pIo with tmpBuf := {} } rest
              { next with revs := revs ++ next.revs }
            else
              ⟨{ pIo with tmpBuf := {} }, revs, none⟩
      else
        match fill pIo.tmpBuf pBuf with
        | none => ⟨pIo, [], some .badCopy⟩
        | some bs =>
          ⟨{ pIo with tmpBuf := { pIo.tmpBuf with
              pBuf := some bs, nCurLen := pIo.tmpBuf.nCurLen + pBuf.length } }, [], none⟩
    else
      ⟨pIo, [], none⟩
termination_by (pIo.tmpHeadBuf.nLen.toNat + pBuf.length, phase pIo)
decreasing_by
  · rename_i hpos
    have hlen := copyOut_length _hcopy
    have heq : (0 : Int).toNat + (head ++ pBuf).length =
        pIo.tmpHeadBuf.nLen.toNat + pBuf.length := by
      rw [List.length_append, hlen]; omega
    rw [heq]
    apply Prod.Lex.right
    simp only [phase, if_pos hpos]
    split <;> [omega; split <;> omega]
  · rename_i hhead hzero _ _ _
    have hrange := getPacketLen_range pBuf
    apply Prod.Lex.right
    rw [phase, if_neg (by simpa using hhead), if_neg (by simp only; omega),
      phase, if_neg (by simpa using hhead), if_pos (by simpa using hzero)]
    omega
  · rename_i hpos _ _
    apply Prod.Lex.left
    simp only [List.length_drop]
    omega

/-- The chunks of a connection, one call after another; a fault ends the run. -/
def saveChunks (env : SaveEnv) (pIo : IoContext) : List (List UInt8) → Saved
  | [] => ⟨pIo, [], none⟩
  | c :: cs =>
    let r := saveData env pIo c
    match r.fault with
    | some e => ⟨r.ctx, r.revs, some e⟩
    | none =>
      let next := saveChunks env r.ctx cs
      { next with revs := r.revs ++ next.revs }

end VerifyServer.Socket
