import VerifyServer.Reasoning.Bytes

/-!
# Frame — the TCP wire format and its two encoders

A message travels as `'S:' + param + length + data + checksum + 'E'` (2, 4, 4, n, 4 and 1 bytes).
The server builds it in `CTcpServer::PrepareSendBuf`, the Java client in
`tcp_stream_pack.pack_prepare`; the receiving end of the server reads only the two header letters
and the length, in `CTcpServer::GetPacketLen`.
-/

open VerifyServer.Reasoning

namespace VerifyServer.Socket

/-! ## 1. The format -/

/-- The bytes around the payload: ten of header, four of checksum, the end marker. -/
def flagLen : Nat := 15

/-- One message on the wire.  The length field is a signed `int` on both ends, which is where the
bound comes from; the checksum is whatever the encoder computed, no receiver looks at it. -/
structure Frame where
  param : UInt32
  payload : List UInt8
  check : UInt32
  fits : payload.length + flagLen < 2 ^ 31

def Frame.header (f : Frame) : List UInt8 :=
  [0x53, 0x3A] ++ leBytes f.param ++ leBytes (UInt32.ofNat (f.payload.length + flagLen))

def Frame.trailer (f : Frame) : List UInt8 := leBytes f.check ++ [0x45]

def Frame.bytes (f : Frame) : List UInt8 := f.header ++ (f.payload ++ f.trailer)

@[simp] theorem Frame.header_length (f : Frame) : f.header.length = 10 := rfl

@[simp] theorem Frame.trailer_length (f : Frame) : f.trailer.length = 5 := rfl

@[simp] theorem Frame.bytes_length (f : Frame) :
    f.bytes.length = f.payload.length + flagLen := by
  simp only [Frame.bytes, List.length_append, Frame.header_length, Frame.trailer_length, flagLen]
  omega

theorem Frame.bytes_pos (f : Frame) : 0 < f.bytes.length := by
  rw [f.bytes_length, flagLen]
  omega

/-- The payload is what lies between the header and the trailer. -/
theorem Frame.bytes_payload (f : Frame) :
    (f.bytes.drop 10).take (f.bytes.length - flagLen) = f.payload := by
  rw [f.bytes_length, Nat.add_sub_cancel, Frame.bytes,
    List.drop_left' f.header_length, List.take_left' rfl]

/-! ## 2. The receiver's view of the header -/

/-- The `int` value of a `DWORD`, as the assignment to an `int` converts it. -/
def intOfDword (w : UInt32) : Int := w.toInt32.toInt

theorem intOfDword_ofNat {n : Nat} (h : n < 2 ^ 31) : intOfDword (UInt32.ofNat n) = n := by
  unfold intOfDword
  rw [← Int32.toInt_toBitVec, UInt32.toBitVec_toInt32]
  change (BitVec.ofNat 32 n).toInt = n
  rw [BitVec.toInt_eq_toNat_of_lt] <;> simp only [BitVec.toNat_ofNat] <;> omega

/-- The two letters every frame starts with. -/
def startsWithHead (pBuf : List UInt8) : Bool := pBuf.getD 0 0 = 0x53 ∧ pBuf.getD 1 0 = 0x3A

/-- `0xffffffff` as an `int`, the answer "no packet starts here". -/
def noPacket : Int := -1

/-- `CTcpServer::GetPacketLen`, with `nLen` the length of `pBuf`. -/
def getPacketLen (pBuf : List UInt8) : Int :=
  if pBuf.length ≤ 10 then noPacket
  else if startsWithHead pBuf then
    let len := readLeWord pBuf 6
    if 15 ≤ len then intOfDword len else noPacket
  else noPacket

theorem getPacketLen_short {pBuf : List UInt8} (h : pBuf.length ≤ 10) :
    getPacketLen pBuf = noPacket := if_pos h

/-- A buffer that begins with a frame and is longer than the header names that frame's length. -/
theorem getPacketLen_frame (f : Frame) (rest : List UInt8) (h : 10 < (f.header ++ rest).length) :
    getPacketLen (f.header ++ rest) = f.payload.length + flagLen := by
  have hword : readLeWord (f.header ++ rest) 6 = UInt32.ofNat (f.payload.length + flagLen) := by
    have := readLeWord_append ([0x53, 0x3A] ++ leBytes f.param) rest
      (UInt32.ofNat (f.payload.length + flagLen))
    rw [Frame.header, List.append_assoc]
    exact this
  have hhead : startsWithHead (f.header ++ rest) = true := by
    simp [startsWithHead, Frame.header, leBytes]
  have hfits := f.fits
  have hge : 15 ≤ UInt32.ofNat (f.payload.length + flagLen) := by
    rw [UInt32.le_iff_toNat_le, UInt32.toNat_ofNat_of_lt' (by unfold UInt32.size; omega)]
    simp only [flagLen]
    exact Nat.le_add_left _ _
  rw [getPacketLen, if_neg (by omega), if_pos hhead]
  simp only [hword]
  rw [if_pos hge, intOfDword_ofNat hfits]
  push_cast
  rfl

/-- Whatever the bytes are, the answer is "none", a negative `int` or at least fifteen. -/
theorem getPacketLen_range (pBuf : List UInt8) :
    getPacketLen pBuf < 0 ∨ 15 ≤ getPacketLen pBuf := by
  unfold getPacketLen noPacket
  split
  · left; omega
  · split
    · simp only []
      split
      · rename_i h
        rw [UInt32.le_iff_toNat_le] at h
        have h15 : (15 : UInt32).toNat = 15 := rfl
        unfold intOfDword
        rw [← Int32.toInt_toBitVec, UInt32.toBitVec_toInt32, BitVec.toInt_eq_toNat_cond]
        have hlt := (readLeWord pBuf 6).toNat_lt
        rw [UInt32.toNat_toBitVec]
        split <;> omega
      · left; omega
    · left; omega

/-! ## 3. The server's encoder -/

/-- The running `DWORD nSum` over a range of bytes. -/
def byteSum (bs : List UInt8) : UInt32 := bs.foldl (fun nSum b => nSum + b.toUInt32) 0

/-- `CTcpServer::PrepareSendBuf` without `REV_UNICODE`: the destination after the call and the
number of bytes of it that form the frame.  Every store is bounded by the destination array, and
the copy by the source. -/
def prepareSendBuf (pBufDes pBufSrc : List UInt8) (nLenSrc : Nat) (paramSrc : UInt32) :
    Option (List UInt8 × Nat) := do
  let d ← blit pBufDes 0 [0x53, 0x3A]
  let d ← blit d 2 (leBytes paramSrc)
  let d ← blit d 6 (leBytes (UInt32.ofNat (nLenSrc + 15)))
  guard (nLenSrc ≤ pBufSrc.length)
  let d ← blit d 10 (pBufSrc.take nLenSrc)
  let nSum := byteSum (d.take (10 + nLenSrc))
  let d ← blit d (10 + nLenSrc) (leBytes nSum)
  let d ← blit d (10 + nLenSrc + 4) [0x45]
  some (d, 10 + nLenSrc + 4 + 1)

/-- The ten bytes in front of a payload of `n` bytes. -/
def frameHead (param : UInt32) (n : Nat) : List UInt8 :=
  [0x53, 0x3A] ++ leBytes param ++ leBytes (UInt32.ofNat (n + 15))

theorem prepareSendBuf_count {pBufDes p out : List UInt8} {m n : Nat} {param : UInt32}
    (h : prepareSendBuf pBufDes p m param = some (out, n)) : n = m + 15 := by
  simp only [prepareSendBuf, bind, Option.bind_eq_some_iff, guard] at h
  obtain ⟨_, _, _, _, _, _, _, _, _, _, _, _, _, _, heq⟩ := h
  have hn := congrArg Prod.snd (Option.some.inj heq)
  simp only at hn
  omega

/-- The end marker is stored last, so a call that returns had the room. -/
theorem prepareSendBuf_needs_room {pBufDes p out : List UInt8} {param : UInt32} {m n : Nat}
    (h : prepareSendBuf pBufDes p m param = some (out, n)) : m + 15 ≤ pBufDes.length := by
  simp only [prepareSendBuf, bind, Option.bind_eq_some_iff, guard] at h
  obtain ⟨d₁, h₁, d₂, h₂, d₃, h₃, _, _, d₄, h₄, d₅, h₅, d₆, h₆, _⟩ := h
  have hfits := blit_fits h₆
  rw [blit_length h₅, blit_length h₄, blit_length h₃, blit_length h₂, blit_length h₁,
    List.length_singleton] at hfits
  omega

theorem prepareSendBuf_overflow {pBufDes pBufSrc : List UInt8} {n : Nat} (param : UInt32)
    (h : pBufDes.length < n + 15) : prepareSendBuf pBufDes pBufSrc n param = none := by
  by_contra hsome
  have ⟨⟨_, _⟩, hout⟩ := Option.ne_none_iff_exists'.mp hsome
  have hroom := prepareSendBuf_needs_room hout
  omega

/-- The bytes the server's encoder leaves in the front of the destination. -/
theorem prepareSendBuf_bytes {pBufDes p out : List UInt8} {param : UInt32} {n : Nat}
    (h : prepareSendBuf pBufDes p p.length param = some (out, n)) :
    out.take n = frameHead param p.length ++
      (p ++ (leBytes (byteSum (frameHead param p.length ++ p)) ++ [0x45])) := by
  simp only [prepareSendBuf, bind, Option.bind_eq_some_iff, guard] at h
  obtain ⟨d₁, h₁, d₂, h₂, d₃, h₃, u, -, d₄, h₄, d₅, h₅, d₆, h₆, heq⟩ := h
  rw [List.take_of_length_le (Nat.le_refl _)] at h₄
  simp only [Option.some.injEq, Prod.mk.injEq] at heq
  obtain ⟨rfl, rfl⟩ := heq
  have t₁ := blit_take h₁
  have t₂ := blit_take h₂
  have t₃ := blit_take h₃
  have t₄ := blit_take h₄
  have t₅ := blit_take h₅
  have t₆ := blit_take h₆
  simp only [List.length_cons, List.length_nil, leBytes_length, Nat.zero_add, Nat.reduceAdd,
    List.take_zero, List.nil_append] at t₁ t₂ t₃ t₅ t₆
  rw [t₆, t₅, t₄, t₃, t₂, t₁]
  simp only [frameHead, List.append_assoc]

/-- What the server's encoder leaves in the front of the destination is a frame of the payload. -/
theorem prepareSendBuf_frame {pBufDes p out : List UInt8} {param : UInt32} {n : Nat}
    (hfits : p.length + flagLen < 2 ^ 31)
    (h : prepareSendBuf pBufDes p p.length param = some (out, n)) :
    ∃ f : Frame, f.payload = p ∧ f.param = param ∧ out.take n = f.bytes := by
  refine ⟨⟨param, p, byteSum (frameHead param p.length ++ p), hfits⟩, rfl, rfl, ?_⟩
  rw [prepareSendBuf_bytes h]
  simp only [frameHead, Frame.bytes, Frame.header, Frame.trailer, flagLen, List.append_assoc]

/-- Fifteen bytes more than the payload are enough, and all of them are used. -/
theorem prepareSendBuf_room {pBufDes p : List UInt8} (param : UInt32)
    (h : p.length + 15 ≤ pBufDes.length) :
    ∃ out, prepareSendBuf pBufDes p p.length param = some (out, p.length + 15) := by
  have hstore (d src : List UInt8) (i : Nat) (hd : d.length = pBufDes.length)
      (hi : i + src.length ≤ p.length + 15) :
      ∃ d', blit d i src = some d' ∧ d'.length = pBufDes.length :=
    ⟨_, blit_eq_some (by omega), (blit_length (blit_eq_some (by omega))).trans hd⟩
  obtain ⟨d₁, h₁, l₁⟩ := hstore pBufDes [0x53, 0x3A] 0 rfl (by simp)
  obtain ⟨d₂, h₂, l₂⟩ := hstore d₁ (leBytes param) 2 l₁ (by rw [leBytes_length]; omega)
  obtain ⟨d₃, h₃, l₃⟩ := hstore d₂ (leBytes (UInt32.ofNat (p.length + 15))) 6 l₂
    (by rw [leBytes_length]; omega)
  obtain ⟨d₄, h₄, l₄⟩ := hstore d₃ (p.take p.length) 10 l₃ (by rw [List.take_length]; omega)
  obtain ⟨d₅, h₅, l₅⟩ := hstore d₄ (leBytes (byteSum (d₄.take (10 + p.length)))) (10 + p.length) l₄
    (by rw [leBytes_length]; omega)
  obtain ⟨d₆, h₆, -⟩ := hstore d₅ [0x45] (10 + p.length + 4) l₅
    (by simp only [List.length_singleton]; omega)
  refine ⟨d₆, ?_⟩
  simp only [prepareSendBuf, h₁, h₂, h₃, h₄, h₅, h₆, bind, Option.bind_some, guard, Nat.le_refl,
    if_true, pure, Option.some.injEq, Prod.mk.injEq, true_and]
  omega

/-! ## 4. The Java client's encoder -/

/-- A Java `byte` read as an `int`, sign and all. -/
def javaInt (b : UInt8) : Int32 := b.toInt8.toInt32

/-- The cast `(byte)` of an `int`. -/
def javaByte (x : Int32) : UInt8 := x.toInt8.toUInt8

/-- `(byte) (x & 0xff), (byte) (x >> 8 & 0xff), (byte) (x >> 16 & 0xff), (byte) (x >> 24 & 0xff)`. -/
def javaIntBytes (x : Int32) : List UInt8 :=
  [javaByte (x &&& 0xff), javaByte (x >>> 8 &&& 0xff), javaByte (x >>> 16 &&& 0xff),
    javaByte (x >>> 24 &&& 0xff)]

/-- The running `int ecode` over the bytes of an array. -/
def javaByteSum (bs : List UInt8) : Int32 := bs.foldl (fun ecode bit => ecode + javaInt bit) 0

/-- `tcp_stream_pack.pack_prepare`.  The array copy throws when `buf_len` is more than the array
holds; the checksum runs over the whole array. -/
def packPrepare (in_buf : List UInt8) (buf_len : Nat) (param : Int32) : Option (List UInt8) := do
  guard (buf_len ≤ in_buf.length)
  let pack_len : Int32 := Int32.ofNat (buf_len + 15)
  some ([0x53, 0x3A] ++ javaIntBytes param ++ javaIntBytes pack_len ++ in_buf.take buf_len ++
    javaIntBytes (javaByteSum in_buf) ++ [0x45])

/-- Masking after an arithmetic shift leaves the byte at that position. -/
private theorem maskedShift (x : BitVec 32) (k : Nat) (hk : k ≤ 24) :
    (x.sshiftRight k).signExtend 8 &&& 255#8 = (x >>> k).setWidth 8 := by
  rw [show 255#8 = BitVec.allOnes 8 from rfl, BitVec.and_allOnes]
  ext i hi
  simp [BitVec.getElem_signExtend, BitVec.getElem_sshiftRight, show i < 32 by omega,
    show k + i < 32 by omega]

/-- Shifting and masking an `int` gives the bytes of its bit pattern. -/
theorem javaIntBytes_eq (x : Int32) : javaIntBytes x = leBytes x.toUInt32 := by
  have h₀ := maskedShift x.toBitVec 0 (by omega)
  have h₁ := maskedShift x.toBitVec 8 (by omega)
  have h₂ := maskedShift x.toBitVec 16 (by omega)
  have h₃ := maskedShift x.toBitVec 24 (by omega)
  simp only [javaIntBytes, leBytes, javaByte, List.cons.injEq, and_true]
  refine ⟨?_, ?_, ?_, ?_⟩ <;> apply UInt8.eq_of_toBitVec_eq
  · simpa using h₀
  · simpa using h₁
  · simpa using h₂
  · simpa using h₃

/-- The bytes the Java encoder returns. -/
theorem packPrepare_bytes (p : List UInt8) (param : Int32) :
    packPrepare p p.length param = some (frameHead param.toUInt32 p.length ++
      (p ++ (leBytes (javaByteSum p).toUInt32 ++ [0x45]))) := by
  have hlen : (Int32.ofNat (p.length + 15)).toUInt32 = UInt32.ofNat (p.length + 15) := rfl
  simp only [packPrepare, guard, Nat.le_refl, if_true, pure, bind, Option.bind_some,
    javaIntBytes_eq, hlen, List.take_length, frameHead, List.append_assoc]

/-- What the Java encoder returns is a frame of the payload. -/
theorem packPrepare_frame {p out : List UInt8} {param : Int32}
    (hfits : p.length + flagLen < 2 ^ 31) (h : packPrepare p p.length param = some out) :
    ∃ f : Frame, f.payload = p ∧ f.param = param.toUInt32 ∧ out = f.bytes := by
  rw [packPrepare_bytes, Option.some.injEq] at h
  refine ⟨⟨param.toUInt32, p, (javaByteSum p).toUInt32, hfits⟩, rfl, rfl, ?_⟩
  rw [← h]
  simp only [frameHead, Frame.bytes, Frame.header, Frame.trailer, flagLen, List.append_assoc]

end VerifyServer.Socket
