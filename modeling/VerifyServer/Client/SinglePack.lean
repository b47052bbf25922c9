import VerifyServer.Client.StreamCut

/-!
# SinglePack — `tcp_stream_pack` of the verify client

This client reads one packet from one array.  `_getPackLen` puts the length together from signed
bytes, in 32-bit arithmetic: it starts from `0xffffffff`, which the first byte is masked into and
the other three are shifted into.
-/

open VerifyServer.Reasoning VerifyServer.Socket

namespace VerifyServer.Client.SinglePack

/-! ## 1. The reader -/

/-- `in_buf[i]`. -/
def byteAt (in_buf : List UInt8) (i : Nat) : Except JavaException UInt8 :=
  match in_buf[i]? with
  | some b => .ok b
  | none => .error .arrayIndexOutOfBounds

/-- `_getPackLen(in_buf, len)`. -/
def getPackLen (in_buf : List UInt8) (len : Int32) : Except JavaException Int32 := do
  let ret_len : Int32 := 0xffffffff
  if len < 10 then return 0xffffffff
  if (← byteAt in_buf 0) ≠ 0x53 then return ret_len
  if (← byteAt in_buf 1) ≠ 0x3A then return ret_len
  let ret_len := ret_len &&& ((javaInt (← byteAt in_buf 6) &&& 0xff) <<< 0)
  let ret_len := ret_len ||| ((javaInt (← byteAt in_buf 7) &&& 0xff) <<< 8)
  let ret_len := ret_len ||| ((javaInt (← byteAt in_buf 8) &&& 0xff) <<< 16)
  let ret_len := ret_len ||| ((javaInt (← byteAt in_buf 9) &&& 0xff) <<< 24)
  return ret_len

/-- `pack_parse(in_buf, buf_len)`. -/
def packParse (in_buf : List UInt8) (buf_len : Int32) : Except JavaException (List UInt8) := do
  let pack_len ← getPackLen in_buf buf_len
  if pack_len ≠ 0xffffffff then
    match newByte (pack_len - 15).toInt with
    | none => .error .negativeArraySize
    | some out_buf =>
      match arraycopy in_buf 10 out_buf 0 (pack_len - 15).toInt with
      | none => .error .arrayIndexOutOfBounds
      | some out_buf => return out_buf
  else
    return [0]

/-! ## 2. The length field -/

/-- The mask undoes the sign extension of a byte. -/
theorem toUInt32_maskedByte (b : UInt8) : (javaInt b &&& 0xff).toUInt32 = b.toUInt32 := by
  apply UInt32.eq_of_toBitVec_eq
  simp only [javaInt, Int32.toBitVec_toUInt32, Int32.toBitVec_and, Int8.toBitVec_toInt32,
    UInt8.toBitVec_toInt8, UInt8.toBitVec_toUInt32]
  change b.toBitVec.signExtend 32 &&& (BitVec.allOnes 8).setWidth 32 = _
  ext i hi
  rw [BitVec.getElem_and, BitVec.getElem_signExtend, BitVec.getElem_setWidth,
    BitVec.getElem_setWidth, BitVec.getLsbD_allOnes]
  by_cases h : i < 8
  · simp [h]
  · simp [h, BitVec.getLsbD_of_ge b.toBitVec i (by omega)]

/-- The four steps of `_getPackLen` put the bytes of a word together. -/
theorem retLen_eq (b₀ b₁ b₂ b₃ : UInt8) :
    (((((0xffffffff : Int32) &&& ((javaInt b₀ &&& 0xff) <<< 0)) |||
      ((javaInt b₁ &&& 0xff) <<< 8)) ||| ((javaInt b₂ &&& 0xff) <<< 16)) |||
      ((javaInt b₃ &&& 0xff) <<< 24)).toUInt32 = leWord b₀ b₁ b₂ b₃ := by
  have h₀ := congrArg UInt32.toBitVec (toUInt32_maskedByte b₀)
  have h₁ := congrArg UInt32.toBitVec (toUInt32_maskedByte b₁)
  have h₂ := congrArg UInt32.toBitVec (toUInt32_maskedByte b₂)
  have h₃ := congrArg UInt32.toBitVec (toUInt32_maskedByte b₃)
  rw [Int32.toBitVec_toUInt32] at h₀ h₁ h₂ h₃
  apply UInt32.eq_of_toBitVec_eq
  have hones : (0xffffffff : Int32).toBitVec = BitVec.allOnes 32 := rfl
  have hzero (x : Int32) : x <<< (0 : Int32) = x := Int32.shiftLeft_zero
  have hshift (x : Int32) (k : Int32) : (x <<< k).toBitVec =
      x.toBitVec <<< (k.toBitVec.smod 32) := Int32.toBitVec_shiftLeft x k
  simp only [Int32.toBitVec_toUInt32, Int32.toBitVec_or, Int32.toBitVec_and, hzero, hshift, h₀, h₁,
    h₂, h₃, leWord, UInt32.toBitVec_or, UInt32.toBitVec_shiftLeft, hones, BitVec.allOnes_and]
  rfl

/-- The length field of a frame is read back, whatever its bytes are. -/
theorem getPackLen_frameHead (param : UInt32) (n : Nat) (rest : List UInt8) {len : Int32}
    (hlen : 10 ≤ len.toInt) :
    getPackLen (frameHead param n ++ rest) len = .ok (Int32.ofNat (n + 15)) := by
  have hword := retLen_eq (UInt32.ofNat (n + 15)).toUInt8 (UInt32.ofNat (n + 15) >>> 8).toUInt8
    (UInt32.ofNat (n + 15) >>> 16).toUInt8 (UInt32.ofNat (n + 15) >>> 24).toUInt8
  rw [leWord_leBytes] at hword
  have hnot : ¬ len < 10 := by
    rw [Int32.lt_iff_toInt_lt]
    change ¬ len.toInt < 10
    omega
  unfold getPackLen
  rw [if_neg hnot]
  exact congrArg Except.ok (congrArg Int32.ofUInt32 hword)

/-! ## 3. The round trip -/

/-- The part behind the header fills a new array of its length. -/
theorem arraycopy_payload (head p tail : List UInt8) (hhead : head.length = 10) :
    arraycopy (head ++ (p ++ tail)) 10 (List.replicate p.length 0) 0 p.length = some p := by
  have hcopy : arraycopy (head ++ (p ++ tail)) 10 (List.replicate p.length 0) 0 p.length =
      some ([] ++ p ++ []) :=
    arraycopy_append (a := head) (c := tail) (x := []) (y := List.replicate p.length 0) (z := [])
      (List.append_assoc head p tail).symm (by rw [hhead]; rfl) (by simp) rfl rfl
      List.length_replicate
  rw [hcopy, List.nil_append, List.append_nil]

/-- The reader takes back what the encoder was given, with anything behind the packet and any
stated length that covers it. -/
theorem packParse_packPrepare (p : List UInt8) (param : Int32) (hp : p.length < 2 ^ 31 - 15) :
    ∃ pack, packPrepare p p.length param = some pack ∧ pack.length = p.length + 15 ∧
      ∀ (rest : List UInt8) (buf_len : Int32), (pack.length : Int) ≤ buf_len.toInt →
        packParse (pack ++ rest) buf_len = .ok p := by
  have hlen : (frameHead param.toUInt32 p.length ++
      (p ++ (leBytes (javaByteSum p).toUInt32 ++ [0x45]))).length = p.length + 15 := by
    simp only [frameHead, List.length_append, leBytes_length, List.length_cons, List.length_nil]
    omega
  apply Exists.intro _
  apply And.intro (packPrepare_bytes p param)
  apply And.intro hlen
  intro rest buf_len hbuf
  rw [hlen] at hbuf
  have hpack : getPackLen (frameHead param.toUInt32 p.length ++
      (p ++ (leBytes (javaByteSum p).toUInt32 ++ [0x45])) ++ rest) buf_len =
        .ok (Int32.ofNat (p.length + 15)) := by
    rw [List.append_assoc]
    exact getPackLen_frameHead _ _ _ (by omega)
  have hvalue : (Int32.ofNat (p.length + 15)).toInt = p.length + 15 := by
    rw [Int32.toInt_ofNat_of_lt (by omega)]
    push_cast
    rfl
  have hsome : Int32.ofNat (p.length + 15) ≠ 0xffffffff := by
    intro h
    rw [h] at hvalue
    change (-1 : Int) = _ at hvalue
    omega
  have hsub : (Int32.ofNat (p.length + 15) - 15).toInt = p.length := by
    have h := Int32.ofNat_sub (p.length + 15) 15 (by omega)
    rw [Nat.add_sub_cancel] at h
    change Int32.ofNat p.length = Int32.ofNat (p.length + 15) - 15 at h
    rw [← h, Int32.toInt_ofNat_of_lt (by omega)]
  have hcopy := arraycopy_payload (frameHead param.toUInt32 p.length) p
    (leBytes (javaByteSum p).toUInt32 ++ [0x45] ++ rest) rfl
  have hbuf_eq : frameHead param.toUInt32 p.length ++
      (p ++ (leBytes (javaByteSum p).toUInt32 ++ [0x45])) ++ rest =
        frameHead param.toUInt32 p.length ++
          (p ++ (leBytes (javaByteSum p).toUInt32 ++ [0x45] ++ rest)) := by
    simp only [List.append_assoc]
  unfold packParse
  rw [hpack]
  change (if Int32.ofNat (p.length + 15) ≠ 0xffffffff then _ else _) = _
  rw [if_pos hsome, hsub, newByte_eq_some rfl (by omega)]
  simp only [hbuf_eq, hcopy]
  rfl

theorem packParse_packPrepare_behind : ∃ pack, packPrepare [200, 255] 2 7 = some pack ∧
    packParse (pack ++ [0x53]) 18 = .ok [200, 255] := by
  have ⟨pack, hpack, hlen, h⟩ := packParse_packPrepare [200, 255] 7 (by decide)
  apply Exists.intro pack
  apply And.intro hpack
  apply h [0x53] 18
  rw [hlen]
  decide

end VerifyServer.Client.SinglePack
