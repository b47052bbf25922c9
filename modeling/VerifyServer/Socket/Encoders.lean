import VerifyServer.Socket.Frame

/-!
# Encoders — what the two encoders put on the wire

`PrepareSendBuf` and `pack_prepare` write the same header and the same end marker.  Their
checksums differ in two ways: the server sums the header with the payload, and it sums `BYTE`s where
the client sums Java `byte`s.
-/

open VerifyServer.Reasoning

namespace VerifyServer.Socket

/-! ## 1. The two sums -/

/-- The number of bytes from `0x80` on, which a Java `byte` holds as negative numbers. -/
def highBytes (bs : List UInt8) : Nat := bs.countP (0x80 ≤ ·)

/-- The sum of the ten header bytes. -/
def headSum (param : UInt32) (n : Nat) : Nat := ((frameHead param n).map UInt8.toNat).sum

theorem byteSum_eq (bs : List UInt8) : byteSum bs = UInt32.ofNat (bs.map UInt8.toNat).sum := by
  suffices h : ∀ nSum, bs.foldl (fun nSum b => nSum + b.toUInt32) nSum =
      nSum + UInt32.ofNat (bs.map UInt8.toNat).sum by
    rw [byteSum, h 0, UInt32.zero_add]
  induction bs with
  | nil => exact fun nSum => (UInt32.add_zero nSum).symm
  | cons b bs ih =>
    intro nSum
    rw [List.foldl_cons, ih, List.map_cons, List.sum_cons, UInt32.ofNat_add, UInt32.add_assoc]
    rw [show UInt32.ofNat b.toNat = b.toUInt32 from UInt32.ofNat_uInt8ToNat b]

theorem byteSum_append (as bs : List UInt8) : byteSum (as ++ bs) = byteSum as + byteSum bs := by
  rw [byteSum_eq, byteSum_eq, byteSum_eq, List.map_append, List.sum_append, UInt32.ofNat_add]

/-- Reading a byte as a Java `byte` takes 256 off when its top bit is set. -/
theorem javaInt_toUInt32 (b : UInt8) :
    (javaInt b).toUInt32 + UInt32.ofNat (if 0x80 ≤ b then 256 else 0) = b.toUInt32 := by
  revert b
  decide +kernel

/-- The client's sum of a payload is the server's less 256 for every high byte. -/
theorem javaByteSum_add (bs : List UInt8) :
    (javaByteSum bs).toUInt32 + UInt32.ofNat (256 * highBytes bs) = byteSum bs := by
  suffices h : ∀ ecode : Int32,
      (bs.foldl (fun ecode bit => ecode + javaInt bit) ecode).toUInt32 +
        UInt32.ofNat (256 * highBytes bs) = ecode.toUInt32 + byteSum bs by
    rw [javaByteSum, h 0]
    exact UInt32.zero_add _
  induction bs with
  | nil => exact fun ecode => rfl
  | cons b bs ih =>
    intro ecode
    have hcount : 256 * highBytes (b :: bs) =
        256 * highBytes bs + if 0x80 ≤ b then 256 else 0 := by
      rw [highBytes, highBytes, List.countP_cons]
      simp only [decide_eq_true_eq]
      split <;> omega
    rw [List.foldl_cons, hcount, UInt32.ofNat_add, ← UInt32.add_assoc, ih, Int32.toUInt32_add,
      show b :: bs = [b] ++ bs from rfl, byteSum_append,
      show byteSum [b] = b.toUInt32 from UInt32.zero_add _, ← javaInt_toUInt32 b]
    ac_rfl

/-! ## 2. The two frames -/

theorem leBytes_injective {v w : UInt32} (h : leBytes v = leBytes w) : v = w := by
  simp only [leBytes, List.cons.injEq, and_true] at h
  rw [← leWord_leBytes v, h.1, h.2.1, h.2.2.1, h.2.2.2, leWord_leBytes]

/-- The checksums agree when the header bytes and the high bytes' 256s cancel out. -/
theorem checksums_eq_iff (param : UInt32) (p : List UInt8) :
    byteSum (frameHead param p.length ++ p) = (javaByteSum p).toUInt32 ↔
      (headSum param p.length + 256 * highBytes p) % 2 ^ 32 = 0 := by
  have hsum : byteSum (frameHead param p.length ++ p) =
      UInt32.ofNat (headSum param p.length + 256 * highBytes p) + (javaByteSum p).toUInt32 := by
    rw [byteSum_append, byteSum_eq (frameHead param p.length), ← javaByteSum_add p, ← headSum,
      UInt32.ofNat_add]
    ac_rfl
  rw [hsum]
  constructor
  · intro h
    have hzero := congrArg UInt32.toNat (UInt32.add_eq_right.mp h)
    rwa [UInt32.toNat_ofNat'] at hzero
  · intro h
    rw [UInt32.add_eq_right]
    apply UInt32.toNat_inj.mp
    rw [UInt32.toNat_ofNat', h]
    rfl

/-- The encoders write the same bytes exactly when the destination has room for the frame and the
sum of its header bytes, with 256 more for each high byte of the payload, is a multiple of
`2 ^ 32`. -/
theorem encoders_agree_iff (pBufDes p : List UInt8) (param : UInt32) :
    (prepareSendBuf pBufDes p p.length param).map (fun (d, n) => d.take n) =
        packPrepare p p.length param.toInt32 ↔
      p.length + 15 ≤ pBufDes.length ∧
        (headSum param p.length + 256 * highBytes p) % 2 ^ 32 = 0 := by
  rw [packPrepare_bytes, UInt32.toUInt32_toInt32]
  by_cases hroom : p.length + 15 ≤ pBufDes.length
  · have ⟨out, hout⟩ := prepareSendBuf_room param hroom
    rw [hout, Option.map_some]
    show some (out.take (p.length + 15)) = _ ↔ _
    rw [prepareSendBuf_bytes hout, Option.some.injEq,
      List.append_cancel_left_eq, List.append_cancel_left_eq, List.append_cancel_right_eq,
      ← checksums_eq_iff]
    exact ⟨fun h => ⟨hroom, leBytes_injective h⟩, fun h => congrArg leBytes h.2⟩
  · rw [prepareSendBuf_overflow param (by omega), Option.map_none]
    constructor
    · exact fun h => nomatch h
    · exact fun h => absurd h.1 hroom

/-- The empty payload under the parameter 0: the server writes 156, the client 0. -/
theorem encoders_part_on_empty :
    prepareSendBuf (List.replicate 15 0) [] 0 0 =
        some ([0x53, 0x3A, 0, 0, 0, 0, 15, 0, 0, 0, 156, 0, 0, 0, 0x45], 15) ∧
      packPrepare [] 0 0 = some [0x53, 0x3A, 0, 0, 0, 0, 15, 0, 0, 0, 0, 0, 0, 0, 0x45] ∧
      ¬ ∀ (pBufDes p : List UInt8) (param : UInt32), p.length + 15 ≤ pBufDes.length →
        (prepareSendBuf pBufDes p p.length param).map (fun (d, n) => d.take n) =
          packPrepare p p.length param.toInt32 := by
  have hserver : prepareSendBuf (List.replicate 15 0) [] 0 0 =
      some ([0x53, 0x3A, 0, 0, 0, 0, 15, 0, 0, 0, 156, 0, 0, 0, 0x45], 15) := by decide
  have hclient : packPrepare [] 0 0 =
      some [0x53, 0x3A, 0, 0, 0, 0, 15, 0, 0, 0, 0, 0, 0, 0, 0x45] := by decide
  refine ⟨hserver, hclient, fun hall => ?_⟩
  have h := hall (List.replicate 15 0) [] 0 (by decide)
  revert h
  decide

/-! ## 3. Short payloads -/

theorem headSum_pos (param : UInt32) (n : Nat) : 0x53 < headSum param n := by
  simp only [headSum, frameHead, List.map_append, List.sum_append, List.map_cons, List.sum_cons]
  have hS : (0x53 : UInt8).toNat = 0x53 := rfl
  have hcolon : (0x3A : UInt8).toNat = 0x3A := rfl
  omega

theorem headSum_le (param : UInt32) (n : Nat) : headSum param n ≤ 2550 := by
  have hbyte (b : UInt8) : b.toNat ≤ 255 := Nat.le_of_lt_succ b.toNat_lt
  have hsum (bs : List UInt8) : (bs.map UInt8.toNat).sum ≤ bs.length * 255 := by
    apply le_of_le_of_eq (List.sum_le_card_nsmul _ 255 ?_) (by rw [List.length_map]; rfl)
    intro x hx
    have ⟨b, _, hb⟩ := List.mem_map.mp hx
    exact hb ▸ hbyte b
  have hlen : (frameHead param n).length = 10 := rfl
  have h := hsum (frameHead param n)
  rwa [hlen] at h

/-- Below sixteen megabytes no frame of one encoder is the other's. -/
theorem encoders_part_below (pBufDes p : List UInt8) (param : UInt32) (h : p.length < 2 ^ 24 - 9) :
    (prepareSendBuf pBufDes p p.length param).map (fun (d, n) => d.take n) ≠
      packPrepare p p.length param.toInt32 := by
  intro hagree
  have ⟨_, hzero⟩ := (encoders_agree_iff pBufDes p param).mp hagree
  have hcount : highBytes p ≤ p.length := List.countP_le_length
  have hpos := headSum_pos param p.length
  have hle := headSum_le param p.length
  omega

end VerifyServer.Socket
