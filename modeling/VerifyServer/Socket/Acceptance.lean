import VerifyServer.Socket.Segmentation

/-!
# Acceptance — which byte strings `SaveData` takes for a frame

The encoder writes a checksum and an end marker behind the payload.  The server, like the Java
client, cuts them off without a look at them: two encoders that compute different checksums talk to
it.  What decides is the two header letters, once the length field fits.
-/

open VerifyServer.Reasoning

namespace VerifyServer.Socket

/-- `b` is the frame `PrepareSendBuf` builds from `p` and the param field of `b`. -/
def IsBuilt (b p : List UInt8) : Prop :=
  ∃ pBufDes out n, prepareSendBuf pBufDes p p.length (readLeWord b 2) = some (out, n) ∧
    out.take n = b

/-- `b` has the length of that frame, and its bytes up to the checksum and the end marker. -/
def IsBuiltButTrailer (b p : List UInt8) : Prop :=
  ∃ pBufDes out n, prepareSendBuf pBufDes p p.length (readLeWord b 2) = some (out, n) ∧
    n = b.length ∧ out.take (n - 5) = b.take (n - 5)

/-! ## 1. The header -/

theorem take_header {b : List UInt8} (h : 10 ≤ b.length) (hhead : startsWithHead b = true) :
    b.take 10 = [0x53, 0x3A] ++ leBytes (readLeWord b 2) ++ leBytes (readLeWord b 6) := by
  match b, h with
  | b₀ :: b₁ :: b₂ :: b₃ :: b₄ :: b₅ :: b₆ :: b₇ :: b₈ :: b₉ :: rest, _ =>
    have hletters : b₀ = 0x53 ∧ b₁ = 0x3A := by simpa [startsWithHead] using hhead
    obtain ⟨rfl, rfl⟩ := hletters
    have hparam := leBytes_leWord b₂ b₃ b₄ b₅
    have hlength := leBytes_leWord b₆ b₇ b₈ b₉
    simp only [readLeWord, List.getD_cons_succ, List.getD_cons_zero]
    rw [hparam, hlength]
    rfl

theorem take_trailer {b : List UInt8} (h : 15 ≤ b.length) :
    b.take (b.length - 5) = b.take 10 ++ packetPayload b := by
  rw [packetPayload, flagLen, show b.length - 5 = 10 + (b.length - 15) by omega, List.take_add]

/-- A length field that names the length of the bytes: they are one packet, or no packet. -/
theorem getPacketLen_own {b : List UInt8} (h15 : 15 ≤ b.length) (hlt : b.length < 2 ^ 31)
    (hlen : readLeWord b 6 = UInt32.ofNat b.length) :
    getPacketLen b = if startsWithHead b then (b.length : Int) else noPacket := by
  have hge : 15 ≤ UInt32.ofNat b.length := by
    rw [UInt32.le_iff_toNat_le, UInt32.toNat_ofNat_of_lt' (by unfold UInt32.size; omega)]
    exact h15
  unfold getPacketLen
  simp only [hlen]
  rw [if_neg (by omega), if_pos hge, intOfDword_ofNat hlt]

theorem startsWithHead_take (b : List UInt8) {k : Nat} (h : 2 ≤ k) :
    startsWithHead (b.take k) = startsWithHead b := by
  match k, h with
  | k + 2, _ =>
    match b with
    | [] | [_] | _ :: _ :: _ => rfl

/-! ## 2. Acceptance -/

theorem saveData_own {env : SaveEnv} (henv : env.Delivers) {b : List UInt8} (h15 : 15 ≤ b.length)
    (hlt : b.length < 2 ^ 31) (hlen : readLeWord b 6 = UInt32.ofNat b.length) :
    (saveData env {} b).revs.map Rev.rev_buf =
      if startsWithHead b then [packetPayload b ++ [0]] else [] := by
  have hclean : IoContext.Clean {} := by decide
  have hown := getPacketLen_own h15 hlt hlen
  by_cases hhead : startsWithHead b = true
  · rw [if_pos hhead] at hown ⊢
    have hrest : Drains (b.drop b.length) [] (.held (b.drop b.length)) :=
      .short (by rw [List.drop_length]; exact Nat.zero_le _)
    have hdrain : Drains ([] ++ b) [b] (.held (b.drop b.length)) := by
      have := Drains.packet hown (Nat.le_refl _) hrest
      rwa [List.take_length] at this
    rw [(saveData_feeds env (pending_of_clean hclean) hdrain).revs, List.flatMap_singleton,
      SaveEnv.packetRevs]
    simp only
    rw [if_pos ⟨henv.counts _, henv.recevier⟩]
    rfl
  · rw [if_neg hhead] at hown ⊢
    have hdrain : Drains ([] ++ b) [] .junk := .junk (by rw [List.nil_append]; omega) hown
    rw [(saveData_feeds env (pending_of_clean hclean) hdrain).revs]
    rfl

theorem isBuiltButTrailer_iff {b p : List UInt8} (h15 : 15 ≤ b.length) (hlt : b.length < 2 ^ 31)
    (hlen : readLeWord b 6 = UInt32.ofNat b.length) :
    IsBuiltButTrailer b p ↔ startsWithHead b = true ∧ p = packetPayload b := by
  -- the frame of a payload, up to its last five bytes
  have hfront {p out : List UInt8} {pBufDes : List UInt8} {n : Nat} (hn : n = b.length)
      (hroom : p.length + 15 = b.length)
      (hout : prepareSendBuf pBufDes p p.length (readLeWord b 2) = some (out, n)) :
      out.take (n - 5) = [0x53, 0x3A] ++ leBytes (readLeWord b 2) ++ leBytes (readLeWord b 6) ++ p := by
    obtain ⟨f, rfl, hparam, hbytes⟩ := prepareSendBuf_frame (by rw [flagLen]; omega) hout
    have hshort : out.take (n - 5) = f.bytes.take (n - 5) := by
      rw [← hbytes, List.take_take, Nat.min_eq_left (by omega)]
    have hcut : n - 5 = (f.header ++ f.payload).length := by
      rw [List.length_append, f.header_length]
      omega
    rw [hshort, Frame.bytes, ← List.append_assoc, hcut, List.take_left' rfl, Frame.header, hparam,
      hlen, flagLen, hroom]
  constructor
  · rintro ⟨pBufDes, out, n, hout, hn, htake⟩
    have hroom : p.length + 15 = b.length := (prepareSendBuf_count hout).symm.trans hn
    rw [hfront hn hroom hout, hn] at htake
    have hhead : startsWithHead b = true := by
      rw [← startsWithHead_take b (k := b.length - 5) (by omega), ← htake]
      simp [startsWithHead]
    refine ⟨hhead, ?_⟩
    rw [take_trailer h15, take_header (by omega) hhead] at htake
    exact List.append_cancel_left htake
  · rintro ⟨hhead, rfl⟩
    have hroom : (packetPayload b).length + 15 = b.length := by
      rw [packetPayload, flagLen, List.length_take, List.length_drop]
      omega
    have hdes : (packetPayload b).length + 15 ≤ (List.replicate b.length (0 : UInt8)).length := by
      rw [List.length_replicate]
      exact hroom.le
    obtain ⟨out, hout⟩ := prepareSendBuf_room (readLeWord b 2) hdes
    refine ⟨_, out, _, hout, hroom, ?_⟩
    rw [hfront hroom hroom hout, hroom, take_trailer h15, take_header (by omega) hhead]

/-- **Acceptance.**  Bytes whose length field fits are delivered as the payload `p` exactly when
they are the frame of `p` up to the checksum and the end marker. -/
theorem saveData_accepts_iff {env : SaveEnv} (henv : env.Delivers) {b : List UInt8}
    (h15 : 15 ≤ b.length) (hlt : b.length < 2 ^ 31)
    (hlen : readLeWord b 6 = UInt32.ofNat b.length) (p : List UInt8) :
    (saveData env {} b).revs.map Rev.rev_buf = [p ++ [0]] ↔ IsBuiltButTrailer b p := by
  rw [isBuiltButTrailer_iff h15 hlt hlen, saveData_own henv h15 hlt hlen]
  by_cases hhead : startsWithHead b = true
  · rw [if_pos hhead]
    simp [hhead, eq_comm]
  · rw [if_neg hhead]
    simp [hhead]

-- the frame of `{}` as the server builds it, but for the end marker
private def otherMarker : List UInt8 :=
  [0x53, 0x3A, 50, 0, 0, 0, 17, 0, 0, 0, 0x7B, 0x7D, 0xC8, 1, 0, 0, 0x46]

theorem saveData_accepts_iff_braces :
    (saveData asciiEnv {} otherMarker).revs.map Rev.rev_buf =
        [[0x7B, 0x7D] ++ [0]] ↔
      IsBuiltButTrailer otherMarker [0x7B, 0x7D] :=
  saveData_accepts_iff asciiEnv_delivers (by decide) (by decide) (by decide) _

/-- A frame with another end marker is delivered. -/
theorem saveData_accepts_altered :
    15 ≤ otherMarker.length ∧ readLeWord otherMarker 6 = UInt32.ofNat otherMarker.length ∧
      (saveData asciiEnv {} otherMarker).revs.map Rev.rev_buf =
        [[0x7B, 0x7D] ++ [0]] ∧
      ¬ IsBuilt otherMarker [0x7B, 0x7D] := by
  refine ⟨by decide, by decide, ?_, ?_⟩
  · rw [saveData_own asciiEnv_delivers (by decide) (by decide) (by decide)]
    rfl
  · rintro ⟨pBufDes, out, n, hout, htake⟩
    obtain ⟨f, -, -, hbytes⟩ := prepareSendBuf_frame (by decide) hout
    have hlast := congrArg List.getLast? (hbytes.symm.trans htake)
    rw [Frame.bytes, Frame.trailer, ← List.append_assoc, ← List.append_assoc,
      List.getLast?_concat] at hlast
    exact absurd hlast (by decide)

end VerifyServer.Socket
