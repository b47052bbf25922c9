import VerifyServer.Reasoning.Utf8
import VerifyServer.Recevier.ThreadSocketRecevier
import VerifyServer.Socket.Packets

/-!
# WideText — the text `Recevie` builds from what `SaveData` hands over

`SaveData` puts one zero byte behind the UTF-8 payload, counts the wide characters the text would
have, and passes the bytes as they are.  `Recevie` takes the pointer for one to wide characters and
reads two bytes at a time up to a zero unit.
-/

open VerifyServer.Reasoning VerifyServer.Socket

namespace VerifyServer.Recevier

/-! ## 1. Reading wide characters -/

/-- `MyString(reinterpret_cast<TCHAR*>(rev_buf))` on a buffer of these bytes; no result when a byte
behind its end is read. -/
def strData : List UInt8 → Option Text
  | b₀ :: b₁ :: rest =>
    let u := UInt16.ofNat (b₀.toNat + 0x100 * b₁.toNat)
    if u = 0 then some [] else (strData rest).map (u :: ·)
  | _ => none

/-- One zero byte does not end wide text. -/
theorem strData_one_zero {p : List UInt8} (hp : 0 ∉ p) : strData (p ++ [0]) = none := by
  fun_induction strData p with
  | case1 b₀ b₁ rest u hu =>
    have hb₀ : b₀.toNat ≠ 0 := fun h =>
      hp (List.mem_cons.mpr (.inl (UInt8.toNat_inj.mp h.symm)))
    have hlt₀ := b₀.toNat_lt
    have hlt₁ := b₁.toNat_lt
    have hzero := congrArg UInt16.toNat hu
    rw [UInt16.toNat_ofNat_of_lt' (by unfold UInt16.size; omega)] at hzero
    exact absurd hzero (by change b₀.toNat + 0x100 * b₁.toNat ≠ 0; omega)
  | case2 b₀ b₁ rest u hu ih =>
    have hrest : strData (rest ++ [0]) = none :=
      ih fun h => hp (List.mem_cons_of_mem _ (List.mem_cons_of_mem _ h))
    rw [List.cons_append, List.cons_append, strData, if_neg hu, hrest]
    rfl
  | case3 p hshort =>
    match p with
    | [] => rfl
    | [b] =>
      have hb : b.toNat ≠ 0 := fun h => hp (List.mem_singleton.mpr (UInt8.toNat_inj.mp h.symm))
      have hlt := b.toNat_lt
      have hu : UInt16.ofNat (b.toNat + 0x100 * (0 : UInt8).toNat) ≠ 0 := by
        intro hzero
        have := congrArg UInt16.toNat hzero
        rw [UInt16.toNat_ofNat_of_lt' (by
          change b.toNat + 0x100 * 0 < UInt16.size
          unfold UInt16.size
          omega)] at this
        exact hb this
      rw [List.singleton_append, strData, if_neg hu]
      rfl
    | b₀ :: b₁ :: rest => exact absurd rfl (hshort b₀ b₁ rest)

/-! ## 2. The delivery of a frame -/

/-- The call of `Recevie` for a frame whose payload has `n` bytes: on the socket `c` it builds `s`,
reads nothing behind the buffer, and is given the number of payload bytes. -/
structure Builds (rev : Rev) (c : UInt32) (s : Text) (n : Nat) : Prop where
  uSokcetID : rev.uSokcetID = c
  text : strData rev.rev_buf = some s
  rev_len : rev.rev_len = n

/-- The bytes a context holds and the chunk begin with a whole frame: its delivery comes first. -/
theorem saveData_frame_revs (env : SaveEnv) {pIo : IoContext} {bs c more : List UInt8} {f : Frame}
    (hp : Pending pIo bs) (hframe : bs ++ c = f.bytes ++ more) :
    ∃ revs, (saveData env pIo c).revs = env.packetRevs pIo.connID f.bytes ++ revs := by
  have hlen := f.bytes_length
  rw [flagLen] at hlen
  have hpacket : getPacketLen (bs ++ c) = f.bytes.length := by
    rw [hframe, Frame.bytes, List.append_assoc, getPacketLen_frame f _ (by
      rw [List.length_append, f.header_length, List.length_append, List.length_append,
        f.trailer_length]
      omega)]
    simp only [List.length_append, f.header_length, f.trailer_length, flagLen]
    push_cast
    omega
  obtain ⟨ps, tail, hrest⟩ := drains_total ((bs ++ c).drop f.bytes.length)
  have hdrain := Drains.packet hpacket
    (by rw [hframe, List.length_append]; exact Nat.le_add_right _ _) hrest
  rw [(saveData_feeds env hp hdrain).revs, hframe, List.take_left' rfl, List.flatMap_cons]
  exact ⟨_, rfl⟩

/-- **The text never arrives.**  Whatever the text, its frame and the way it is cut, `Recevie` reads
behind the buffer.  The frame is the first one that the bytes held and the chunk complete; the calls
for frames behind it do not matter here. -/
theorem recevie_never_builds {env : SaveEnv} (henv : env.Delivers) {pIo : IoContext}
    {bs c more : List UInt8} {s : Text} {f : Frame} (hs : 0 ∉ s)
    (hf : f.payload = utf8 [0xEF, 0xBF, 0xBD] s) (hp : Pending pIo bs)
    (hframe : bs ++ c = f.bytes ++ more) :
    ¬ ∃ rev revs, (saveData env pIo c).revs = rev :: revs ∧
        Builds rev pIo.connID s f.payload.length := by
  rintro ⟨rev, revs, hrevs, hbuilds⟩
  obtain ⟨revs', hfirst⟩ := saveData_frame_revs env hp hframe
  rw [hrevs, SaveEnv.packetRevs] at hfirst
  rw [if_pos ⟨henv.counts _, henv.recevier⟩, List.singleton_append] at hfirst
  have hbuf : rev.rev_buf = f.payload ++ [0] := by
    rw [(List.cons.inj hfirst).1]
    exact congrArg (· ++ [0]) f.bytes_payload
  have hnone : strData rev.rev_buf = none := by
    rw [hbuf, hf]
    exact strData_one_zero (utf8_ne_zero (by decide) hs)
  cases hnone.symm.trans hbuilds.text

-- the frame of the text `A`
private def letterFrame : Frame := ⟨50, [0x41], 0x120, by decide⟩

theorem recevie_never_builds_letter :
    ¬ ∃ rev revs, (saveData asciiEnv {} letterFrame.bytes).revs = rev :: revs ∧
        Builds rev 0 [0x41] 1 :=
  recevie_never_builds asciiEnv_delivers (f := letterFrame) (by decide) (by decide)
    (pending_of_clean (by decide)) (List.append_nil _).symm

/-- A text of one letter: the two bytes handed over are no terminated wide text, and they are said
to be two characters. -/
theorem recevie_letter :
    (saveData asciiEnv {} letterFrame.bytes).revs = [⟨0, [0x41, 0], 2⟩] ∧
      strData [0x41, 0] = none := by
  have hdrain : Drains ([] ++ letterFrame.bytes) [letterFrame.bytes] (.held []) :=
    .packet (n := 16) (by decide) (by decide) (.short (by decide))
  rw [(saveData_feeds asciiEnv (pending_of_clean (by decide)) hdrain).revs]
  exact ⟨rfl, rfl⟩

end VerifyServer.Recevier
