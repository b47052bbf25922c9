import VerifyServer.Socket.SaveData

/-!
# Reassembly — every frame is delivered once, however the stream is cut

The invariant relates the two buffers of a context to the frames not yet delivered: either the
bytes held are at most ten and sit in `tmpHeadBuf`, or the length of the first frame is known and
`tmpBuf` holds a proper prefix of it.  In both cases the bytes held and the bytes still to come
are the frames.
-/

open VerifyServer.Reasoning

namespace VerifyServer.Socket

/-- The bytes of a list of frames, one after another. -/
def stream (fs : List Frame) : List UInt8 := (fs.map Frame.bytes).flatten

@[simp] theorem stream_nil : stream [] = [] := rfl

@[simp] theorem stream_cons (f : Frame) (fs : List Frame) :
    stream (f :: fs) = f.bytes ++ stream fs := rfl

/-- The delivery of one frame's payload. -/
def SaveEnv.rev (env : SaveEnv) (connID : UInt32) (f : Frame) : Rev :=
  ⟨connID, f.payload ++ [0], env.multiByteToWideChar (f.payload ++ [0])⟩

/-- The receiver is set and every terminated buffer converts to a positive number of characters. -/
structure SaveEnv.Delivers (env : SaveEnv) : Prop where
  recevier : env.hasRecevier = true
  counts : ∀ bs, 0 < env.multiByteToWideChar (bs ++ [0])

/-! ## 1. The invariant -/

/-- At most ten bytes `h` are held, in the head buffer. -/
structure HoldsHead (pIo : IoContext) (h : List UInt8) : Prop where
  des : pIo.tmpBuf.nDesLen = 0
  cur : pIo.tmpBuf.nCurLen = 0
  len : pIo.tmpHeadBuf.nLen = h.length
  buf : h ≠ [] → pIo.tmpHeadBuf.pBuf = some h
  short : h.length ≤ 10

/-- The first `k` bytes of the frame `f` are held, in a buffer of the frame's length. -/
structure HoldsBody (pIo : IoContext) (f : Frame) (k : Nat) : Prop where
  noHead : pIo.tmpHeadBuf.nLen = 0
  des : pIo.tmpBuf.nDesLen = f.bytes.length
  cur : pIo.tmpBuf.nCurLen = k
  partly : k < f.bytes.length
  buf : ∃ bs, pIo.tmpBuf.pBuf = some bs ∧ bs.length = f.bytes.length ∧
    bs.take k = f.bytes.take k

/-- The bytes held together with `rest` are the frames `fs`. -/
inductive Holds (pIo : IoContext) : List Frame → List UInt8 → Prop where
  | head {fs : List Frame} {h rest : List UInt8} :
      HoldsHead pIo h → h ++ rest = stream fs → Holds pIo fs rest
  | body {f : Frame} {fs : List Frame} {k : Nat} :
      HoldsBody pIo f k → Holds pIo (f :: fs) (f.bytes.drop k ++ stream fs)

theorem holds_of_clean {pIo : IoContext} (hc : pIo.Clean) (fs : List Frame) :
    Holds pIo fs (stream fs) :=
  .head (h := []) ⟨hc.2.1, hc.2.2, hc.1, fun h => absurd rfl h, Nat.zero_le _⟩ rfl

/-- When nothing is left to come, nothing is held. -/
theorem clean_of_holds_nil {pIo : IoContext} {fs : List Frame} (h : Holds pIo fs []) :
    fs = [] ∧ pIo.Clean := by
  generalize hrest : ([] : List UInt8) = rest at h
  cases h with
  | head hh heq =>
    rename_i h
    subst hrest
    rw [List.append_nil] at heq
    cases fs with
    | nil =>
      rw [stream_nil] at heq
      subst heq
      exact ⟨rfl, hh.len, hh.des, hh.cur⟩
    | cons f fs =>
      have hlen := congrArg List.length heq
      rw [stream_cons, List.length_append, f.bytes_length, flagLen] at hlen
      have := hh.short
      omega
  | body hb =>
    rename_i f fs k
    have hlen := congrArg List.length hrest
    have := hb.partly
    simp only [List.length_nil, List.length_append, List.length_drop] at hlen
    omega

/-! ## 2. Delivering a complete frame -/

theorem deliver_frame {env : SaveEnv} (henv : env.Delivers) (connID : UInt32) (f : Frame) :
    deliver env connID f.bytes f.bytes.length = .ok [env.rev connID f] := by
  have hcopy : copyOut (some f.bytes) 10 ((f.bytes.length : Int) - 15) = some f.payload := by
    have hlen := f.bytes_length
    rw [flagLen] at hlen
    rw [copyOut, if_pos (by omega),
      show ((f.bytes.length : Int) - 15).toNat = f.bytes.length - flagLen by
      rw [flagLen]; omega]
    exact congrArg some f.bytes_payload
  have hpos : ¬ ((f.bytes.length : Int) - 15 + 1 < 0) := by
    have hlen := f.bytes_length
    rw [flagLen] at hlen
    omega
  simp only [deliver, if_neg hpos, hcopy, henv.recevier, henv.counts, and_self, if_true,
    SaveEnv.rev]

/-! ## 3. One call -/

/-- What one call has to establish: some of the frames are delivered, in order, and what the
context holds afterwards are the others. -/
def Consumes (env : SaveEnv) (pIo : IoContext) (r : Saved) (fs : List Frame)
    (rest : List UInt8) : Prop :=
  ∃ done todo, fs = done ++ todo ∧ r.fault = none ∧ r.revs = done.map (env.rev pIo.connID) ∧
    r.ctx.connID = pIo.connID ∧ Holds r.ctx todo rest

/-- Ten bytes or fewer, met with nothing held, wait in the head buffer. -/
theorem saveData_short {env : SaveEnv} {pIo : IoContext} (hc : pIo.Clean) {c : List UInt8}
    (h : c.length ≤ 10) :
    saveData env pIo c = ⟨{ pIo with tmpHeadBuf := ⟨some c, c.length⟩ }, [], none⟩ := by
  obtain ⟨hh, hd, hk⟩ := hc
  rw [saveData, if_neg (by omega)]
  simp only [hd, hk, Int.sub_zero, if_true]
  rw [if_neg (by omega)]

/-- A chunk that begins with a frame and reaches beyond the header opens the frame's buffer. -/
theorem saveData_open {env : SaveEnv} {pIo : IoContext} (hc : pIo.Clean) {c : List UInt8}
    (f : Frame) (h : 10 < c.length) (hpre : c.take 10 = f.header) :
    saveData env pIo c = saveData env { pIo with
      tmpBuf := ⟨some (newChar f.bytes.length), f.bytes.length, 0⟩ } c := by
  obtain ⟨hh, hd, hk⟩ := hc
  have hsplit : c = f.header ++ c.drop 10 := by rw [← hpre, List.take_append_drop]
  have hlen : getPacketLen c = f.bytes.length := by
    rw [hsplit, getPacketLen_frame f _ (by rw [← hsplit]; exact h), f.bytes_length]
    push_cast
    rfl
  conv_lhs => rw [saveData]
  rw [if_neg (by omega)]
  simp only [hd, hk, Int.sub_zero, if_true, hlen]
  rw [if_pos h, if_neg (by unfold noPacket; omega), if_neg (by omega)]

/-- A chunk too short to complete the frame extends what is held of it. -/
theorem saveData_extend (env : SaveEnv) {pIo : IoContext} {f : Frame} {k : Nat}
    (hb : HoldsBody pIo f k) {c : List UInt8} (h : c.length < f.bytes.length - k)
    (hpre : c = (f.bytes.drop k).take c.length) :
    (saveData env pIo c).fault = none ∧ (saveData env pIo c).revs = [] ∧
      (saveData env pIo c).ctx.connID = pIo.connID ∧
      HoldsBody (saveData env pIo c).ctx f (k + c.length) := by
  obtain ⟨hh, hd, hk, hpart, bs, hbuf, hlen, htake⟩ := hb
  have hfit : k + c.length ≤ bs.length := by omega
  have hfill : fill pIo.tmpBuf c = some (bs.take k ++ c ++ bs.drop (k + c.length)) := by
    rw [fill, hbuf]
    simp only [hk]
    rw [if_pos (by omega), Int.toNat_natCast, blit_eq_some hfit]
  have hrun : saveData env pIo c = ⟨{ pIo with tmpBuf := { pIo.tmpBuf with
      pBuf := some (bs.take k ++ c ++ bs.drop (k + c.length)),
      nCurLen := pIo.tmpBuf.nCurLen + c.length } }, [], none⟩ := by
    rw [saveData, if_neg (by omega)]
    simp only
    rw [if_neg (by omega), if_pos (by omega), if_neg (by omega), hfill]
  rw [hrun]
  refine ⟨rfl, rfl, rfl, hh, hd, by simp only [hk]; push_cast; rfl, by omega, _, rfl, ?_, ?_⟩
  · simp only [List.length_append, List.length_take, List.length_drop]
    omega
  · rw [List.take_left' (by simp only [List.length_append, List.length_take]; omega), htake]
    conv_lhs => rw [hpre]
    rw [← List.take_add]

/-- A chunk that completes the frame delivers it and goes on with what follows. -/
theorem saveData_complete {env : SaveEnv} (henv : env.Delivers) {pIo : IoContext} {f : Frame}
    {k : Nat} (hb : HoldsBody pIo f k) (more : List UInt8) :
    saveData env pIo (f.bytes.drop k ++ more) =
      if more = [] then ⟨{ pIo with tmpBuf := {} }, [env.rev pIo.connID f], none⟩
      else
        let next := saveData env { pIo with tmpBuf := {} } more
        { next with revs := env.rev pIo.connID f :: next.revs } := by
  obtain ⟨hh, hd, hk, hpart, bs, hbuf, hlen, htake⟩ := hb
  have hdrop : (f.bytes.drop k).length = f.bytes.length - k := List.length_drop ..
  have hleave : (pIo.tmpBuf.nDesLen - pIo.tmpBuf.nCurLen).toNat = f.bytes.length - k := by omega
  have hfill : fill pIo.tmpBuf (f.bytes.drop k) = some f.bytes := by
    rw [fill, hbuf]
    simp only [hk]
    rw [if_pos (by omega), Int.toNat_natCast, blit_eq_some (by omega), htake, hdrop,
      List.take_append_drop, List.drop_of_length_le (by omega), List.append_nil]
  have hfirst : (f.bytes.drop k ++ more).take (pIo.tmpBuf.nDesLen - pIo.tmpBuf.nCurLen).toNat =
      f.bytes.drop k := List.take_left' (by omega)
  have hrest : (f.bytes.drop k ++ more).drop (pIo.tmpBuf.nDesLen - pIo.tmpBuf.nCurLen).toNat =
      more := List.drop_left' (by omega)
  have hdel : deliver env pIo.connID f.bytes pIo.tmpBuf.nDesLen = .ok [env.rev pIo.connID f] := by
    rw [hd]
    exact deliver_frame henv _ _
  conv_lhs => rw [saveData]
  rw [if_neg (by omega)]
  simp only
  rw [if_neg (by omega), if_pos (by omega), if_pos (by
    rw [List.length_append]; push_cast; omega)]
  simp only [hfirst, hrest, hfill, hdel, List.singleton_append]
  by_cases hm : more = []
  · rw [if_pos hm, if_neg (by simp [hm])]
  · rw [if_neg hm, if_pos (List.length_pos_of_ne_nil hm)]

/-! ## 4. Any chunk -/

/-- From within a frame: either the chunk ends inside it, or the frame is delivered and the rest of
the chunk is met with nothing held. -/
private theorem saveData_body_consumes {env : SaveEnv} (henv : env.Delivers) {fs : List Frame}
    (ih : ∀ (pIo : IoContext) (c rest : List UInt8), pIo.Clean → c ++ rest = stream fs →
      Consumes env pIo (saveData env pIo c) fs rest)
    {pIo : IoContext} {f : Frame} {k : Nat} (hb : HoldsBody pIo f k) {c rest : List UInt8}
    (heq : c ++ rest = f.bytes.drop k ++ stream fs) :
    Consumes env pIo (saveData env pIo c) (f :: fs) rest := by
  have hdrop : (f.bytes.drop k).length = f.bytes.length - k := List.length_drop ..
  by_cases hshort : c.length < f.bytes.length - k
  · have hpre : c = (f.bytes.drop k).take c.length := by
      have := congrArg (List.take c.length) heq
      rwa [List.take_left' rfl, List.take_append_of_le_length (by omega)] at this
    have hrest : rest = f.bytes.drop (k + c.length) ++ stream fs := by
      have := congrArg (List.drop c.length) heq
      rwa [List.drop_left' rfl, List.drop_append_of_le_length (by omega), List.drop_drop] at this
    obtain ⟨hf, hr, hid, hb'⟩ := saveData_extend env hb hshort hpre
    rw [hrest]
    exact ⟨[], f :: fs, rfl, hf, hr, hid, .body hb'⟩
  · obtain ⟨more, rfl⟩ : ∃ more, c = f.bytes.drop k ++ more := by
      have hpre : f.bytes.drop k <+: c :=
        List.prefix_of_prefix_length_le (List.prefix_append _ (stream fs))
          (heq ▸ List.prefix_append c rest) (by omega)
      exact ⟨_, hpre.choose_spec.symm⟩
    rw [List.append_assoc, List.append_cancel_left_eq] at heq
    have hclean : IoContext.Clean { pIo with tmpBuf := {} } := ⟨hb.noHead, rfl, rfl⟩
    rw [saveData_complete henv hb]
    by_cases hm : more = []
    · subst hm
      rw [if_pos rfl]
      rw [List.nil_append] at heq
      rw [heq]
      exact ⟨[f], fs, rfl, rfl, rfl, rfl, holds_of_clean hclean fs⟩
    · rw [if_neg hm]
      obtain ⟨done, todo, hfs, hf, hr, hid, hh⟩ := ih _ more rest hclean heq
      refine ⟨f :: done, todo, by rw [hfs, List.cons_append], hf, ?_, hid, hh⟩
      simp only [List.map_cons, hr]

private theorem saveData_clean_consumes {env : SaveEnv} (henv : env.Delivers) (fs : List Frame) :
    ∀ (pIo : IoContext) (c rest : List UInt8), pIo.Clean → c ++ rest = stream fs →
      Consumes env pIo (saveData env pIo c) fs rest := by
  induction fs with
  | nil =>
    intro pIo c rest hc heq
    obtain ⟨rfl, rfl⟩ := List.append_eq_nil_iff.mp heq
    rw [saveData_short hc (Nat.zero_le _)]
    exact ⟨[], [], rfl, rfl, rfl, rfl, .head (h := [])
      ⟨hc.2.1, hc.2.2, rfl, fun h => absurd rfl h, Nat.zero_le _⟩ rfl⟩
  | cons f fs ih =>
    intro pIo c rest hc heq
    by_cases hshort : c.length ≤ 10
    · rw [saveData_short hc hshort]
      exact ⟨[], f :: fs, rfl, rfl, rfl, rfl,
        .head ⟨hc.2.1, hc.2.2, rfl, fun _ => rfl, hshort⟩ heq⟩
    · have hpre : c.take 10 = f.header := by
        have := congrArg (List.take 10) heq
        rwa [List.take_append_of_le_length (by omega), stream_cons, Frame.bytes,
          List.append_assoc, List.take_left' f.header_length] at this
      have hopen : HoldsBody { pIo with
          tmpBuf := ⟨some (newChar f.bytes.length), f.bytes.length, 0⟩ } f 0 :=
        ⟨hc.1, rfl, rfl, f.bytes_pos, _, rfl, by
          rw [newChar, List.length_replicate, Int.toNat_natCast], rfl⟩
      rw [saveData_open hc f (by omega) hpre]
      exact saveData_body_consumes henv ih hopen heq

/-- **One call.**  When the bytes held and the bytes to come are the frames `fs`, a chunk delivers
the frames it completes and what is held afterwards belongs to the others. -/
theorem saveData_consumes {env : SaveEnv} (henv : env.Delivers) {pIo : IoContext}
    {fs : List Frame} {c rest : List UInt8} (h : Holds pIo fs (c ++ rest)) :
    Consumes env pIo (saveData env pIo c) fs rest := by
  generalize hall : c ++ rest = all at h
  cases h with
  | body hb => exact saveData_body_consumes henv (saveData_clean_consumes henv _) hb hall
  | head hh heq =>
    rename_i h
    subst hall
    by_cases hnil : h = []
    · subst hnil
      exact saveData_clean_consumes henv fs pIo c rest ⟨hh.len, hh.des, hh.cur⟩ heq
    · -- the head is merged with the chunk, and the merged chunk is met with nothing held
      have hpos := List.length_pos_of_ne_nil hnil
      have hcopy : copyOut pIo.tmpHeadBuf.pBuf 0 pIo.tmpHeadBuf.nLen = some h := by
        rw [hh.buf hnil, hh.len, copyOut, if_pos (by omega)]
        simp
      have hmerge : saveData env pIo c = saveData env { pIo with tmpHeadBuf := {} } (h ++ c) := by
        conv_lhs => rw [saveData]
        rw [if_pos (by rw [hh.len]; omega)]
        split
        · rename_i hnone
          cases hcopy.symm.trans hnone
        · rename_i head hsome
          rw [Option.some.inj (hcopy.symm.trans hsome)]
      rw [hmerge]
      exact saveData_clean_consumes henv fs _ (h ++ c) rest ⟨rfl, hh.des, hh.cur⟩
        (by rw [List.append_assoc]; exact heq)

/-- **A whole run.**  Over any list of chunks the invariant carries on. -/
theorem saveChunks_consumes {env : SaveEnv} (henv : env.Delivers) (chunks : List (List UInt8)) :
    ∀ {pIo : IoContext} {fs : List Frame} {rest : List UInt8},
      Holds pIo fs (chunks.flatten ++ rest) →
        Consumes env pIo (saveChunks env pIo chunks) fs rest := by
  induction chunks with
  | nil => exact fun {pIo fs _} h => ⟨[], fs, rfl, rfl, rfl, rfl, h⟩
  | cons c cs ih =>
    intro pIo fs rest h
    rw [List.flatten_cons, List.append_assoc] at h
    obtain ⟨done, todo, hfs, hf, hr, hid, hh⟩ := saveData_consumes henv h
    obtain ⟨done', todo', hfs', hf', hr', hid', hh'⟩ := ih hh
    refine ⟨done ++ done', todo', by rw [hfs, hfs', List.append_assoc], ?_, ?_, ?_, ?_⟩
    all_goals simp only [saveChunks, hf]
    · exact hf'
    · rw [hr, hr', hid, List.map_append]
    · rw [hid', hid]
    · exact hh'

/-! ## 5. From encoder to receiver -/

/-- `bytes` is the frame one of the two encoders builds for a payload: the front part of any
destination array `CTcpServer::PrepareSendBuf` fills, or the array `pack_prepare` returns. -/
inductive Encoded (payload : List UInt8) (param : UInt32) : List UInt8 → Prop where
  | prepareSendBuf {pBufDes out : List UInt8} {n : Nat} :
      prepareSendBuf pBufDes payload payload.length param = some (out, n) →
        Encoded payload param (out.take n)
  | packPrepare {out : List UInt8} :
      packPrepare payload payload.length param.toInt32 = some out → Encoded payload param out

theorem Encoded.frame {payload bytes : List UInt8} {param : UInt32}
    (hfits : payload.length + flagLen < 2 ^ 31) (h : Encoded payload param bytes) :
    ∃ f : Frame, f.payload = payload ∧ bytes = f.bytes := by
  cases h with
  | prepareSendBuf h =>
    obtain ⟨f, hp, -, hb⟩ := prepareSendBuf_frame hfits h
    exact ⟨f, hp, hb⟩
  | packPrepare h =>
    obtain ⟨f, hp, -, hb⟩ := packPrepare_frame hfits h
    exact ⟨f, hp, hb⟩

/-- One message: what was to be sent, and the bytes the encoder made of it. -/
structure Message where
  payload : List UInt8
  param : UInt32
  wire : List UInt8
  fits : payload.length + flagLen < 2 ^ 31
  encoded : Encoded payload param wire

private theorem frames_of_messages (msgs : List Message) :
    ∃ fs : List Frame, fs.map Frame.payload = msgs.map Message.payload ∧
      stream fs = (msgs.map Message.wire).flatten := by
  induction msgs with
  | nil => exact ⟨[], rfl, rfl⟩
  | cons m msgs ih =>
    obtain ⟨f, hp, hb⟩ := m.encoded.frame m.fits
    obtain ⟨fs, hps, hbs⟩ := ih
    refine ⟨f :: fs, by rw [List.map_cons, List.map_cons, hp, hps], ?_⟩
    rw [stream_cons, List.map_cons, List.flatten_cons, hb, hbs]

/-- **Reassembly.**  Cut the frames of any messages into any chunks and pass these to `SaveData` on
a clean context: `Recevie` is called once for each message, in order, with the payload and a zero
byte after it, and the context is clean again at the end. -/
theorem saveChunks_delivers {env : SaveEnv} (henv : env.Delivers) (msgs : List Message)
    (chunks : List (List UInt8)) (hcut : chunks.flatten = (msgs.map Message.wire).flatten)
    (pIo : IoContext) (hclean : pIo.Clean) :
    let r := saveChunks env pIo chunks
    r.fault = none ∧ r.ctx.Clean ∧
      r.revs.map Rev.rev_buf = msgs.map (fun m => m.payload ++ [0]) := by
  obtain ⟨fs, hp, hb⟩ := frames_of_messages msgs
  have hheld : Holds pIo fs (chunks.flatten ++ []) := by
    rw [List.append_nil, hcut, ← hb]
    exact holds_of_clean hclean fs
  obtain ⟨done, todo, hfs, hf, hr, -, hh⟩ := saveChunks_consumes henv chunks hheld
  obtain ⟨rfl, hclean'⟩ := clean_of_holds_nil hh
  refine ⟨hf, hclean', ?_⟩
  rw [List.append_nil] at hfs
  subst hfs
  have := congrArg (List.map (· ++ [(0 : UInt8)])) hp
  simpa only [hr, List.map_map, Function.comp_def, SaveEnv.rev] using this

/-- The Java frame of `{}`, cut within the header and again before the last three bytes. -/
private def braces : Message :=
  ⟨[0x7B, 0x7D], 50,
    [0x53, 0x3A, 50, 0, 0, 0, 17, 0, 0, 0, 0x7B, 0x7D, 0xF8, 0, 0, 0, 0x45],
    by decide, .packPrepare (by decide)⟩

theorem saveChunks_delivers_braces :
    let r := saveChunks ⟨true, fun bs => bs.length⟩ {}
      [[0x53, 0x3A, 50, 0], [0, 0, 17, 0, 0, 0, 0x7B, 0x7D, 0xF8, 0], [0, 0, 0x45]]
    r.fault = none ∧ r.ctx.Clean ∧ r.revs.map Rev.rev_buf = [[0x7B, 0x7D, 0]] :=
  saveChunks_delivers ⟨rfl, fun bs => by simp only [List.length_append, List.length_singleton]; omega⟩
    [braces] _ (by decide) {} (by decide)

end VerifyServer.Socket
