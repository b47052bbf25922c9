import VerifyServer.Reasoning.Utf8
import VerifyServer.Socket.SaveData

/-!
# SendBuffers — `Send` and `SendEx` down to `PostSend`

`Send` builds its frame in 1024 bytes on the stack; `SendEx` converts its text into 1024 bytes first
and makes the frame's buffer to measure.  `_send` copies the frame into the 1024 bytes of an
`IO_CONTEXT`, in a loop that counts parts of `MAX_BUFFER` bytes.

A copy that goes outside a buffer has no result.
-/

open VerifyServer.Reasoning

namespace VerifyServer.Socket

/-! ## 1. The calls -/

/-- What the calls meet: memory, the connection, the system. -/
structure SendEnv where
  -- what an `IO_CONTEXT` holds when it is taken, and the bytes of the `i`-th `new`
  szBuf : Nat → List UInt8
  szBuf_length : ∀ k, (szBuf k).length = maxBuffer
  heap : Nat → Nat → List UInt8
  heap_length : ∀ i n, (heap i n).length = n
  sizeofPointer : Nat
  sizeofPointer_pos : 0 < sizeofPointer
  -- `FindSocketContext`, the results of `PostSend`, the bytes a text takes in `CP_ACP`
  found : Nat → Bool
  postSend : Nat → Int
  acpLength : List UInt16 → Nat

structure SendResult where
  result : Bool
  -- the buffers given to `PostSend`, in order
  posted : List (List UInt8)
  deriving DecidableEq, Repr

/-- The loop of `_send`, from the `k`-th turn on. -/
def sendLoop (env : SendEnv) (nLen k : Nat) (pBuf : List UInt8) (remain : Nat) :
    Option SendResult :=
  if _h : 0 < remain then
    let bufferSize := min remain maxBuffer
    -- `memcpy(pIO->wsaBuf.buf, pBuf, nLen)`, all of the message in every turn
    if nLen ≤ pBuf.length then
      match blit (env.szBuf k) 0 (pBuf.take nLen) with
      | none => none
      | some szBuf =>
        let buf := szBuf.take nLen
        if env.postSend k = 0 then
          (sendLoop env nLen (k + 1) (pBuf.drop bufferSize) (remain - bufferSize)).map fun r =>
            ⟨r.result, buf :: r.posted⟩
        else
          some ⟨false, [buf]⟩
    else
      none
  else
    some ⟨true, []⟩
  termination_by remain
  decreasing_by
    have hpos : 0 < maxBuffer := by decide
    omega

/-- `_send(nID, pBuf, nLen)`, with what `FindSocketContext` finds. -/
def _send (env : SendEnv) (found : Bool) (pBuf : List UInt8) (nLen : Nat) : Option SendResult :=
  if found then sendLoop env nLen 0 pBuf nLen else some ⟨false, []⟩

/-- `Send(nID, pBuf, nLen)`; the last argument is not passed on. -/
def send (env : SendEnv) (pBuf : List UInt8) (nLen : Nat) : Option SendResult := do
  let (pSendBuf, nNum) ← prepareSendBuf (List.replicate 1024 0) pBuf nLen 50
  _send env (env.found 0) pSendBuf nNum

/-- `c_str()` up to its end. -/
def cStr (s : List UInt16) : List UInt16 := s.takeWhile (· ≠ 0)

/-- What `WideCharToMultiByte` makes of a text in `CP_UTF8`. -/
def toUtf8 (s : List UInt16) : List UInt8 := utf8 [0xEF, 0xBF, 0xBD] s

/-- `WideCharToMultiByte(CP_UTF8, 0, s, -1, str, cbMultiByte, NULL, NULL)`: the bytes of `str`
afterwards.  When `cbMultiByte` is not enough it is not said what they are. -/
def convert (env : SendEnv) (s : List UInt16) (str : List UInt8) (cbMultiByte : Nat) :
    Option (List UInt8) :=
  let bytes := toUtf8 s ++ [0]
  if bytes.length ≤ cbMultiByte then blit str 0 bytes else some (env.heap 3 str.length)

/-- `strlen`; no result when it runs out of the buffer. -/
def strlen (str : List UInt8) : Option Nat :=
  if 0 ∈ str then some (str.takeWhile (· ≠ 0)).length else none

/-- `SendEx` from `strlen(str)` on. -/
def sendStr (env : SendEnv) (str : List UInt8) : Option SendResult := do
  let nLen ← strlen str
  let pTmp ← blit (env.heap 1 (nLen + 1)) 0 (str.take nLen)
  let pTmp ← blit pTmp nLen [0]
  let (pBuf, nNum) ← prepareSendBuf (env.heap 2 (nLen + 50)) pTmp nLen 50
  _send env (env.found 1) pBuf nNum

/-- `SendEx(nID, csBuf)`. -/
def sendEx (env : SendEnv) (csBuf : List UInt16) : Option SendResult :=
  if env.found 0 = false then some ⟨false, []⟩
  else if env.acpLength (cStr csBuf) = 0 then some ⟨false, []⟩
  else do
    let str ← convert env (cStr csBuf) (env.heap 0 1024) (env.sizeofPointer * 1024)
    sendStr env str

/-! ## 2. What they must do -/

/-- `bytes` is the frame `PrepareSendBuf` builds for the message. -/
def IsFrameOf (bytes message : List UInt8) : Prop :=
  ∃ pBufDes out n, prepareSendBuf pBufDes message message.length 50 = some (out, n) ∧
    bytes = out.take n

/-- No copy went outside a buffer; and a call that reports success posted the frame of the message,
in buffers that are not too long. -/
def SentWhole (message : List UInt8) (r : Option SendResult) : Prop :=
  ∃ s, r = some s ∧ (s.result = true →
    IsFrameOf s.posted.flatten message ∧ ∀ buf ∈ s.posted, buf.length ≤ maxBuffer)

/-! ## 3. `_send` -/

/-- A message that fits a context takes one turn. -/
theorem _send_fits {env : SendEnv} {pBuf : List UInt8} {n : Nat} (hpos : 0 < n)
    (hfits : n ≤ maxBuffer) (hn : n ≤ pBuf.length) (found : Bool) :
    _send env found pBuf n =
      some (if found then ⟨decide (env.postSend 0 = 0), [pBuf.take n]⟩ else ⟨false, []⟩) := by
  unfold _send
  by_cases hfound : found = true
  · have hlen : (pBuf.take n).length = n := List.length_take_of_le hn
    have hblit : blit (env.szBuf 0) 0 (pBuf.take n) = some _ := blit_eq_some (by
      rw [hlen, env.szBuf_length]
      omega)
    have htake : (pBuf.take n ++ (env.szBuf 0).drop (0 + (pBuf.take n).length)).take n =
        pBuf.take n := List.take_left' hlen
    rw [if_pos hfound, if_pos hfound, sendLoop, dif_pos hpos]
    simp only [if_pos hn, hblit, List.take_zero, List.nil_append, htake]
    by_cases hpost : env.postSend 0 = 0
    · rw [if_pos hpost, Nat.min_eq_left hfits, Nat.sub_self, sendLoop, dif_neg (Nat.lt_irrefl 0)]
      simp only [hpost, decide_true, Option.map_some]
    · rw [if_neg hpost]
      simp only [hpost, decide_false]
  · rw [if_neg hfound, if_neg hfound]

/-- A longer one runs over the context in its first turn. -/
theorem _send_overflow {env : SendEnv} {pBuf : List UInt8} {n : Nat} (h : maxBuffer < n) :
    _send env true pBuf n = none := by
  unfold _send
  rw [if_pos rfl, sendLoop, dif_pos (Nat.zero_lt_of_lt h)]
  by_cases hn : n ≤ pBuf.length
  · have hblit : blit (env.szBuf 0) 0 (pBuf.take n) = none := by
      rw [blit, if_neg]
      rw [List.length_take_of_le hn, env.szBuf_length]
      omega
    simp only [if_pos hn, hblit]
  · simp only [if_neg hn]

/-! ## 4. Frames -/

/-- Bytes of the source behind the message make no difference. -/
theorem prepareSendBuf_append (pBufDes p q : List UInt8) (param : UInt32) :
    prepareSendBuf pBufDes (p ++ q) p.length param =
      prepareSendBuf pBufDes p p.length param := by
  have hguard :
      guard (p.length ≤ (p ++ q).length) = (guard (p.length ≤ p.length) : Option Unit) := by
    rw [guard, guard, if_pos (by rw [List.length_append]; omega), if_pos (Nat.le_refl _)]
  unfold prepareSendBuf
  rw [hguard, List.take_left' rfl, List.take_length]

/-- What `_send` does with a frame that fits. -/
theorem _send_frame (env : SendEnv) {pBufDes p out : List UInt8} {n : Nat}
    (hp : p.length ≤ 1009) (hout : prepareSendBuf pBufDes p p.length 50 = some (out, n))
    (found : Bool) :
    _send env found out n =
      some (if found then ⟨decide (env.postSend 0 = 0), [out.take n]⟩ else ⟨false, []⟩) ∧
      (out.take n).length = p.length + 15 := by
  have hn : n = p.length + 15 := prepareSendBuf_count hout
  obtain ⟨f, hf, -, hbytes⟩ := prepareSendBuf_frame (by rw [flagLen]; omega) hout
  have hlen : (out.take n).length = p.length + 15 := by
    rw [hbytes, f.bytes_length, hf, flagLen]
  have hroom : n ≤ out.length := by
    rw [List.length_take] at hlen
    omega
  exact ⟨_send_fits (by omega) (by rw [maxBuffer]; omega) hroom found, hlen⟩

theorem _send_whole {env : SendEnv} {pBufDes p out : List UInt8} {n : Nat}
    (hp : p.length ≤ 1009) (hout : prepareSendBuf pBufDes p p.length 50 = some (out, n))
    (found : Bool) : SentWhole p (_send env found out n) := by
  obtain ⟨hsend, hlen⟩ := _send_frame env hp hout found
  rw [hsend]
  by_cases hfound : found = true
  · rw [if_pos hfound]
    refine ⟨_, rfl, fun _ => ⟨⟨pBufDes, out, n, hout, List.flatten_singleton⟩, fun buf hbuf => ?_⟩⟩
    rw [List.mem_singleton.mp hbuf, hlen, maxBuffer]
    omega
  · rw [if_neg hfound]
    exact ⟨_, rfl, fun h => by cases h⟩

theorem IsFrameOf.length {bytes message : List UInt8} (h : IsFrameOf bytes message) :
    bytes.length = message.length + 15 := by
  obtain ⟨pBufDes, out, n, hout, rfl⟩ := h
  have hn := prepareSendBuf_count hout
  have hroom : ¬ pBufDes.length < message.length + 15 := by
    intro hlt
    rw [prepareSendBuf_overflow 50 hlt] at hout
    cases hout
  have hlen : out.length = pBufDes.length := by
    simp only [prepareSendBuf, bind, Option.bind_eq_some_iff, guard] at hout
    obtain ⟨d₁, h₁, d₂, h₂, d₃, h₃, -, -, d₄, h₄, d₅, h₅, d₆, h₆, heq⟩ := hout
    cases heq
    rw [blit_length h₆, blit_length h₅, blit_length h₄, blit_length h₃, blit_length h₂,
      blit_length h₁]
  rw [List.length_take]
  omega

/-! ## 5. `Send` -/

/-- Every socket is found, every post succeeds, memory is zero. -/
def plainEnv : SendEnv where
  szBuf _ := List.replicate maxBuffer 0
  szBuf_length _ := List.length_replicate
  heap _ n := List.replicate n 0
  heap_length _ _ := List.length_replicate
  sizeofPointer := 4
  sizeofPointer_pos := by decide
  found _ := true
  postSend _ := 0
  acpLength s := s.length + 1

theorem plainEnv_acpLength (s : List UInt16) : plainEnv.acpLength s ≠ 0 := Nat.succ_ne_zero _

/-- `Send` is right for a message that fits its buffer with the fifteen bytes of a frame. -/
theorem send_whole_iff (p : List UInt8) :
    (∀ env, SentWhole p (send env p p.length)) ↔ p.length ≤ 1009 := by
  constructor
  · intro h
    by_contra hlong
    obtain ⟨s, hs, -⟩ := h plainEnv
    have hover : prepareSendBuf (List.replicate 1024 0) p p.length 50 = none :=
      prepareSendBuf_overflow 50 (by rw [List.length_replicate]; omega)
    rw [send, hover] at hs
    cases hs
  · intro hp env
    have hroom : p.length + 15 ≤ (List.replicate 1024 (0 : UInt8)).length := by
      rw [List.length_replicate]
      omega
    obtain ⟨out, hout⟩ := prepareSendBuf_room 50 hroom
    have hsend : send env p p.length = _send env (env.found 0) out (p.length + 15) := by
      rw [send, hout]
      rfl
    rw [hsend]
    exact _send_whole hp hout (env.found 0)

/-! ## 6. `SendEx` -/

theorem takeWhile_ne_split {α : Type} [DecidableEq α] (a : α) (l : List α) :
    l.takeWhile (· ≠ a) = l ∨ ∃ t, l = l.takeWhile (· ≠ a) ++ a :: t := by
  induction l with
  | nil => exact .inl rfl
  | cons b l ih =>
    by_cases hb : b = a
    · subst hb
      exact .inr ⟨l, by simp⟩
    · rw [List.takeWhile_cons_of_pos (by simpa using hb)]
      rcases ih with heq | ⟨t, ht⟩
      · exact .inl (congrArg (b :: ·) heq)
      · exact .inr ⟨t, congrArg (b :: ·) ht⟩

theorem takeWhile_ne_append {α : Type} [DecidableEq α] {a : α} {l : List α} (h : a ∉ l)
    (t : List α) : (l ++ a :: t).takeWhile (· ≠ a) = l := by
  rw [List.takeWhile_append_of_pos fun b hb => by
    simpa using fun heq : b = a => h (heq ▸ hb)]
  simp

theorem zero_not_mem_cStr (s : List UInt16) : 0 ∉ cStr s := by
  intro h
  simpa using List.mem_takeWhile_imp h

theorem zero_not_mem_toUtf8 (s : List UInt16) : 0 ∉ toUtf8 (cStr s) :=
  utf8_ne_zero (by decide) (zero_not_mem_cStr s)

/-- A text is sent up to its first NUL; what is behind it makes its encoding longer. -/
theorem toUtf8_cStr (s : List UInt16) :
    0 ∉ s ∧ cStr s = s ∨ (toUtf8 (cStr s)).length < (toUtf8 s).length := by
  rcases takeWhile_ne_split 0 s with heq | ⟨t, ht⟩
  · refine .inl ⟨?_, heq⟩
    rw [← heq]
    exact zero_not_mem_cStr s
  · refine .inr ?_
    have hutf8 : toUtf8 s = toUtf8 (cStr s) ++ 0 :: utf8 [0xEF, 0xBF, 0xBD] t := by
      conv_lhs => rw [ht]
      exact utf8_append_zero _ _ t
    rw [hutf8, List.length_append, List.length_cons]
    omega

/-- Bytes and a zero byte behind them fill a buffer made to measure. -/
theorem blit_terminated {dst u : List UInt8} (hdst : dst.length = u.length + 1) :
    ∃ d, blit dst 0 u = some d ∧ blit d u.length [0] = some (u ++ [0]) := by
  have hcopy : blit dst 0 u = some _ := blit_eq_some (by omega)
  refine ⟨_, hcopy, ?_⟩
  have hlen := (blit_length hcopy).trans hdst
  have htake : (dst.take 0 ++ u ++ dst.drop (0 + u.length)).take u.length = u :=
    List.take_left' rfl
  rw [blit_eq_some (by rw [hlen, List.length_singleton]), htake,
    List.drop_eq_nil_of_le (by rw [hlen, List.length_singleton]), List.append_nil]

/-- From a buffer that holds `u` and a zero byte, the frame of `u` goes to `_send`. -/
theorem sendStr_eq (env : SendEnv) {u : List UInt8} (hu : 0 ∉ u) (rest : List UInt8) :
    ∃ out, prepareSendBuf (env.heap 2 (u.length + 50)) u u.length 50 =
        some (out, u.length + 15) ∧
      sendStr env (u ++ 0 :: rest) = _send env (env.found 1) out (u.length + 15) := by
  have hroom : u.length + 15 ≤ (env.heap 2 (u.length + 50)).length := by
    rw [env.heap_length]
    omega
  obtain ⟨out, hout⟩ := prepareSendBuf_room 50 hroom
  refine ⟨out, hout, ?_⟩
  have hstrlen : strlen (u ++ 0 :: rest) = some u.length := by
    rw [strlen, if_pos (by simp), takeWhile_ne_append hu]
  obtain ⟨d, hcopy, hterm⟩ := blit_terminated (env.heap_length 1 (u.length + 1))
  have htake : (u ++ 0 :: rest).take u.length = u := List.take_left' rfl
  simp only [sendStr, hstrlen, bind, Option.bind_some, htake, hcopy, hterm, prepareSendBuf_append,
    hout]

/-- What `SendEx` does with a text whose encoding and its zero byte fit `str`. -/
theorem sendEx_fits (env : SendEnv) (csBuf : List UInt16) (hfound : env.found 0 = true)
    (hacp : env.acpLength (cStr csBuf) ≠ 0) (hfits : (toUtf8 (cStr csBuf)).length < 1024) :
    ∃ rest, sendEx env csBuf = sendStr env (toUtf8 (cStr csBuf) ++ 0 :: rest) := by
  have hsize := env.sizeofPointer_pos
  have hblit : blit (env.heap 0 1024) 0 (toUtf8 (cStr csBuf) ++ [0]) = some _ :=
    blit_eq_some (by
      rw [env.heap_length, List.length_append, List.length_singleton]
      omega)
  refine ⟨(env.heap 0 1024).drop (0 + (toUtf8 (cStr csBuf) ++ [0]).length), ?_⟩
  have hconvert : convert env (cStr csBuf) (env.heap 0 1024) (env.sizeofPointer * 1024) =
      some (toUtf8 (cStr csBuf) ++
        0 :: (env.heap 0 1024).drop (0 + (toUtf8 (cStr csBuf) ++ [0]).length)) := by
    unfold convert
    simp only
    rw [if_pos (by rw [List.length_append, List.length_singleton]; omega), hblit, List.take_zero,
      List.nil_append, List.append_assoc, List.singleton_append]
  rw [sendEx, if_neg (by rw [hfound]; decide), if_neg hacp, hconvert]
  rfl

/-- A longer text: the conversion runs over `str`, or it fails and `str` is what it was. -/
theorem sendEx_long {csBuf : List UInt16} (hlong : 1024 ≤ (toUtf8 (cStr csBuf)).length) :
    sendEx plainEnv csBuf = none ∨
      sendEx plainEnv csBuf = sendStr plainEnv ([] ++ 0 :: List.replicate 1023 0) := by
  have hacp := plainEnv_acpLength (cStr csBuf)
  have hlen : (plainEnv.heap 0 1024).length = 1024 := plainEnv.heap_length 0 1024
  rw [sendEx, if_neg (by decide), if_neg hacp]
  unfold convert
  simp only
  by_cases hcap : (toUtf8 (cStr csBuf) ++ [0]).length ≤ plainEnv.sizeofPointer * 1024
  · have hblit : blit (plainEnv.heap 0 1024) 0 (toUtf8 (cStr csBuf) ++ [0]) = none := by
      rw [blit, if_neg]
      rw [hlen, List.length_append, List.length_singleton]
      omega
    rw [if_pos hcap, hblit]
    exact .inl rfl
  · rw [if_neg hcap, hlen]
    exact .inr rfl

/-- What a right call has sent is no shorter than the frame of the whole text. -/
theorem SentWhole.frame_length {message buf : List UInt8}
    (h : SentWhole message (some ⟨true, [buf]⟩)) : buf.length = message.length + 15 := by
  obtain ⟨s, hs, hright⟩ := h
  cases hs
  obtain ⟨hframe, -⟩ := hright rfl
  rw [← hframe.length, List.flatten_singleton]

/-- `SendEx` is right for a text without a NUL whose encoding fits a context with the fifteen bytes
of a frame. -/
theorem sendEx_whole_iff (csBuf : List UInt16) :
    (∀ env, SentWhole (toUtf8 csBuf) (sendEx env csBuf)) ↔
      0 ∉ csBuf ∧ (toUtf8 csBuf).length ≤ 1009 := by
  have hu := zero_not_mem_toUtf8 csBuf
  constructor
  · intro h
    have hplain := h plainEnv
    by_cases hlong : 1024 ≤ (toUtf8 (cStr csBuf)).length
    · rcases sendEx_long hlong with hnone | hempty
      · rw [hnone] at hplain
        obtain ⟨s, hs, -⟩ := hplain
        cases hs
      · -- the frame of the empty text is sent
        obtain ⟨out, hout, hstr⟩ := sendStr_eq plainEnv (List.not_mem_nil : (0 : UInt8) ∉ [])
          (List.replicate 1023 0)
        obtain ⟨hsend, hlen⟩ := _send_frame plainEnv (Nat.zero_le _) hout true
        rw [hempty, hstr, show plainEnv.found 1 = true from rfl, hsend] at hplain
        have hmessage := hplain.frame_length.symm.trans hlen
        rw [List.length_nil] at hmessage
        rcases toUtf8_cStr csBuf with ⟨-, heq⟩ | hlt
        · rw [heq] at hlong
          omega
        · omega
    · obtain ⟨rest, hex⟩ := sendEx_fits plainEnv csBuf rfl
        (Nat.succ_ne_zero _) (Nat.lt_of_not_le hlong)
      obtain ⟨out, hout, hstr⟩ := sendStr_eq plainEnv hu rest
      rw [hex, hstr, show plainEnv.found 1 = true from rfl] at hplain
      by_cases hshort : (toUtf8 (cStr csBuf)).length ≤ 1009
      · obtain ⟨hsend, hlen⟩ := _send_frame plainEnv hshort hout true
        rw [hsend] at hplain
        have hmessage := hplain.frame_length
        rcases toUtf8_cStr csBuf with ⟨hnul, heq⟩ | hlt
        · rw [heq] at hshort
          exact ⟨hnul, hshort⟩
        · omega
      · rw [_send_overflow (by rw [maxBuffer]; omega)] at hplain
        obtain ⟨s, hs, -⟩ := hplain
        cases hs
  · rintro ⟨hnul, hshort⟩ env
    have hcstr : cStr csBuf = csBuf := by
      rw [cStr, List.takeWhile_eq_self_iff]
      intro u hmem
      simpa using fun heq : u = 0 => hnul (heq ▸ hmem)
    by_cases hfound : env.found 0 = true
    · by_cases hacp : env.acpLength (cStr csBuf) = 0
      · rw [sendEx, if_neg (by rw [hfound]; decide), if_pos hacp]
        exact ⟨_, rfl, fun h => by cases h⟩
      · obtain ⟨rest, hex⟩ := sendEx_fits env csBuf hfound hacp (by rw [hcstr]; omega)
        obtain ⟨out, hout, hstr⟩ := sendStr_eq env hu rest
        rw [hex, hstr]
        rw [hcstr] at hout ⊢
        exact _send_whole hshort hout (env.found 1)
    · rw [sendEx, if_pos (Bool.of_not_eq_true hfound)]
      exact ⟨_, rfl, fun h => by cases h⟩

/-- Both calls are right, whatever they meet, exactly for a message of up to 1009 bytes and for a
text without a NUL whose encoding has no more. -/
theorem sends_whole_iff (p : List UInt8) (csBuf : List UInt16) :
    ((∀ env, SentWhole p (send env p p.length)) ↔ p.length ≤ 1009) ∧
      ((∀ env, SentWhole (toUtf8 csBuf) (sendEx env csBuf)) ↔
        0 ∉ csBuf ∧ (toUtf8 csBuf).length ≤ 1009) :=
  ⟨send_whole_iff p, sendEx_whole_iff csBuf⟩

/-- A message, and a text, of 1010 letters: `PrepareSendBuf` runs over the stack buffer of `Send`,
and `_send` over the context in `SendEx`. -/
theorem sends_overflow :
    send plainEnv (List.replicate 1010 0x41) 1010 = none ∧
      sendEx plainEnv (List.replicate 1010 0x41) = none := by
  constructor
  · have hover : prepareSendBuf (List.replicate 1024 0) (List.replicate 1010 0x41) 1010 50 = none :=
      prepareSendBuf_overflow 50 (by rw [List.length_replicate]; decide)
    unfold send
    rw [hover]
    rfl
  · have hlen : (toUtf8 (cStr (List.replicate 1010 0x41))).length = 1010 := by decide +kernel
    obtain ⟨rest, hex⟩ := sendEx_fits plainEnv (List.replicate 1010 0x41) rfl
      (plainEnv_acpLength _) (by rw [hlen]; decide)
    obtain ⟨out, -, hstr⟩ := sendStr_eq plainEnv (zero_not_mem_toUtf8 _) rest
    rw [hex, hstr, hlen]
    exact _send_overflow (by decide)

end VerifyServer.Socket
