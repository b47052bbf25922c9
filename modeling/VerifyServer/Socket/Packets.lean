import VerifyServer.Socket.Reassembly

/-!
# Packets — what `SaveData` makes of any bytes at all

Between two calls a context holds some bytes, and a call looks at these with the chunk behind them.
Where a packet may start, the bytes are too few, or no header, or a header whose length is refused,
or a packet, complete or not.  `Drains` says how far this goes on; it names no buffer and no length
kept beside one, and a call does what it says.
-/

open VerifyServer.Reasoning

namespace VerifyServer.Socket

/-! ## 1. Bytes where a packet may start -/

/-- Where the bytes end: some are held for the next call, or what was left was no header and was
dropped, or `new` was asked for a negative size. -/
inductive Tail where
  | held (bs : List UInt8)
  | junk
  | huge
  deriving DecidableEq, Repr

/-- The bytes that the next call will find. -/
def Tail.pending : Tail → Option (List UInt8)
  | .held bs => some bs
  | .junk => some []
  | .huge => none

/-- Bytes met where a packet may start, the packets taken off their front, and the end. -/
inductive Drains : List UInt8 → List (List UInt8) → Tail → Prop where
  | short {s : List UInt8} : s.length ≤ 10 → Drains s [] (.held s)
  | junk {s : List UInt8} : 10 < s.length → getPacketLen s = noPacket → Drains s [] .junk
  | huge {s : List UInt8} : getPacketLen s < noPacket → Drains s [] .huge
  | part {s : List UInt8} : s.length < getPacketLen s → Drains s [] (.held s)
  | packet {s : List UInt8} {n : Nat} {ps : List (List UInt8)} {tail : Tail} :
      getPacketLen s = n → n ≤ s.length → Drains (s.drop n) ps tail → Drains s (s.take n :: ps) tail

theorem getPacketLen_ge {s : List UInt8} (h : 0 ≤ getPacketLen s) :
    15 ≤ getPacketLen s ∧ 10 < s.length := by
  refine ⟨(getPacketLen_range s).resolve_left (by omega), ?_⟩
  by_contra hshort
  rw [getPacketLen_short (by omega), noPacket] at h
  omega

/-- Eleven bytes are enough to read the length. -/
theorem getPacketLen_append {s : List UInt8} (h : 10 < s.length) (r : List UInt8) :
    getPacketLen (s ++ r) = getPacketLen s := by
  have hhead : startsWithHead (s ++ r) = startsWithHead s := by
    unfold startsWithHead
    rw [List.getD_append _ _ _ _ (by omega), List.getD_append _ _ _ _ (by omega)]
  have hlong : ¬ (s ++ r).length ≤ 10 := by rw [List.length_append]; omega
  unfold getPacketLen
  rw [if_neg hlong, if_neg (by omega : ¬ s.length ≤ 10), hhead,
    readLeWord_append_left s r 6 (by omega)]

theorem drains_total (s : List UInt8) : ∃ ps tail, Drains s ps tail := by
  generalize hlen : s.length = len
  induction len using Nat.strong_induction_on generalizing s with
  | _ len ih =>
    by_cases hshort : s.length ≤ 10
    · exact ⟨_, _, .short hshort⟩
    by_cases hjunk : getPacketLen s = noPacket
    · exact ⟨_, _, .junk (by omega) hjunk⟩
    by_cases hhuge : getPacketLen s < noPacket
    · exact ⟨_, _, .huge hhuge⟩
    have hge := getPacketLen_ge (s := s) (by unfold noPacket at *; omega)
    obtain ⟨n, hn⟩ := Int.eq_ofNat_of_zero_le (by omega : 0 ≤ getPacketLen s)
    by_cases hpart : s.length < n
    · exact ⟨_, _, .part (by omega)⟩
    · obtain ⟨ps, tail, hrest⟩ := ih (s.drop n).length
        (by rw [List.length_drop]; omega) (s.drop n) rfl
      exact ⟨_, _, .packet hn (by omega) hrest⟩

theorem Drains.unique {s : List UInt8} {ps qs : List (List UInt8)} {tail tail' : Tail}
    (h : Drains s ps tail) (h' : Drains s qs tail') : ps = qs ∧ tail = tail' := by
  have hnone : noPacket = -1 := rfl
  induction h generalizing qs with
  | short hs =>
    have hlen := getPacketLen_short hs
    cases h' <;> first | exact ⟨rfl, rfl⟩ | omega
  | junk hs hp => cases h' <;> first | exact ⟨rfl, rfl⟩ | omega
  | huge hp =>
    cases h'
    case short hs => have := getPacketLen_short hs; omega
    all_goals first | exact ⟨rfl, rfl⟩ | omega
  | part hp =>
    cases h'
    case short hs => exact ⟨rfl, rfl⟩
    all_goals first | exact ⟨rfl, rfl⟩ | omega
  | packet hn hle _ ih =>
    cases h'
    case short hs => have := getPacketLen_short hs; omega
    case packet hn' _ hrest =>
      obtain rfl := Int.ofNat.inj (hn'.symm.trans hn)
      obtain ⟨rfl, rfl⟩ := ih hrest
      exact ⟨rfl, rfl⟩
    all_goals omega

/-! ## 2. The bytes a context holds -/

/-- The first bytes `bs` of a packet of `n` bytes are held, in a buffer of that length. -/
structure HoldsPart (pIo : IoContext) (n : Nat) (bs : List UInt8) : Prop where
  noHead : pIo.tmpHeadBuf.nLen = 0
  des : pIo.tmpBuf.nDesLen = n
  cur : pIo.tmpBuf.nCurLen = bs.length
  partly : bs.length < n
  buf : ∃ buf, pIo.tmpBuf.pBuf = some buf ∧ buf.length = n ∧ buf.take bs.length = bs

inductive Pending (pIo : IoContext) (bs : List UInt8) : Prop where
  | head : HoldsHead pIo bs → Pending pIo bs
  | part {n : Nat} : HoldsPart pIo n bs → getPacketLen bs = n → Pending pIo bs

theorem pending_of_clean {pIo : IoContext} (h : pIo.Clean) : Pending pIo [] :=
  .head ⟨h.2.1, h.2.2, h.1, fun hne => absurd rfl hne, Nat.zero_le _⟩

/-- What lies between the header of a packet and its last five bytes. -/
def packetPayload (p : List UInt8) : List UInt8 := (p.drop 10).take (p.length - flagLen)

/-- The calls of `Recevie` for one packet. -/
def SaveEnv.packetRevs (env : SaveEnv) (connID : UInt32) (p : List UInt8) : List Rev :=
  let tmp := packetPayload p ++ [0]
  if 0 < env.multiByteToWideChar tmp ∧ env.hasRecevier then
    [⟨connID, tmp, env.multiByteToWideChar tmp⟩]
  else
    []

/-- A receiver is set, and every text is ASCII. -/
def asciiEnv : SaveEnv := ⟨true, fun bs => bs.length⟩

theorem asciiEnv_delivers : asciiEnv.Delivers :=
  ⟨rfl, fun bs => by simp only [asciiEnv, List.length_append, List.length_singleton]; omega⟩

theorem deliver_packet (env : SaveEnv) (connID : UInt32) {p : List UInt8} (h : 15 ≤ p.length) :
    deliver env connID p p.length = .ok (env.packetRevs connID p) := by
  have hcopy : copyOut (some p) 10 ((p.length : Int) - 15) = some (packetPayload p) := by
    rw [copyOut, if_pos (by omega), packetPayload, flagLen,
      show ((p.length : Int) - 15).toNat = p.length - 15 by omega]
    rfl
  unfold deliver
  simp only
  rw [if_neg (by omega), hcopy]
  rfl

/-! ## 3. The branches of a call -/

theorem saveData_junk {env : SaveEnv} {pIo : IoContext} (hc : pIo.Clean) {s : List UInt8}
    (h : 10 < s.length) (hp : getPacketLen s = noPacket) :
    saveData env pIo s = ⟨pIo, [], none⟩ := by
  obtain ⟨hh, hd, hk⟩ := hc
  rw [saveData, if_neg (by omega)]
  simp only [hd, hk, Int.sub_zero, if_true]
  rw [if_pos h, if_pos hp]

theorem saveData_huge {env : SaveEnv} {pIo : IoContext} (hc : pIo.Clean) {s : List UInt8}
    (hp : getPacketLen s < noPacket) :
    saveData env pIo s = ⟨{ pIo with tmpBuf.pBuf := none }, [], some .badAlloc⟩ := by
  obtain ⟨hh, hd, hk⟩ := hc
  have hlong : 10 < s.length := by
    by_contra hshort
    rw [getPacketLen_short (by omega)] at hp
    exact lt_irrefl _ hp
  have hneg : getPacketLen s < 0 := by unfold noPacket at hp; omega
  rw [saveData, if_neg (by omega)]
  simp only [hd, hk, Int.sub_zero, if_true]
  rw [if_pos hlong, if_neg (by omega), if_pos hneg]

/-- A header opens a buffer, and the call starts again with nothing in it. -/
theorem saveData_opens (env : SaveEnv) {pIo : IoContext} (hc : pIo.Clean) {s : List UInt8}
    {n : Nat} (hn : getPacketLen s = n) :
    saveData env pIo s =
        saveData env { pIo with tmpBuf := ⟨some (newChar n), n, 0⟩ } s ∧
      HoldsPart { pIo with tmpBuf := ⟨some (newChar n), n, 0⟩ } n [] := by
  obtain ⟨h15, hlong⟩ := getPacketLen_ge (s := s) (by omega)
  obtain ⟨hh, hd, hk⟩ := hc
  refine ⟨?_, hh, rfl, rfl, by rw [List.length_nil]; omega, _, rfl, ?_, rfl⟩
  · conv_lhs => rw [saveData]
    rw [if_neg (by omega)]
    simp only [hd, hk, Int.sub_zero, if_true, hn]
    rw [if_pos hlong, if_neg (by unfold noPacket; omega), if_neg (by omega)]
  · rw [newChar, List.length_replicate, Int.toNat_natCast]

theorem saveData_part_short (env : SaveEnv) {pIo : IoContext} {n : Nat} {bs : List UInt8}
    (h : HoldsPart pIo n bs) {c : List UInt8} (hlt : bs.length + c.length < n) :
    (saveData env pIo c).fault = none ∧ (saveData env pIo c).revs = [] ∧
      (saveData env pIo c).ctx.connID = pIo.connID ∧
      HoldsPart (saveData env pIo c).ctx n (bs ++ c) := by
  obtain ⟨hh, hd, hk, hpart, buf, hbuf, hlen, htake⟩ := h
  have hfill : fill pIo.tmpBuf c = some (bs ++ c ++ buf.drop (bs.length + c.length)) := by
    rw [fill, hbuf]
    simp only [hk]
    rw [if_pos (by omega), Int.toNat_natCast, blit_eq_some (by omega), htake]
  have hrun : saveData env pIo c = ⟨{ pIo with tmpBuf := { pIo.tmpBuf with
      pBuf := some (bs ++ c ++ buf.drop (bs.length + c.length)),
      nCurLen := pIo.tmpBuf.nCurLen + c.length } }, [], none⟩ := by
    rw [saveData, if_neg (by omega)]
    simp only
    rw [if_neg (by omega), if_pos (by omega), if_neg (by omega), hfill]
  rw [hrun]
  refine ⟨rfl, rfl, rfl, hh, hd, ?_, by rw [List.length_append]; omega, _, rfl, ?_, ?_⟩
  · rw [List.length_append, hk]
    push_cast
    rfl
  · simp only [List.length_append, List.length_drop]
    omega
  · exact List.take_left' rfl

theorem saveData_part_full {env : SaveEnv} {pIo : IoContext} {n : Nat} {bs a : List UInt8}
    (h : HoldsPart pIo n bs) (h15 : 15 ≤ n) (hn : bs.length + a.length = n) (more : List UInt8) :
    saveData env pIo (a ++ more) =
      if more = [] then
        ⟨{ pIo with tmpBuf := {} }, env.packetRevs pIo.connID (bs ++ a), none⟩
      else
        let next := saveData env { pIo with tmpBuf := {} } more
        { next with revs := env.packetRevs pIo.connID (bs ++ a) ++ next.revs } := by
  obtain ⟨hh, hd, hk, hpart, buf, hbuf, hlen, htake⟩ := h
  have hleave : (pIo.tmpBuf.nDesLen - pIo.tmpBuf.nCurLen).toNat = a.length := by omega
  have hfill : fill pIo.tmpBuf a = some (bs ++ a) := by
    rw [fill, hbuf]
    simp only [hk]
    rw [if_pos (by omega), Int.toNat_natCast, blit_eq_some (by omega), htake,
      List.drop_of_length_le (by omega), List.append_nil]
  have hfirst : (a ++ more).take (pIo.tmpBuf.nDesLen - pIo.tmpBuf.nCurLen).toNat = a :=
    List.take_left' hleave.symm
  have hrest : (a ++ more).drop (pIo.tmpBuf.nDesLen - pIo.tmpBuf.nCurLen).toNat = more :=
    List.drop_left' hleave.symm
  have hdel : deliver env pIo.connID (bs ++ a) pIo.tmpBuf.nDesLen =
      .ok (env.packetRevs pIo.connID (bs ++ a)) := by
    have hall : (bs ++ a).length = n := by rw [List.length_append, hn]
    rw [hd, ← hall]
    exact deliver_packet env _ (by omega)
  conv_lhs => rw [saveData]
  rw [if_neg (by omega)]
  simp only
  rw [if_neg (by omega), if_pos (by omega), if_pos (by
    rw [List.length_append]; push_cast; omega)]
  simp only [hfirst, hrest, hfill, hdel]
  by_cases hm : more = []
  · rw [if_pos hm, if_neg (by simp [hm])]
  · rw [if_neg hm, if_pos (List.length_pos_of_ne_nil hm)]

/-- A pending head goes in front of the chunk. -/
theorem saveData_merge {env : SaveEnv} {pIo : IoContext} {h : List UInt8} (hh : HoldsHead pIo h)
    (hne : h ≠ []) (c : List UInt8) :
    saveData env pIo c = saveData env { pIo with tmpHeadBuf := {} } (h ++ c) := by
  have hpos := List.length_pos_of_ne_nil hne
  have hcopy : copyOut pIo.tmpHeadBuf.pBuf 0 pIo.tmpHeadBuf.nLen = some h := by
    rw [hh.buf hne, hh.len, copyOut, if_pos (by omega)]
    simp
  conv_lhs => rw [saveData]
  rw [if_pos (by rw [hh.len]; omega)]
  split
  · next hnone => cases hcopy.symm.trans hnone
  · next hsome => rw [Option.some.inj (hcopy.symm.trans hsome)]

/-! ## 4. One call -/

/-- What a call leaves when the bytes it looked at drain into `ps` and `tail`. -/
structure Feeds (env : SaveEnv) (connID : UInt32) (r : Saved) (ps : List (List UInt8))
    (tail : Tail) : Prop where
  revs : r.revs = ps.flatMap (env.packetRevs connID)
  connID : r.ctx.connID = connID
  fault : r.fault = if tail = .huge then some .badAlloc else none
  pending : ∀ bs, tail.pending = some bs → Pending r.ctx bs

/-- The chunk ends a packet, and what follows is met with nothing held. -/
theorem saveData_full_feeds {env : SaveEnv} {pIo : IoContext} {n : Nat} {bs a more : List UInt8}
    {ps : List (List UInt8)} {tail : Tail} (h : HoldsPart pIo n bs) (h15 : 15 ≤ n)
    (hn : bs.length + a.length = n) (hmore : Drains more ps tail)
    (hrest : Feeds env pIo.connID (saveData env { pIo with tmpBuf := {} } more) ps tail) :
    Feeds env pIo.connID (saveData env pIo (a ++ more)) ((bs ++ a) :: ps) tail := by
  rw [saveData_part_full h h15 hn]
  by_cases hnil : more = []
  · subst hnil
    obtain ⟨rfl, rfl⟩ := hmore.unique (.short (Nat.zero_le _))
    rw [if_pos rfl]
    refine ⟨(List.append_nil _).symm, rfl, rfl, fun bs' hbs' => ?_⟩
    cases hbs'
    exact pending_of_clean ⟨h.noHead, rfl, rfl⟩
  · rw [if_neg hnil]
    exact ⟨congrArg (env.packetRevs pIo.connID (bs ++ a) ++ ·) hrest.revs, hrest.connID,
      hrest.fault, hrest.pending⟩

theorem saveData_clean_feeds {env : SaveEnv} {s : List UInt8} {ps : List (List UInt8)} {tail : Tail}
    (h : Drains s ps tail) {pIo : IoContext} (hc : pIo.Clean) :
    Feeds env pIo.connID (saveData env pIo s) ps tail := by
  induction h generalizing pIo with
  | short hs =>
    rw [saveData_short hc hs]
    refine ⟨rfl, rfl, rfl, fun bs hbs => ?_⟩
    cases hbs
    exact .head ⟨hc.2.1, hc.2.2, rfl, fun _ => rfl, hs⟩
  | junk hs hp =>
    rw [saveData_junk hc hs hp]
    refine ⟨rfl, rfl, rfl, fun bs hbs => ?_⟩
    cases hbs
    exact pending_of_clean hc
  | huge hp =>
    rw [saveData_huge hc hp]
    exact ⟨rfl, rfl, rfl, fun bs hbs => by cases hbs⟩
  | @part s hp =>
    obtain ⟨n, hn⟩ := Int.eq_ofNat_of_zero_le (by omega : 0 ≤ getPacketLen s)
    obtain ⟨hopen, hpart⟩ := saveData_opens env hc hn
    have hlt : ([] : List UInt8).length + s.length < n := by rw [List.length_nil]; omega
    obtain ⟨hf, hr, hid, hpart'⟩ := saveData_part_short env hpart hlt
    rw [hopen]
    refine ⟨hr, hid, hf, fun bs hbs => ?_⟩
    cases hbs
    exact .part hpart' hn
  | @packet s n ps tail hn hle hrest ih =>
    have h15 := (getPacketLen_ge (s := s) (by omega)).1
    obtain ⟨hopen, hpart⟩ := saveData_opens env hc hn
    have hlen : ([] : List UInt8).length + (s.take n).length = n := by
      rw [List.length_nil, List.length_take]
      omega
    have hclean : IoContext.Clean { pIo with tmpBuf := {} } := ⟨hc.1, rfl, rfl⟩
    have hfeeds := saveData_full_feeds hpart (by omega) hlen hrest (ih hclean)
    rw [List.take_append_drop] at hfeeds
    rw [hopen]
    exact hfeeds

/-- **One call.**  What is held and the chunk drain together. -/
theorem saveData_feeds (env : SaveEnv) {pIo : IoContext} {bs c : List UInt8}
    {ps : List (List UInt8)} {tail : Tail} (hp : Pending pIo bs) (h : Drains (bs ++ c) ps tail) :
    Feeds env pIo.connID (saveData env pIo c) ps tail := by
  cases hp with
  | head hh =>
    by_cases hnil : bs = []
    · subst hnil
      exact saveData_clean_feeds h ⟨hh.len, hh.des, hh.cur⟩
    · have hclean : IoContext.Clean { pIo with tmpHeadBuf := {} } := ⟨rfl, hh.des, hh.cur⟩
      rw [saveData_merge hh hnil]
      exact saveData_clean_feeds h hclean
  | @part n hpart hn =>
    obtain ⟨h15, hlong⟩ := getPacketLen_ge (s := bs) (by omega)
    have hn' : getPacketLen (bs ++ c) = n := (getPacketLen_append hlong c).trans hn
    have hpartly := hpart.partly
    by_cases hlt : bs.length + c.length < n
    · obtain ⟨hf, hr, hid, hpart'⟩ := saveData_part_short env hpart hlt
      have hdrain : Drains (bs ++ c) [] (.held (bs ++ c)) :=
        .part (by rw [List.length_append, hn']; exact_mod_cast hlt)
      obtain ⟨rfl, rfl⟩ := h.unique hdrain
      refine ⟨hr, hid, hf, fun bs' hbs' => ?_⟩
      cases hbs'
      exact .part hpart' hn'
    · -- the chunk is cut where the packet ends
      obtain ⟨a, more, rfl, ha⟩ : ∃ a more, c = a ++ more ∧ a.length = n - bs.length :=
        ⟨_, _, (List.take_append_drop (n - bs.length) c).symm,
          List.length_take_of_le (by omega)⟩
      have hend : (bs ++ a).length = n := by rw [List.length_append]; omega
      rw [← List.append_assoc] at h hn'
      obtain ⟨qs, tail', hmore⟩ := drains_total more
      have hdrain := Drains.packet hn' (by rw [List.length_append]; omega)
        (by rw [List.drop_left' hend]; exact hmore)
      rw [List.take_left' hend] at hdrain
      obtain ⟨rfl, rfl⟩ := h.unique hdrain
      have hclean : IoContext.Clean { pIo with tmpBuf := {} } := ⟨hpart.noHead, rfl, rfl⟩
      exact saveData_full_feeds hpart (by omega) (by omega) hmore
        (saveData_clean_feeds hmore hclean)

end VerifyServer.Socket
