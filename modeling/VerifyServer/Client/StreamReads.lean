import VerifyServer.Client.StreamCut

/-!
# StreamReads — the packets taken over a whole stream

The reads cut a list of frames anywhere.  The packets are the frames, and nothing is left, when
every read that comes in the middle of a frame completes it.  For a stream of one frame this is
exact; in a longer one, a read that is lost can be made up for by an equal one.
-/

open VerifyServer.Reasoning VerifyServer.Socket

namespace VerifyServer.Client

/-- `_pack_save` returned the frames, each once, complete and in order, and holds nothing. -/
def Delivers (lib : DecryptLibrary) (frames : List Frame) (reads : List Read) : Prop :=
  ∃ fuel s packs, parseReads lib fuel (newTcpStreamPack 1024) reads = some (s, packs) ∧
    packs = frames.map packet ∧ s.nNoFullPackLen = 0

/-- `p` bytes of the first frame are in before the reads.  A read that comes in the middle of a
frame does not begin like a packet itself and completes the frame. -/
def Smooth (lib : DecryptLibrary) : List Frame → Nat → List Read → Prop
  | _, _, [] => True
  | fs, p, r :: rs =>
    (0 < p → Client.getPackLen r.array r.len = noPacket ∧
      ∀ f ∈ fs.head?, f.bytes.length ≤ p + r.len) ∧
    Accepted lib fs (p + r.len) ∧
    Smooth lib (advance fs (p + r.len)).1 (advance fs (p + r.len)).2 rs

/-! ## 1. Reads that complete what is held -/

theorem Read.holding (r : Read) : Holding ⟨r.array, r.len⟩ r.bytes where
  size := r.maxBuff
  len := by
    have hfits := r.fits
    rw [Read.bytes, List.length_take, r.maxBuff, Nat.min_eq_left hfits]
  bytes := ⟨r.array.drop r.len, (List.take_append_drop ..).symm⟩

@[simp] theorem Read.bytes_length (r : Read) : r.bytes.length = r.len :=
  (Int.ofNat.inj r.holding.len).symm

/-- One read. -/
theorem packParse_took {lib : DecryptLibrary} {fs : List Frame} {r : Read} {later h : List UInt8}
    {fuel : Nat} (hfuel : fs.length < fuel) {s : TcpStreamPack} (hs : InStep s h)
    (hin : Within fs h.length) (hlater : h ++ (r.bytes ++ later) = stream fs)
    (hjoin : h ≠ [] → Client.getPackLen r.array r.len = noPacket ∧
      ∀ f ∈ fs.head?, f.bytes.length ≤ h.length + r.len)
    (hacc : Accepted lib fs (h.length + r.len)) :
    ∃ q, packParse lib fuel s ⟨r.array, r.len⟩ = some q ∧ Took fs (h.length + r.len) later q := by
  by_cases hne : h = []
  · subst hne
    rw [List.length_nil, Nat.zero_add] at hacc ⊢
    have htook := packParse_whole hfuel hs r.holding hlater (by rwa [r.bytes_length])
    rwa [r.bytes_length] at htook
  · obtain ⟨hplain, hends⟩ := hjoin hne
    cases fs with
    | nil => exact absurd (List.append_eq_nil_iff.mp hlater).1 hne
    | cons f fs =>
      obtain ⟨fuel, rfl⟩ := Nat.exists_eq_succ_of_ne_zero (Nat.ne_of_gt (Nat.zero_lt_of_lt hfuel))
      rw [List.length_cons] at hfuel
      have hend : f.bytes.length ≤ h.length + r.len := hends f rfl
      have hlen : (h ++ r.bytes).length = h.length + r.len := by
        rw [List.length_append, r.bytes_length]
      -- the frame, and what of the read follows it
      have hpre : f.bytes <+: h ++ r.bytes :=
        List.prefix_of_prefix_length_le (List.prefix_append _ (stream fs))
          ⟨later, by rw [List.append_assoc, hlater, stream_cons]⟩ (by omega)
      obtain ⟨rest, hrest⟩ := hpre
      have hlater' : rest ++ later = stream fs := by
        rw [← List.append_cancel_left_eq f.bytes, ← List.append_assoc, hrest, List.append_assoc,
          hlater, stream_cons]
      have hsum : h.length + r.len = f.bytes.length + rest.length := by
        rw [← hlen, ← hrest, List.length_append]
      obtain ⟨s', data', hsave, hs', hd'⟩ := packSave_join hs r.holding hne hplain hrest.symm hin
      have hleft : rest ≠ [] → f.bytes.length < h.length + r.len := fun hr => by
        have := List.length_pos_iff.mpr hr
        omega
      have hacc' : Accepted lib fs rest.length := by
        by_cases hr : rest = []
        · subst hr
          exact accepted_zero lib fs
        · have := (hacc (hleft hr)).2
          rwa [hsum, Nat.add_sub_cancel_left] at this
      exact packParse_packet hsave hs' hsum hlater' (fun hr => (hacc (hleft hr)).1)
        (packParse_whole (by omega) hs' hd' hlater' hacc')

/-- All reads, from any state that is in step with the stream. -/
theorem parseReads_took {lib : DecryptLibrary} {reads : List Read} {fs : List Frame} {fuel : Nat}
    (hfuel : fs.length < fuel) {s : TcpStreamPack} {h : List UInt8} (hs : InStep s h)
    (hin : Within fs h.length) (hcut : h ++ (reads.map Read.bytes).flatten = stream fs)
    (hsmooth : Smooth lib fs h.length reads) :
    ∃ s', parseReads lib fuel s reads = some (s', fs.map packet) ∧ s'.nNoFullPackLen = 0 := by
  induction reads generalizing fs s h with
  | nil =>
    rw [List.map_nil, List.flatten_nil, List.append_nil] at hcut
    cases fs with
    | nil =>
      refine ⟨s, rfl, ?_⟩
      rw [hs.len, hcut]
      rfl
    | cons f fs =>
      -- all bytes are in, so the first frame is
      have hlen := congrArg List.length hcut
      rw [stream_cons, List.length_append] at hlen
      exact absurd (show h.length < f.bytes.length from hin) (by omega)
  | cons r reads ih =>
    obtain ⟨hjoin, hacc, hnext⟩ := hsmooth
    rw [List.map_cons, List.flatten_cons] at hcut
    obtain ⟨q, hq, hpacks, k, hk, hlen, hheld⟩ := packParse_took hfuel hs hin hcut
      (fun hne => hjoin (List.length_pos_iff.mpr hne)) hacc
    have hfs := completed_append_advance fs (h.length + r.len)
    have hfuel' : (advance fs (h.length + r.len)).1.length < fuel := by
      have := congrArg List.length hfs
      rw [List.length_append] at this
      omega
    obtain ⟨s', hs', hempty⟩ := ih hfuel' hk (by rw [hlen]; exact within_advance fs _) hheld
      (by rw [hlen]; exact hnext)
    refine ⟨s', ?_, hempty⟩
    simp only [parseReads, hq, hs', bind, Option.bind_some, hpacks]
    rw [← List.map_append, hfs]

theorem delivers_of_smooth {lib : DecryptLibrary} {frames : List Frame} {reads : List Read}
    (hcut : (reads.map Read.bytes).flatten = stream frames) (hsmooth : Smooth lib frames 0 reads) :
    Delivers lib frames reads := by
  obtain ⟨s, hs, hempty⟩ := parseReads_took (Nat.lt_succ_self _) inStep_new (within_zero frames)
    hcut hsmooth
  exact ⟨_, s, _, hs, rfl, hempty⟩

/-! ## 2. Reads that are lost -/

theorem arraycopy_length {src dest out : List UInt8} {srcPos destPos length : Int}
    (h : arraycopy src srcPos dest destPos length = some out) : out.length = dest.length := by
  rw [arraycopy] at h
  split at h
  · exact blit_length h
  · cases h

theorem newByte_length {n : Int} {out : List UInt8} (h : newByte n = some out) :
    out = List.replicate n.toNat 0 := by
  rw [newByte] at h
  split at h
  · exact (Option.some.inj h).symm
  · cases h

theorem getD_zeros (k i : Nat) : (List.replicate k (0 : UInt8)).getD i 0 = 0 := by
  rw [List.getD_eq_getElem?_getD, List.getElem?_replicate]
  split <;> rfl

/-- A copy that ends before an index leaves a zero there. -/
theorem arraycopy_behind {src dest out : List UInt8} {srcPos length : Int} {p n i : Nat}
    (h : arraycopy src srcPos dest p length = some out) (hn : length = n) (hi : p + n ≤ i)
    (hzero : dest.getD i 0 = 0) : out.getD i 0 = 0 := by
  rw [arraycopy] at h
  split at h
  · rename_i hrange
    have hlen : ((src.drop srcPos.toNat).take length.toNat).length = n := by
      rw [List.length_take, List.length_drop]
      omega
    have hout := blit_take h
    rw [Int.toNat_natCast] at h
    rw [blit] at h
    split at h
    · rename_i hfit
      obtain rfl := Option.some.inj h
      rw [hlen] at hfit ⊢
      rw [List.append_assoc, List.getD_append_right _ _ _ _ (by rw [List.length_take]; omega),
        List.getD_append_right _ _ _ _ (by rw [hlen, List.length_take]; omega), hlen,
        List.length_take, List.getD_eq_getElem?_getD, List.getElem?_drop,
        show p + n + (i - min p dest.length - n) = i by omega, ← List.getD_eq_getElem?_getD]
      exact hzero
    · cases h
  · cases h

/-- What is copied over zeros has a zero where the source has one. -/
theorem arraycopy_zeros {src out : List UInt8} {length : Int} {k i : Nat}
    (h : arraycopy src 0 (List.replicate k 0) 0 length = some out) (hzero : src.getD i 0 = 0) :
    out.getD i 0 = 0 := by
  rw [arraycopy] at h
  split at h
  · rw [blit] at h
    split at h
    · obtain rfl := Option.some.inj h
      rw [Int.toNat_zero, List.take_zero, List.nil_append, List.drop_zero]
      by_cases hi : i < (src.take length.toNat).length
      · rw [List.getD_append _ _ _ _ hi]
        rw [List.length_take] at hi
        rwa [List.getD_eq_getElem?_getD, List.getElem?_take_of_lt (by omega),
          ← List.getD_eq_getElem?_getD]
      · rw [List.getD_append_right _ _ _ _ (by omega)]
        rw [List.drop_replicate]
        exact getD_zeros ..
    · cases h
  · cases h

/-- A frame's last byte is its end marker. -/
theorem packet_last (f : Frame) : (packet f).getD (f.bytes.length - 1) 0 = 0x45 := by
  have hlen := f.bytes_length
  rw [flagLen] at hlen
  have hsplit : packet f = (f.header ++ f.payload ++ leBytes f.check) ++ [0x45, 0] := by
    simp only [packet, Frame.bytes, Frame.trailer, List.append_assoc, List.cons_append,
      List.nil_append]
  have hindex : f.bytes.length - 1 = (f.header ++ f.payload ++ leBytes f.check).length := by
    rw [List.length_append, List.length_append, f.header_length, leBytes_length]
    omega
  rw [hsplit, hindex, List.getD_append_right _ _ _ _ (Nat.le_refl _), Nat.sub_self]
  rfl

/-- `p` bytes are held, and none of the array is in use from the last byte of `f` on. -/
structure Stuck (f : Frame) (p : Nat) (s : TcpStreamPack) : Prop where
  len : s.nNoFullPackLen = p
  pos : 0 < p
  blank : s.revNoFullPack.getD (f.bytes.length - 1) 0 = 0

theorem stuck_of_inStep {f : Frame} {s : TcpStreamPack} {h : List UInt8} (hs : InStep s h)
    (hne : h ≠ []) (hshort : h.length < f.bytes.length) : Stuck f h.length s where
  len := hs.len
  pos := List.length_pos_iff.mpr hne
  blank := by
    rw [hs.held, List.getD_append_right _ _ _ _ (by omega)]
    exact getD_zeros ..

/-- A read that does not reach the end of `f`, or looks like a packet itself. -/
def Lost (f : Frame) (p : Nat) (data : TcpData) : Prop :=
  ∃ n : Nat, data.nlen = n ∧ 0 < n ∧ n < f.bytes.length ∧
    (Client.getPackLen data.data data.nlen ≠ noPacket ∨ p + n < f.bytes.length)

/-- What a call that does not give `f` gives: something else, or nothing and what is held stays. -/
def NotTaken (f : Frame) (p : Nat) (r : PackSave) : Prop :=
  match r.ret with
  | .ok (some pack_buf) => pack_buf ≠ packet f
  | _ => Stuck f p r.pack

theorem takePack_notTaken {f : Frame} {p : Nat} {s : TcpStreamPack} (hs : Stuck f p s)
    {data : TcpData} {pack_len : Int} (hshort : pack_len < f.bytes.length) :
    NotTaken f p (takePack s data pack_len) := by
  rw [takePack]
  cases hnew : newByte (pack_len + 1) with
  | none => exact hs
  | some zeros =>
    simp only
    cases hret : arraycopy data.data 0 zeros 0 pack_len with
    | none => exact hs
    | some ret_byte =>
      simp only
      cases copySelf s data.data data.nlen pack_len 0 (data.nlen - pack_len) with
      | none => exact hs
      | some moved =>
        -- too short to be the frame
        intro heq
        have hlen := congrArg List.length heq
        rw [arraycopy_length hret, newByte_length hnew, List.length_replicate, packet,
          List.length_append, List.length_singleton] at hlen
        omega

theorem joinPack_notTaken {f : Frame} {p : Nat} {s : TcpStreamPack} (hs : Stuck f p s)
    {data : TcpData} {n : Nat} (hn : data.nlen = n) (hshort : p + n < f.bytes.length) :
    NotTaken f p (joinPack s data) := by
  rw [joinPack]
  cases hjoin : arraycopy data.data 0 s.revNoFullPack s.nNoFullPackLen data.nlen with
  | none => exact hs
  | some joined =>
    have hblank : joined.getD (f.bytes.length - 1) 0 = 0 :=
      arraycopy_behind (hs.len ▸ hjoin) hn (by omega) hs.blank
    have hstuck : Stuck f p { s with revNoFullPack := joined } := ⟨hs.len, hs.pos, hblank⟩
    -- a packet taken from here has a zero where the frame ends
    have hother {pack_buf : List UInt8} (h : pack_buf.getD (f.bytes.length - 1) 0 = 0) :
        pack_buf ≠ packet f := by
      intro heq
      rw [heq, packet_last] at h
      cases h
    simp only
    by_cases hno : Client.getPackLen joined (data.nlen + s.nNoFullPackLen) = noPacket
    · rw [if_pos hno]
      exact hstuck
    · rw [if_neg hno]
      cases hnew : newByte (Client.getPackLen joined (data.nlen + s.nNoFullPackLen) + 1) with
      | none => exact hstuck
      | some zeros =>
        have hzeros := newByte_length hnew
        subst hzeros
        simp only
        cases hret : arraycopy joined 0 _ 0
            (Client.getPackLen joined (data.nlen + s.nNoFullPackLen)) with
        | none => exact hother (getD_zeros ..)
        | some ret_byte =>
          have := hother (arraycopy_zeros hret hblank)
          simp only
          cases byteArrayZero data.data data.nlen with
          | none => exact this
          | some zeroed =>
            simp only
            cases arraycopy joined _ zeroed 0 _ with
            | none => exact this
            | some in_buf =>
              simp only
              cases byteArrayZero joined s.nMaxRevNoFullPackLen with
              | none => exact this
              | some cleared => exact this

theorem packSave_notTaken {f : Frame} {p : Nat} {s : TcpStreamPack} (hs : Stuck f p s)
    {data : TcpData} (hlost : Lost f p data) : NotTaken f p (packSave s data) := by
  obtain ⟨n, hn, hpos, hless, hlost⟩ := hlost
  have hheld := hs.len
  have hp := hs.pos
  rw [packSave, if_neg (by omega)]
  simp only
  by_cases hhead : Client.getPackLen data.data data.nlen = noPacket
  · rw [if_neg (not_not_intro hhead), if_pos (by omega)]
    exact joinPack_notTaken hs hn (hlost.resolve_left (not_not_intro hhead))
  · rw [if_pos hhead]
    by_cases hfull : data.nlen < Client.getPackLen data.data data.nlen ∨ data.nlen ≤ 10
    · rw [if_pos hfull, if_neg (by omega)]
      exact hs
    · rw [if_neg hfull]
      exact takePack_notTaken hs (by omega)

/-- The first packet of a list is not `f`, or there is none and `p` bytes are held. -/
def Missed (f : Frame) (p : Nat) (s : TcpStreamPack) (packs : List (List UInt8)) : Prop :=
  match packs with
  | [] => Stuck f p s
  | pack_buf :: _ => pack_buf ≠ packet f

theorem packParse_missed {lib : DecryptLibrary} {fuel : Nat} {f : Frame} {p : Nat}
    {s : TcpStreamPack} (hs : Stuck f p s) {data : TcpData} (hlost : Lost f p data) {q : PackParse}
    (h : packParse lib fuel s data = some q) : Missed f p q.pack q.packs := by
  have hsave := packSave_notTaken hs hlost
  cases fuel with
  | zero => cases h
  | succ fuel =>
    rw [packParse] at h
    rw [NotTaken] at hsave
    cases hret : (packSave s data).ret with
    | error e =>
      rw [hret] at h hsave
      obtain rfl := Option.some.inj h
      exact hsave
    | ok taken =>
      rw [hret] at h hsave
      cases taken with
      | none =>
        obtain rfl := Option.some.inj h
        exact hsave
      | some pack_buf =>
        simp only at h hsave
        cases hparse : parsePack lib pack_buf with
        | error e =>
          rw [hparse] at h
          obtain rfl := Option.some.inj h
          exact hsave
        | ok out =>
          rw [hparse] at h
          obtain ⟨next, -, rfl⟩ := Option.map_eq_some_iff.mp h
          exact hsave

theorem parseReads_missed {lib : DecryptLibrary} {fuel : Nat} {f : Frame} {p : Nat}
    {reads : List Read} {s : TcpStreamPack} (hs : Stuck f p s)
    (hlost : ∀ r ∈ reads, Lost f p ⟨r.array, r.len⟩) {t : TcpStreamPack} {packs : List (List UInt8)}
    (h : parseReads lib fuel s reads = some (t, packs)) : Missed f p t packs := by
  induction reads generalizing s packs with
  | nil =>
    obtain ⟨rfl, rfl⟩ := Prod.mk.inj (Option.some.inj h)
    exact hs
  | cons r reads ih =>
    simp only [parseReads, bind, Option.bind_eq_some_iff, Option.some.injEq, Prod.mk.injEq] at h
    obtain ⟨q, hq, ⟨t', packs'⟩, hnext, rfl, rfl⟩ := h
    have hmissed := packParse_missed hs (hlost r (List.mem_cons_self ..)) hq
    cases hpacks : q.packs with
    | nil =>
      rw [hpacks] at hmissed
      exact ih hmissed (fun r' hr' => hlost r' (List.mem_cons_of_mem _ hr')) hnext
    | cons pack_buf packs =>
      rw [hpacks] at hmissed
      exact hmissed

/-! ## 3. One frame -/

theorem accepted_one {lib : DecryptLibrary} {f : Frame} {n : Nat} (h : n ≤ f.bytes.length) :
    Accepted lib [f] n := fun hlt => absurd hlt (by omega)

-- reads are not empty
theorem reads_eq_nil {reads : List Read} (h : (reads.map Read.bytes).flatten = []) : reads = [] := by
  cases reads with
  | nil => rfl
  | cons r reads =>
    rw [List.map_cons, List.flatten_cons] at h
    have hlen := r.bytes_length
    rw [(List.append_eq_nil_iff.mp h).1, List.length_nil] at hlen
    have := r.pos
    omega

theorem read_len_le {reads : List Read} {r : Read} (h : r ∈ reads) :
    r.len ≤ (reads.map Read.bytes).flatten.length := by
  rw [← r.bytes_length]
  exact (List.sublist_flatten_of_mem (List.mem_map_of_mem h)).length_le

/-- A frame that comes out as the only packet was cut in two at most, and its second part does not
look like a packet. -/
theorem smooth_of_delivers {lib : DecryptLibrary} {f : Frame} {reads : List Read}
    (hcut : (reads.map Read.bytes).flatten = f.bytes) (h : Delivers lib [f] reads) :
    Smooth lib [f] 0 reads := by
  cases reads with
  | nil => trivial
  | cons r reads =>
    rw [List.map_cons, List.flatten_cons] at hcut
    have hsum := congrArg List.length hcut
    rw [List.length_append, r.bytes_length] at hsum
    have hr := r.pos
    refine ⟨fun h0 => absurd h0 (Nat.lt_irrefl 0), accepted_one (by omega), ?_⟩
    rw [Nat.zero_add]
    by_cases hwhole : r.len = f.bytes.length
    · have hnil : reads = [] := reads_eq_nil (List.length_eq_zero_iff.mp (by omega))
      subst hnil
      trivial
    rw [advance, if_pos (by omega)]
    cases reads with
    | nil => trivial
    | cons r' reads =>
      rw [List.map_cons, List.flatten_cons, List.length_append, r'.bytes_length] at hsum
      have hr' := r'.pos
      suffices hsecond : Client.getPackLen r'.array r'.len = noPacket ∧
          f.bytes.length ≤ r.len + r'.len by
        refine ⟨fun _ => ⟨hsecond.1, fun g hg => ?_⟩, accepted_one (by omega), ?_⟩
        · rw [← Option.some.inj hg]
          exact hsecond.2
        · have hnil : reads = [] := reads_eq_nil (List.length_eq_zero_iff.mp (by omega))
          subst hnil
          trivial
      by_contra hbad
      -- then every read after the first is lost
      have hlost : ∀ q ∈ r' :: reads, Lost f r.len ⟨q.array, q.len⟩ := by
        intro q hq
        refine ⟨q.len, rfl, q.pos, ?_⟩
        cases hq with
        | head =>
          by_cases hends : f.bytes.length ≤ r.len + r'.len
          · exact ⟨by omega, .inl fun hno => hbad ⟨hno, hends⟩⟩
          · exact ⟨by omega, .inr (by omega)⟩
        | tail _ hq =>
          have := read_len_le hq
          exact ⟨by omega, .inr (by omega)⟩
      obtain ⟨fuel, s, packs, hparse, hpacks, hempty⟩ := h
      cases fuel with
      | zero => cases hparse
      | succ fuel =>
        have hne : r.bytes ≠ [] := fun h => by
          have := r.bytes_length
          rw [h, List.length_nil] at this
          omega
        obtain ⟨s', data', hsave, hs'⟩ := packSave_begin inStep_new r.holding hne ⟨_, hcut⟩
          (by rw [r.bytes_length]; omega)
        have hfirst : packParse lib (fuel + 1) (newTcpStreamPack 1024) ⟨r.array, r.len⟩ =
            some ⟨s', [], [], none⟩ := by
          rw [packParse]
          simp only [hsave]
        have hstuck : Stuck f r.len s' := by
          have := stuck_of_inStep hs' hne (f := f) (by rw [r.bytes_length]; omega)
          rwa [r.bytes_length] at this
        rw [parseReads] at hparse
        simp only [hfirst, bind, Option.bind_some, Option.bind_eq_some_iff, Option.some.injEq,
          Prod.mk.injEq, List.nil_append] at hparse
        obtain ⟨⟨t, packs'⟩, hnext, rfl, rfl⟩ := hparse
        have hmissed := parseReads_missed hstuck hlost hnext
        simp only at hpacks
        rw [hpacks] at hmissed
        exact hmissed rfl

/-! ## 4. The packets of a stream -/

/-- The packets are the frames, and nothing is left, when the reads are smooth; for a stream of one
frame only then. -/
theorem parseReads_delivers (lib : DecryptLibrary) (frames : List Frame) (reads : List Read)
    (hcut : (reads.map Read.bytes).flatten = stream frames) :
    (Smooth lib frames 0 reads → Delivers lib frames reads) ∧
      (∀ f, frames = [f] → Delivers lib frames reads → Smooth lib frames 0 reads) := by
  refine ⟨delivers_of_smooth hcut, ?_⟩
  rintro f rfl hdelivers
  rw [stream_cons, stream_nil, List.append_nil] at hcut
  exact smooth_of_delivers hcut hdelivers

-- the bytes of a read in an array of `MaxBuff` bytes
def readOf (c : List UInt8) (h : 0 < c.length ∧ c.length ≤ 1024) : Read where
  array := c ++ List.replicate (1024 - c.length) 0
  len := c.length
  maxBuff := by
    rw [List.length_append, List.length_replicate]
    omega
  pos := h.1
  fits := h.2

/-- Payloads without the two ids, which are passed on as they are. -/
def plainJson : DecryptLibrary where
  newJSONObject _ := some []
  getString _ _ := none
  isNull _ _ := false
  getBytes s := s.map UInt16.toUInt8
  newString := units
  decodeBuffer _ := none
  doFinal _ _ := none
  parseObject _ := none
  toJSONString _ _ _ := []

theorem braces_fit : ([0x7B, 0x7D] : List UInt8).length + 15 < 2 ^ 31 := by decide

def braces : Frame := ⟨50, [0x7B, 0x7D], 0xF8, braces_fit⟩

/-- Two frames of seventeen bytes in reads of twenty and of fourteen. -/
theorem parseReads_delivers_two : Delivers plainJson [braces, braces]
    [readOf ((stream [braces, braces]).take 20) (by decide),
      readOf ((stream [braces, braces]).drop 20) (by decide)] := by
  refine (parseReads_delivers plainJson [braces, braces] _ (by decide)).1 ?_
  refine ⟨fun h => absurd h (by decide), fun _ => ⟨rfl, fun h => absurd h (by decide)⟩, ?_⟩
  refine ⟨fun _ => ⟨by decide, ?_⟩, fun h => absurd h (by decide), trivial⟩
  intro f hf
  rw [← Option.some.inj hf]
  decide

/-- One frame in three reads is lost. -/
theorem three_reads_lost : ¬∀ (lib : DecryptLibrary) (frames : List Frame) (reads : List Read),
    (∀ f ∈ frames, f.bytes.length ≤ 1024) → (reads.map Read.bytes).flatten = stream frames →
      Delivers lib frames reads := by
  intro hclaim
  let reads := [readOf (braces.bytes.take 3) (by decide),
    readOf ((braces.bytes.drop 3).take 6) (by decide), readOf (braces.bytes.drop 9) (by decide)]
  have hdelivers := hclaim plainJson [braces] reads (by decide) (by decide)
  have hsmooth : Smooth plainJson [braces] 0 reads := smooth_of_delivers (by decide) hdelivers
  have := (hsmooth.2.2.1 (by decide)).2 braces rfl
  exact absurd this (by decide)

end VerifyServer.Client
