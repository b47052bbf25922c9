import VerifyServer.Client.TcpStreamPack
import VerifyServer.Socket.Reassembly

/-!
# StreamCut — which cuts of the stream `TcpStreamPack` puts together

A read that arrives while a part of a frame is held has to complete that frame, and must not look
like the beginning of a packet itself.  For reads like that the packets taken are the frames.
-/

open VerifyServer.Reasoning VerifyServer.Socket

namespace VerifyServer.Client

/-! ## 1. Arrays -/

/-- A copy replaces the middle part of `dest` by the middle part of `src`. -/
theorem arraycopy_append {src a b c dest x y z : List UInt8} {srcPos destPos length : Int}
    (hsrc : src = a ++ b ++ c) (hi : srcPos = a.length) (hdest : dest = x ++ y ++ z)
    (hj : destPos = x.length) (hn : length = b.length) (hy : y.length = b.length) :
    arraycopy src srcPos dest destPos length = some (x ++ b ++ z) := by
  subst hsrc hi hdest hj hn
  have hmiddle : ((a ++ b ++ c).drop a.length).take b.length = b := by
    rw [List.append_assoc, List.drop_left' rfl, List.take_left' rfl]
  have hfits : x.length + b.length ≤ (x ++ y ++ z).length := by
    simp only [List.length_append]
    omega
  have hbefore : (x ++ y ++ z).take x.length = x := by
    rw [List.append_assoc, List.take_left' rfl]
  have hbehind : (x ++ y ++ z).drop (x.length + b.length) = z :=
    List.drop_left' (by rw [List.length_append, hy])
  rw [arraycopy, if_pos (by simp only [List.length_append]; omega), Int.toNat_natCast,
    Int.toNat_natCast, Int.toNat_natCast, hmiddle, blit_eq_some hfits, hbefore, hbehind]

theorem byteArrayZero_append {bytes y z : List UInt8} {nlen : Int} (hbytes : bytes = y ++ z)
    (hn : nlen = y.length) :
    byteArrayZero bytes nlen = some (List.replicate y.length 0 ++ z) := by
  subst hbytes hn
  have hfits : 0 + (List.replicate y.length (0 : UInt8)).length ≤ (y ++ z).length := by
    rw [List.length_replicate, List.length_append]
    omega
  rw [byteArrayZero, Int.toNat_natCast, blit_eq_some hfits, List.take_zero, List.nil_append,
    List.length_replicate, Nat.zero_add, List.drop_left' rfl]

theorem newByte_eq_some {len : Int} {n : Nat} (hn : len = n) (h : n < 2 ^ 31) :
    newByte len = some (List.replicate n 0) := by
  subst hn
  rw [newByte, if_pos (by omega), Int.toNat_natCast]

-- a list of zeros falls into two
theorem replicate_split {n k : Nat} (h : k ≤ n) :
    List.replicate n (0 : UInt8) = List.replicate k 0 ++ List.replicate (n - k) 0 := by
  rw [List.replicate_append_replicate, Nat.add_sub_cancel' h]

/-- An array that begins with a frame's header names the frame's length. -/
theorem getPackLen_header (f : Frame) (rest : List UInt8) {n : Nat} (h : 10 ≤ n) :
    Client.getPackLen (f.header ++ rest) n = f.bytes.length := by
  have hword : readLeWord (f.header ++ rest) 6 = UInt32.ofNat (f.payload.length + flagLen) := by
    rw [Frame.header, List.append_assoc]
    exact readLeWord_append ([0x53, 0x3A] ++ leBytes f.param) rest _
  have hhead : (f.header ++ rest).getD 0 0 = 0x53 ∧ (f.header ++ rest).getD 1 0 = 0x3A := ⟨rfl, rfl⟩
  rw [Client.getPackLen, if_neg (by omega), if_pos hhead, hword, intOfDword_ofNat f.fits,
    f.bytes_length]

/-! ## 2. What is held -/

/-- The object holds the bytes `h`, with zeros behind them. -/
structure InStep (s : TcpStreamPack) (h : List UInt8) : Prop where
  maxrevbuf : s.nMaxrevbufLen = 2048
  maxRevNoFullPack : s.nMaxRevNoFullPackLen = 2048
  revbuf : s.revbuf.length = 2048
  held : s.revNoFullPack = h ++ List.replicate (2048 - h.length) 0
  len : s.nNoFullPackLen = h.length
  fits : h.length ≤ 1024

theorem inStep_new : InStep (newTcpStreamPack 1024) [] :=
  ⟨rfl, rfl, List.length_replicate, rfl, rfl, Nat.zero_le _⟩

/-- The array of `data` begins with the bytes `c`, and these are its content. -/
structure Holding (data : TcpData) (c : List UInt8) : Prop where
  size : data.data.length = 1024
  len : data.nlen = c.length
  bytes : ∃ stale, data.data = c ++ stale

theorem Holding.fits {data : TcpData} {c : List UInt8} (hd : Holding data c) : c.length ≤ 1024 := by
  obtain ⟨stale, hstale⟩ := hd.bytes
  have := hd.size
  rw [hstale, List.length_append] at this
  omega

/-! ## 3. One call of `_pack_save` -/

/-- A whole frame at the front of an array is copied out, and what follows it is moved to the front
by way of `revbuf`. -/
theorem packSave_front {s : TcpStreamPack} {data : TcpData} {f : Frame} {rest stale : List UInt8}
    (hdata : data.data = f.bytes ++ rest ++ stale) (hnlen : data.nlen = (f.bytes ++ rest).length)
    (hmax : s.nMaxrevbufLen = s.revbuf.length)
    (hfits : (f.bytes ++ rest).length ≤ s.revbuf.length) (hint : f.bytes.length + 1 < 2 ^ 31) :
    packSave s data =
      ⟨{ s with revbuf := f.bytes ++ rest ++
          List.replicate (s.revbuf.length - (f.bytes ++ rest).length) 0 },
        ⟨rest ++ data.data.drop rest.length, rest.length⟩, .ok (some (f.bytes ++ [0]))⟩ := by
  have hlen := f.bytes_length
  have hsize := congrArg List.length hdata
  rw [flagLen] at hlen
  rw [List.length_append] at hnlen
  have hpacket : Client.getPackLen data.data data.nlen = f.bytes.length := by
    have harray : data.data = f.header ++ (f.payload ++ f.trailer ++ rest ++ stale) := by
      simp only [hdata, Frame.bytes, List.append_assoc]
    rw [harray, hnlen]
    exact getPackLen_header f _ (by omega)
  -- the packet and its zero byte are copied out
  have hnew : newByte ((f.bytes.length : Int) + 1) = some (List.replicate (f.bytes.length + 1) 0) :=
    newByte_eq_some (by push_cast; rfl) hint
  have hret : arraycopy data.data 0 (List.replicate (f.bytes.length + 1) 0) 0 f.bytes.length =
      some (f.bytes ++ [0]) :=
    arraycopy_append (a := []) (b := f.bytes) (c := rest ++ stale) (x := [])
      (y := List.replicate f.bytes.length 0) (z := [0])
      (by rw [hdata, List.nil_append, List.append_assoc]) rfl
      (by rw [List.replicate_succ', List.nil_append]) rfl rfl List.length_replicate
  have hzero : byteArrayZero s.revbuf s.nMaxrevbufLen =
      some (List.replicate s.revbuf.length 0) := by
    rw [byteArrayZero_append (List.append_nil _).symm hmax, List.append_nil]
  have hrevbuf : arraycopy data.data 0 (List.replicate s.revbuf.length 0) 0 data.nlen =
      some (f.bytes ++ rest ++
        List.replicate (s.revbuf.length - (f.bytes ++ rest).length) 0) :=
    arraycopy_append (a := []) (b := f.bytes ++ rest) (c := stale) (x := [])
      (by rw [hdata, List.nil_append]) rfl
      (by rw [List.nil_append]; exact replicate_split hfits) rfl
      (by rw [hnlen, List.length_append]) List.length_replicate
  have hmove : arraycopy (f.bytes ++ rest ++
      List.replicate (s.revbuf.length - (f.bytes ++ rest).length) 0)
      f.bytes.length data.data 0 rest.length = some (rest ++ data.data.drop rest.length) :=
    arraycopy_append (b := rest) (x := []) (y := data.data.take rest.length) rfl rfl
      (by rw [List.nil_append, List.take_append_drop]) rfl rfl
      (by rw [List.length_take, hsize, List.length_append, List.length_append]; omega)
  have hleft : data.nlen - f.bytes.length = rest.length := by omega
  rw [packSave, if_neg (by omega)]
  simp only [hpacket]
  rw [if_pos (by unfold noPacket; omega), if_neg (by omega), takePack, hnew]
  simp only [hret]
  simp only [copySelf, hzero, hrevbuf, hmove, bind, Option.bind_some, hleft]

/-- A whole frame at the front of the array is taken. -/
theorem packSave_whole {s : TcpStreamPack} {data : TcpData} {f : Frame} {rest : List UInt8}
    (hs : InStep s []) (hd : Holding data (f.bytes ++ rest)) :
    ∃ s' data', packSave s data = ⟨s', data', .ok (some (f.bytes ++ [0]))⟩ ∧ InStep s' [] ∧
      Holding data' rest := by
  obtain ⟨stale, hstale⟩ := hd.bytes
  have hsize := hd.size
  have hfits := hd.fits
  have hrevbuf := hs.revbuf
  have hlen : (f.bytes ++ rest).length = f.bytes.length + rest.length := List.length_append
  have hmax : s.nMaxrevbufLen = s.revbuf.length := by rw [hs.maxrevbuf, hs.revbuf]; rfl
  refine ⟨_, _, packSave_front hstale hd.len hmax (by omega) (by omega), ?_, ?_, rfl, _, rfl⟩
  · refine ⟨hs.maxrevbuf, hs.maxRevNoFullPack, ?_, hs.held, hs.len, hs.fits⟩
    rw [List.length_append, List.length_replicate]
    omega
  · simp only [List.length_append, List.length_drop]
    omega

/-- Nothing else held, the array's content is kept. -/
theorem keepRest_inStep {s : TcpStreamPack} {data : TcpData} {c : List UInt8} (hs : InStep s [])
    (hd : Holding data c) :
    ∃ s' data', keepRest s data = ⟨s', data', .ok none⟩ ∧ InStep s' c := by
  obtain ⟨stale, hstale⟩ := hd.bytes
  have hfits := hd.fits
  have hempty : s.revNoFullPack = List.replicate 2048 0 := hs.held
  have hcopy : arraycopy data.data 0 s.revNoFullPack s.nNoFullPackLen data.nlen =
      some (c ++ List.replicate (2048 - c.length) 0) :=
    arraycopy_append (a := []) (b := c) (c := stale) (x := []) (by rw [hstale, List.nil_append]) rfl
      (by rw [hempty, List.nil_append]; exact replicate_split (by omega)) hs.len hd.len
      List.length_replicate
  have hzero : byteArrayZero data.data data.nlen = some (List.replicate c.length 0 ++ stale) :=
    byteArrayZero_append hstale hd.len
  refine ⟨{ s with
    revNoFullPack := c ++ List.replicate (2048 - c.length) 0
    nNoFullPackLen := s.nNoFullPackLen + data.nlen },
    ⟨List.replicate c.length 0 ++ stale, 0⟩, ?_, ?_⟩
  · simp only [keepRest, hcopy, hzero]
  · have hlen : s.nNoFullPackLen + data.nlen = c.length := by
      rw [hs.len, hd.len, List.length_nil, Nat.cast_zero, Int.zero_add]
    exact ⟨hs.maxrevbuf, hs.maxRevNoFullPack, hs.revbuf, rfl, hlen, hfits⟩

/-- The beginning of a frame, met with nothing held, is held. -/
theorem packSave_begin {s : TcpStreamPack} {data : TcpData} {f : Frame} {c : List UInt8}
    (hs : InStep s []) (hd : Holding data c) (hne : c ≠ []) (hpre : c <+: f.bytes)
    (hshort : c.length < f.bytes.length) :
    ∃ s' data', packSave s data = ⟨s', data', .ok none⟩ ∧ InStep s' c := by
  have hpos := List.length_pos_iff.mpr hne
  have hnlen := hd.len
  have hheld : s.nNoFullPackLen = 0 := hs.len
  obtain ⟨stale, hstale⟩ := hd.bytes
  obtain ⟨s', data', hkeep, hs'⟩ := keepRest_inStep hs hd
  refine ⟨s', data', ?_, hs'⟩
  rw [packSave, if_neg (by omega)]
  by_cases hten : c.length < 10
  · -- too short to name a length
    have hpacket : Client.getPackLen data.data data.nlen = noPacket := by
      rw [Client.getPackLen, if_pos (by omega)]
    simp only [hpacket]
    rw [if_neg (by simp), if_neg (by omega), if_pos (by omega), hkeep]
  · have hpacket : Client.getPackLen data.data data.nlen = f.bytes.length := by
      obtain ⟨more, hmore⟩ := hpre
      have hheader : f.header <+: c :=
        List.prefix_of_prefix_length_le (List.prefix_append _ (f.payload ++ f.trailer))
          ⟨more, hmore⟩ (by rw [f.header_length]; omega)
      obtain ⟨tail, rfl⟩ := hheader
      rw [hstale, List.append_assoc, hnlen]
      exact getPackLen_header f _ (by omega)
    simp only [hpacket]
    rw [if_pos (by unfold noPacket; omega), if_pos (by omega), if_pos (by omega), hkeep]

/-- A read that continues the frame held and reaches its end completes it. -/
theorem packSave_join {s : TcpStreamPack} {data : TcpData} {f : Frame} {h c rest : List UInt8}
    (hs : InStep s h) (hd : Holding data c) (hne : h ≠ [])
    (hplain : Client.getPackLen data.data data.nlen = noPacket)
    (heq : h ++ c = f.bytes ++ rest) (hshort : h.length < f.bytes.length) :
    ∃ s' data', packSave s data = ⟨s', data', .ok (some (f.bytes ++ [0]))⟩ ∧ InStep s' [] ∧
      Holding data' rest := by
  obtain ⟨stale, hstale⟩ := hd.bytes
  have hpos := List.length_pos_iff.mpr hne
  have hsize := hd.size
  have hfits := hd.fits
  have hheldfits := hs.fits
  have hnlen := hd.len
  have hheld := hs.len
  have hlen := f.bytes_length
  rw [flagLen] at hlen
  have hsum : h.length + c.length = f.bytes.length + rest.length := by
    rw [← List.length_append, heq, List.length_append]
  -- the held bytes with the chunk behind them, in which the header names the whole frame
  let joined := h ++ c ++ List.replicate (2048 - h.length - c.length) 0
  have hjoin : arraycopy data.data 0 s.revNoFullPack s.nNoFullPackLen data.nlen = some joined :=
    arraycopy_append (a := []) (b := c) (c := stale) (x := h) (y := List.replicate c.length 0)
      (by rw [hstale, List.nil_append]) rfl
      (by rw [hs.held, replicate_split (k := c.length) (by omega), List.append_assoc]) hheld hnlen
      List.length_replicate
  have hjoined : joined =
      f.bytes ++ rest ++ List.replicate (2048 - h.length - c.length) 0 := by
    simp only [joined, heq]
  have hpacket : Client.getPackLen joined (data.nlen + s.nNoFullPackLen) = f.bytes.length := by
    have harray : joined = f.header ++ (f.payload ++ f.trailer ++ rest ++
        List.replicate (2048 - h.length - c.length) 0) := by
      simp only [hjoined, Frame.bytes, List.append_assoc]
    have htotal : data.nlen + s.nNoFullPackLen = (c.length + h.length : Nat) := by
      rw [hnlen, hheld, Nat.cast_add]
    rw [harray, htotal]
    exact getPackLen_header f _ (by omega)
  -- the frame is copied out, and what is behind it moves to the front of the chunk
  have hnew : newByte ((f.bytes.length : Int) + 1) = some (List.replicate (f.bytes.length + 1) 0) :=
    newByte_eq_some (by push_cast; rfl) (by omega)
  have hret : arraycopy joined 0 (List.replicate (f.bytes.length + 1) 0) 0 f.bytes.length =
      some (f.bytes ++ [0]) :=
    arraycopy_append (a := []) (b := f.bytes)
      (c := rest ++ List.replicate (2048 - h.length - c.length) 0) (x := [])
      (y := List.replicate f.bytes.length 0) (z := [0])
      (by rw [hjoined, List.nil_append, List.append_assoc]) rfl
      (by rw [List.replicate_succ', List.nil_append]) rfl rfl List.length_replicate
  have hzero : byteArrayZero data.data data.nlen = some (List.replicate c.length 0 ++ stale) :=
    byteArrayZero_append hstale hnlen
  have hmove : arraycopy joined f.bytes.length (List.replicate c.length 0 ++ stale) 0
      (data.nlen + s.nNoFullPackLen - f.bytes.length) =
        some (rest ++ (List.replicate (c.length - rest.length) 0 ++ stale)) :=
    arraycopy_append (b := rest) (x := []) (y := List.replicate rest.length 0) hjoined rfl
      (by rw [List.nil_append, ← List.append_assoc, ← replicate_split (by omega)]) rfl (by omega)
      List.length_replicate
  have hjoinedlen : joined.length = 2048 := by
    simp only [joined, List.length_append, List.length_replicate]
    omega
  have hclear : byteArrayZero joined s.nMaxRevNoFullPackLen = some (List.replicate 2048 0) := by
    rw [byteArrayZero_append (List.append_nil _).symm (by rw [hs.maxRevNoFullPack, hjoinedlen]; rfl),
      hjoinedlen, List.append_nil]
  refine ⟨{ s with revNoFullPack := List.replicate 2048 0, nNoFullPackLen := 0 },
    ⟨rest ++ (List.replicate (c.length - rest.length) 0 ++ stale),
      data.nlen + s.nNoFullPackLen - f.bytes.length⟩, ?_, ?_, ?_, ?_, ?_⟩
  · rw [packSave, if_neg (by omega)]
    simp only [hplain]
    rw [if_neg (by simp), if_pos (by omega), joinPack, hjoin]
    simp only [hpacket]
    rw [if_neg (by unfold noPacket; omega), hnew]
    simp only [hret, hzero, hmove, hclear]
  · exact ⟨hs.maxrevbuf, hs.maxRevNoFullPack, hs.revbuf, rfl, rfl, Nat.zero_le _⟩
  · rw [hstale, List.length_append] at hsize
    simp only [List.length_append, List.length_replicate]
    omega
  · simp only
    omega
  · exact ⟨_, rfl⟩

/-! ## 4. One call of `pack_parse` -/

-- the frames not yet complete after `n` bytes, and how many bytes of the first of them are in
def advance : List Frame → Nat → List Frame × Nat
  | [], _ => ([], 0)
  | f :: fs, n => if n < f.bytes.length then (f :: fs, n) else advance fs (n - f.bytes.length)

-- the frames complete after `n` bytes
def completed : List Frame → Nat → List Frame
  | [], _ => []
  | f :: fs, n => if n < f.bytes.length then [] else f :: completed fs (n - f.bytes.length)

theorem completed_append_advance (fs : List Frame) (n : Nat) :
    completed fs n ++ (advance fs n).1 = fs := by
  induction fs generalizing n with
  | nil => rfl
  | cons f fs ih =>
    rw [completed, advance]
    by_cases h : n < f.bytes.length
    · rw [if_pos h, if_pos h, List.nil_append]
    · rw [if_neg h, if_neg h, List.cons_append, ih]

/-- Fewer bytes are in than the first frame has. -/
def Within (fs : List Frame) (p : Nat) : Prop :=
  match fs with
  | [] => p = 0
  | f :: _ => p < f.bytes.length

theorem within_zero (fs : List Frame) : Within fs 0 := by
  cases fs with
  | nil => rfl
  | cons f fs => exact f.bytes_pos

theorem within_advance (fs : List Frame) (n : Nat) :
    Within (advance fs n).1 (advance fs n).2 := by
  induction fs generalizing n with
  | nil => rfl
  | cons f fs ih =>
    rw [advance]
    by_cases h : n < f.bytes.length
    · rw [if_pos h]
      exact h
    · rw [if_neg h]
      exact ih _

theorem advance_of_within {fs : List Frame} {p : Nat} (h : Within fs p) : advance fs p = (fs, p) := by
  cases fs with
  | nil => rw [advance, show p = 0 from h]
  | cons f fs => exact if_pos h

/-- The packet `_pack_save` returns for a frame: one zero byte longer. -/
def packet (f : Frame) : List UInt8 := f.bytes ++ [0]

theorem parsePack_packet (lib : DecryptLibrary) (f : Frame) :
    parsePack lib (packet f) = (parsePayload lib f.payload).map fun out => [out] := by
  have hlen := f.bytes_length
  have hfits := f.fits
  rw [flagLen] at hlen hfits
  have hpacket : Client.getPackLen (packet f) (packet f).length = f.bytes.length := by
    have harray : packet f = f.header ++ (f.payload ++ f.trailer ++ [0]) := by
      simp only [packet, Frame.bytes, List.append_assoc]
    rw [harray]
    exact getPackLen_header f _ (by rw [List.length_append, f.header_length]; omega)
  have hnew : newByte ((f.bytes.length : Int) - 15) = some (List.replicate f.payload.length 0) :=
    newByte_eq_some (by omega) (by omega)
  have hcopy : arraycopy (packet f) 10 (List.replicate f.payload.length 0) 0
      ((f.bytes.length : Int) - 15) = some f.payload :=
    (arraycopy_append (a := f.header) (b := f.payload) (c := f.trailer ++ [0]) (x := []) (z := [])
      (by simp only [packet, Frame.bytes, List.append_assoc]) rfl
      (by rw [List.nil_append, List.append_nil]) rfl (by omega) List.length_replicate).trans
      (by rw [List.nil_append, List.append_nil])
  rw [parsePack]
  simp only [hpacket]
  rw [if_neg (by unfold noPacket; omega), hnew]
  simp only [hcopy]

/-- Every frame complete after `n` bytes, with bytes left behind it, has a payload that the body of
the loop does not throw on. -/
def Accepted (lib : DecryptLibrary) : List Frame → Nat → Prop
  | [], _ => True
  | f :: fs, n =>
    f.bytes.length < n →
      (parsePayload lib f.payload).isOk = true ∧ Accepted lib fs (n - f.bytes.length)

theorem accepted_zero (lib : DecryptLibrary) (fs : List Frame) : Accepted lib fs 0 := by
  cases fs with
  | nil => trivial
  | cons f fs => exact fun h => absurd h (Nat.not_lt_zero _)

/-- The call took the frames complete after `n` bytes, and holds what is in of the next. -/
structure Took (fs : List Frame) (n : Nat) (later : List UInt8) (r : PackParse) : Prop where
  packs : r.packs = (completed fs n).map packet
  held : ∃ h, InStep r.pack h ∧ h.length = (advance fs n).2 ∧
    h ++ later = stream (advance fs n).1

/-- A packet in front of what a call with nothing held does. -/
theorem packParse_packet {lib : DecryptLibrary} {fuel : Nat} {s s' : TcpStreamPack}
    {data data' : TcpData} {f : Frame} {fs : List Frame} {rest later : List UInt8} {n : Nat}
    (hsave : packSave s data = ⟨s', data', .ok (some (packet f))⟩) (hs' : InStep s' [])
    (hn : n = f.bytes.length + rest.length) (hlater : rest ++ later = stream fs)
    (hacc : rest ≠ [] → (parsePayload lib f.payload).isOk = true)
    (hnext : ∃ r, packParse lib fuel s' data' = some r ∧ Took fs rest.length later r) :
    ∃ r, packParse lib (fuel + 1) s data = some r ∧ Took (f :: fs) n later r := by
  have hshort : ¬n < f.bytes.length := by omega
  have hsub : n - f.bytes.length = rest.length := by omega
  have hcompleted : completed (f :: fs) n = f :: completed fs rest.length := by
    rw [completed, if_neg hshort, hsub]
  have hadvance : advance (f :: fs) n = advance fs rest.length := by
    rw [advance, if_neg hshort, hsub]
  rw [packParse]
  simp only [hsave, parsePack_packet]
  cases hparse : parsePayload lib f.payload with
  | error e =>
    -- the exception ends the call, which loses nothing when nothing is left
    by_cases hrest : rest = []
    · subst hrest
      refine ⟨⟨s', [packet f], [], some e⟩, rfl, ?_, [], hs', ?_, ?_⟩
      · rw [hcompleted]
        cases fs with
        | nil => rfl
        | cons g gs => rw [completed, List.length_nil, if_pos g.bytes_pos, List.map_cons, List.map_nil]
      · rw [hadvance, List.length_nil, advance_of_within (within_zero fs)]
      · rw [hadvance, List.length_nil, advance_of_within (within_zero fs), hlater]
    · have := hacc hrest
      rw [hparse] at this
      cases this
  | ok out =>
    obtain ⟨r, hr, hpacks, h, hh, hlen, heq⟩ := hnext
    refine ⟨{ r with packs := packet f :: r.packs, pack_list := [out] ++ r.pack_list }, ?_, ?_, h,
      hh, ?_, ?_⟩
    · simp only [Except.map, hr, Option.map_some]
    · rw [hcompleted, List.map_cons, ← hpacks]
    · rw [hadvance, hlen]
    · rw [hadvance, heq]

/-- A call with nothing held takes the frames that are complete in the array. -/
theorem packParse_whole {lib : DecryptLibrary} {fs : List Frame} {later : List UInt8} {fuel : Nat}
    (hfuel : fs.length < fuel) {s : TcpStreamPack} {data : TcpData} {c : List UInt8}
    (hs : InStep s []) (hd : Holding data c) (hlater : c ++ later = stream fs)
    (hacc : Accepted lib fs c.length) :
    ∃ r, packParse lib fuel s data = some r ∧ Took fs c.length later r := by
  induction fs generalizing fuel s data c with
  | nil =>
    obtain ⟨rfl, rfl⟩ := List.append_eq_nil_iff.mp hlater
    obtain ⟨fuel, rfl⟩ := Nat.exists_eq_succ_of_ne_zero (Nat.ne_of_gt hfuel)
    have hnone : packSave s data = ⟨s, data, .ok none⟩ := if_pos (Int.le_of_eq hd.len)
    rw [packParse]
    simp only [hnone]
    exact ⟨⟨s, [], [], none⟩, rfl, rfl, [], hs, rfl, rfl⟩
  | cons f fs ih =>
    obtain ⟨fuel, rfl⟩ := Nat.exists_eq_succ_of_ne_zero (Nat.ne_of_gt (Nat.zero_lt_of_lt hfuel))
    rw [List.length_cons] at hfuel
    by_cases hshort : c.length < f.bytes.length
    · have hcompleted : completed (f :: fs) c.length = [] := if_pos hshort
      have hadvance : advance (f :: fs) c.length = (f :: fs, c.length) := if_pos hshort
      have htook {s' : TcpStreamPack} (hs' : InStep s' c) :
          Took (f :: fs) c.length later ⟨s', [], [], none⟩ := by
        refine ⟨?_, c, hs', ?_, ?_⟩
        · rw [hcompleted, List.map_nil]
        · rw [hadvance]
        · rw [hadvance, hlater]
      by_cases hne : c = []
      · subst hne
        have hnone : packSave s data = ⟨s, data, .ok none⟩ := if_pos (Int.le_of_eq hd.len)
        rw [packParse]
        simp only [hnone]
        exact ⟨_, rfl, htook hs⟩
      · have hpre : c <+: f.bytes :=
          List.prefix_of_prefix_length_le ⟨later, hlater⟩ (List.prefix_append _ (stream fs))
            (Nat.le_of_lt hshort)
        obtain ⟨s', data', hsave, hs'⟩ := packSave_begin hs hd hne hpre hshort
        rw [packParse]
        simp only [hsave]
        exact ⟨_, rfl, htook hs'⟩
    · have hpre : f.bytes <+: c :=
        List.prefix_of_prefix_length_le (List.prefix_append _ (stream fs)) ⟨later, hlater⟩ (by omega)
      obtain ⟨rest, rfl⟩ := hpre
      rw [stream_cons, List.append_assoc, List.append_cancel_left_eq] at hlater
      rw [List.length_append] at hacc
      obtain ⟨s', data', hsave, hs', hd'⟩ := packSave_whole hs hd
      have hleft : rest ≠ [] → f.bytes.length < f.bytes.length + rest.length := fun h => by
        have := List.length_pos_iff.mpr h
        omega
      have hacc' : Accepted lib fs rest.length := by
        by_cases hrest : rest = []
        · subst hrest
          exact accepted_zero lib fs
        · have := (hacc (hleft hrest)).2
          rwa [Nat.add_sub_cancel_left] at this
      exact packParse_packet hsave hs' List.length_append hlater (fun h => (hacc (hleft h)).1)
        (ih (by omega) hs' hd' hlater hacc')

end VerifyServer.Client
