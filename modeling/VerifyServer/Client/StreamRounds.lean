import VerifyServer.Client.StreamReads
import VerifyServer.Reasoning.Run

/-!
# StreamRounds — the rounds of the loop in `pack_parse`

A round is one call of `_pack_save` and what the loop does with the packet.  The length of a packet
is what its header says; the rounds are followed for whatever a peer writes there.
-/

open VerifyServer.Reasoning VerifyServer.Socket

namespace VerifyServer.Client

/-! ## 1. Rounds -/

/-- A `TcpStreamPack` between two calls of `pack_parse`, or in one with the data that are left. -/
structure Parsing where
  pack : TcpStreamPack
  data : Option TcpData

inductive ParseStep where
  | read (array : List UInt8) (len : Nat)
  | round

/-- The data of the next round, when there is one. -/
def nextData (lib : DecryptLibrary) (r : PackSave) : Option TcpData :=
  match r.ret with
  | .ok (some pack_buf) =>
    match parsePack lib pack_buf with
    | .ok _ => some r.data
    | .error _ => none
  | _ => none

def stepParse (lib : DecryptLibrary) (s : Parsing) : ParseStep → Option Parsing
  | .read array len =>
    if s.data.isNone ∧ len ≤ array.length ∧ array.length ≤ 1024 then
      some ⟨s.pack, some ⟨array, len⟩⟩
    else none
  | .round => s.data.map fun data =>
    ⟨(packSave s.pack data).pack, nextData lib (packSave s.pack data)⟩

/-- The array of `data` fits the receive buffer, and its content is a part of it. -/
structure Content (data : TcpData) : Prop where
  size : data.data.length ≤ 1024
  pos : 0 ≤ data.nlen
  len : data.nlen ≤ data.data.length

/-- What every `TcpStreamPack(1024)` is, whatever it holds. -/
structure Sized (s : TcpStreamPack) : Prop where
  maxrevbuf : s.nMaxrevbufLen = 2048
  maxRevNoFullPack : s.nMaxRevNoFullPackLen = 2048
  revbuf : s.revbuf.length = 2048
  revNoFullPack : s.revNoFullPack.length = 2048

theorem sized_new : Sized (newTcpStreamPack 1024) :=
  ⟨rfl, rfl, List.length_replicate, List.length_replicate⟩

/-! ## 2. Arrays -/

theorem arraycopy_fits {src dest out : List UInt8} {srcPos destPos length : Int}
    (h : arraycopy src srcPos dest destPos length = some out) :
    0 ≤ srcPos ∧ 0 ≤ destPos ∧ 0 ≤ length ∧ srcPos + length ≤ src.length ∧
      destPos + length ≤ dest.length ∧ out.length = dest.length := by
  unfold arraycopy at h
  split at h
  · next hin =>
    have hfits := blit_fits h
    rw [List.length_take, List.length_drop] at hfits
    exact ⟨hin.1, hin.2.1, hin.2.2.1, hin.2.2.2, by omega, blit_length h⟩
  · cases h

theorem arraycopy_eq_some {src dest : List UInt8} {srcPos destPos length : Int}
    (hsrcPos : 0 ≤ srcPos) (hdestPos : 0 ≤ destPos) (hlength : 0 ≤ length)
    (hsrc : srcPos + length ≤ src.length) (hdest : destPos + length ≤ dest.length) :
    ∃ out, arraycopy src srcPos dest destPos length = some out ∧ out.length = dest.length := by
  have hfits : destPos.toNat + ((src.drop srcPos.toNat).take length.toNat).length ≤
      dest.length := by
    rw [List.length_take, List.length_drop]
    omega
  have hcopy : arraycopy src srcPos dest destPos length = some _ :=
    (if_pos ⟨hsrcPos, hdestPos, hlength, hsrc⟩).trans (blit_eq_some hfits)
  exact ⟨_, hcopy, (arraycopy_fits hcopy).2.2.2.2.2⟩

theorem arraycopy_none {src dest : List UInt8} {srcPos destPos length : Int}
    (h : length < 0 ∨ src.length < srcPos + length ∨ dest.length < destPos + length) :
    arraycopy src srcPos dest destPos length = none := by
  cases hcopy : arraycopy src srcPos dest destPos length with
  | none => rfl
  | some out =>
    have hfits := arraycopy_fits hcopy
    omega

/-- The first `n` bytes in a new array with a zero behind them. -/
theorem arraycopy_new {src : List UInt8} {n : Int} (hn : 0 ≤ n) (hsrc : n ≤ src.length) :
    arraycopy src 0 (List.replicate (n + 1).toNat 0) 0 n = some (src.take n.toNat ++ [0]) := by
  have hlen : (src.take n.toNat).length = n.toNat := List.length_take_of_le (by omega)
  have hzeros : List.replicate (n + 1).toNat (0 : UInt8) =
      [] ++ List.replicate n.toNat 0 ++ [0] := by
    rw [show (n + 1).toNat = n.toNat + 1 by omega, List.replicate_succ', List.nil_append]
  rw [hzeros]
  exact arraycopy_append (a := []) (c := src.drop n.toNat) (x := [])
    (by rw [List.nil_append, List.take_append_drop]) rfl rfl rfl (by omega)
    (by rw [List.length_replicate, hlen])

theorem byteArrayZero_eq_some {bytes : List UInt8} {n : Int} (hn : 0 ≤ n) (h : n ≤ bytes.length) :
    ∃ out, byteArrayZero bytes n = some out ∧ out.length = bytes.length := by
  have hfits : 0 + (List.replicate n.toNat (0 : UInt8)).length ≤ bytes.length := by
    rw [List.length_replicate]
    omega
  exact ⟨_, blit_eq_some hfits, blit_length (blit_eq_some hfits)⟩

theorem newByte_none {n : Int} (h : n < 0 ∨ 2 ^ 31 ≤ n) : newByte n = none :=
  if_neg (by omega)

theorem newByte_some {n : Int} (h : 0 ≤ n) (hlt : n < 2 ^ 31) :
    newByte n = some (List.replicate n.toNat 0) := if_pos ⟨h, hlt⟩

/-! ## 3. `_pack_save` for every length in the header -/

theorem takePack_eq {s : TcpStreamPack} (hs : Sized s) {data : TcpData} (hd : Content data)
    {n : Int} (hn : 0 ≤ n) (hle : n ≤ data.nlen) :
    ∃ revbuf in_buf, takePack s data n =
        ⟨{ s with revbuf := revbuf }, ⟨in_buf, data.nlen - n⟩,
          .ok (some (data.data.take n.toNat ++ [0]))⟩ ∧
      revbuf.length = 2048 ∧ in_buf.length = data.data.length := by
  have hlen := hd.len
  have hsize := hd.size
  have hrev := hs.revbuf
  have hmax := hs.maxrevbuf
  have hnew : newByte (n + 1) = some (List.replicate (n + 1).toNat 0) :=
    newByte_some (by omega) (by omega)
  have ⟨zeroed, hzeroed, hzlen⟩ : ∃ out, byteArrayZero s.revbuf s.nMaxrevbufLen = some out ∧
      out.length = s.revbuf.length := byteArrayZero_eq_some (by omega) (by omega)
  have ⟨revbuf, hrevbuf, hrlen⟩ : ∃ out, arraycopy data.data 0 zeroed 0 data.nlen = some out ∧
      out.length = zeroed.length :=
    arraycopy_eq_some (by omega) (by omega) hd.pos (by omega) (by omega)
  have ⟨in_buf, hin, hinlen⟩ : ∃ out, arraycopy revbuf n data.data 0 (data.nlen - n) = some out ∧
      out.length = data.data.length :=
    arraycopy_eq_some hn (by omega) (by omega) (by omega) (by omega)
  refine ⟨revbuf, in_buf, ?_, by omega, hinlen⟩
  rw [takePack, hnew]
  dsimp only
  rw [arraycopy_new hn (by omega)]
  dsimp only
  rw [copySelf, hzeroed, Option.bind_eq_bind, Option.bind_some, hrevbuf, Option.bind_some, hin]
  rfl

theorem takePack_negative {s : TcpStreamPack} {data : TcpData} {n : Int} (hn : n + 1 < 0) :
    takePack s data n = ⟨s, data, .error .negativeArraySize⟩ := by
  rw [takePack, newByte_none (.inl hn)]

section Join

variable {s : TcpStreamPack} {data : TcpData} {j : List UInt8} {n : Int}

/-- What `revNoFullPack` is when the data are put behind the bytes it holds. -/
def joined (s : TcpStreamPack) (data : TcpData) : Option (List UInt8) :=
  arraycopy data.data 0 s.revNoFullPack s.nNoFullPackLen data.nlen

theorem joinPack_full (hj : joined s data = none) : joinPack s data = ⟨s, data, .ok none⟩ := by
  rw [joinPack, show arraycopy .. = none from hj]

theorem joinPack_noPacket (hj : joined s data = some j)
    (hn : Client.getPackLen j (data.nlen + s.nNoFullPackLen) = noPacket) :
    joinPack s data = ⟨{ s with revNoFullPack := j }, data, .ok none⟩ := by
  rw [joinPack, show arraycopy .. = some j from hj]
  dsimp only
  rw [if_pos hn]

theorem joinPack_negative (hj : joined s data = some j)
    (hn : Client.getPackLen j (data.nlen + s.nNoFullPackLen) = n) (hne : n ≠ noPacket)
    (hout : n + 1 < 0 ∨ 2 ^ 31 ≤ n + 1) :
    joinPack s data = ⟨{ s with revNoFullPack := j }, data, .error .negativeArraySize⟩ := by
  rw [joinPack, show arraycopy .. = some j from hj]
  dsimp only
  rw [hn, if_neg hne, newByte_none hout]

/-- The packet is complete, and what follows it fits the array. -/
theorem joinPack_whole (hs : Sized s) (hd : Content data) (hj : joined s data = some j)
    (hn : Client.getPackLen j (data.nlen + s.nNoFullPackLen) = n) (hpos : 0 ≤ n)
    (hle : n ≤ data.nlen + s.nNoFullPackLen)
    (hrest : data.nlen + s.nNoFullPackLen - n ≤ data.data.length) :
    ∃ in_buf cleared, joinPack s data =
        ⟨{ s with revNoFullPack := cleared, nNoFullPackLen := 0 },
          ⟨in_buf, data.nlen + s.nNoFullPackLen - n⟩, .ok (some (j.take n.toNat ++ [0]))⟩ ∧
      cleared.length = 2048 ∧ in_buf.length = data.data.length := by
  have ⟨_, _, _, _, hfits, hjlen⟩ := arraycopy_fits hj
  have hsize := hs.revNoFullPack
  have hmax := hs.maxRevNoFullPack
  have hnew : newByte (n + 1) = some (List.replicate (n + 1).toNat 0) :=
    newByte_some (by omega) (by omega)
  have ⟨zeroed, hzeroed, hzlen⟩ : ∃ out, byteArrayZero data.data data.nlen = some out ∧
      out.length = data.data.length := byteArrayZero_eq_some hd.pos hd.len
  have ⟨in_buf, hin, hinlen⟩ : ∃ out, arraycopy j n zeroed 0 (data.nlen + s.nNoFullPackLen - n) =
      some out ∧ out.length = zeroed.length :=
    arraycopy_eq_some hpos (by omega) (by omega) (by omega) (by omega)
  have ⟨cleared, hcleared, hclen⟩ : ∃ out, byteArrayZero j s.nMaxRevNoFullPackLen = some out ∧
      out.length = j.length := byteArrayZero_eq_some (by omega) (by omega)
  refine ⟨in_buf, cleared, ?_, by omega, by omega⟩
  rw [joinPack, show arraycopy .. = some j from hj]
  dsimp only
  rw [hn, if_neg (by unfold noPacket; omega), hnew]
  dsimp only
  rw [arraycopy_new hpos (by omega)]
  dsimp only
  rw [hzeroed]
  dsimp only
  rw [hin]
  dsimp only
  rw [hcleared]

/-- The packet is not complete, or too much follows it: a copy fails inside the `try`, and the bytes
held are not given up. -/
theorem joinPack_failed (hs : Sized s) (hd : Content data) (hj : joined s data = some j)
    (hn : Client.getPackLen j (data.nlen + s.nNoFullPackLen) = n) (hpos : 0 ≤ n)
    (hint : n + 1 < 2 ^ 31)
    (hbad : data.nlen + s.nNoFullPackLen < n ∨
      data.data.length < data.nlen + s.nNoFullPackLen - n) :
    ∃ in_buf, joinPack s data = ⟨{ s with revNoFullPack := j }, ⟨in_buf, data.nlen⟩,
        .ok (some (if n ≤ 2048 then j.take n.toNat ++ [0] else List.replicate (n + 1).toNat 0))⟩ ∧
      in_buf.length = data.data.length := by
  have ⟨_, _, _, _, hfits, hjlen⟩ := arraycopy_fits hj
  have hsize := hs.revNoFullPack
  have hnew : newByte (n + 1) = some (List.replicate (n + 1).toNat 0) :=
    newByte_some (by omega) hint
  unfold joinPack
  rw [show arraycopy .. = some j from hj]
  dsimp only
  rw [hn, if_neg (by unfold noPacket; omega), hnew]
  dsimp only
  by_cases hcopy : n ≤ 2048
  · have ⟨zeroed, hzeroed, hzlen⟩ : ∃ out, byteArrayZero data.data data.nlen = some out ∧
        out.length = data.data.length := byteArrayZero_eq_some hd.pos hd.len
    have hfail : arraycopy j n zeroed 0 (data.nlen + s.nNoFullPackLen - n) = none :=
      arraycopy_none (by omega)
    rw [arraycopy_new hpos (by omega), if_pos hcopy]
    dsimp only
    rw [hzeroed]
    dsimp only
    rw [hfail]
    exact ⟨zeroed, rfl, hzlen⟩
  · have hfail : arraycopy j 0 (List.replicate (n + 1).toNat 0) 0 n = none :=
      arraycopy_none (by omega)
    rw [hfail, if_neg hcopy]
    exact ⟨data.data, rfl, rfl⟩

end Join

/-! ## 4. What a call can do -/

/-- The length the data name at their front. -/
def headLen (data : TcpData) : Int := Client.getPackLen data.data data.nlen

/-- The length that `revNoFullPack` names when the data are behind the bytes it holds. -/
def joinedLen (s : TcpStreamPack) (data : TcpData) (j : List UInt8) : Int :=
  Client.getPackLen j (data.nlen + s.nNoFullPackLen)

/-- The data begin with a header, and `_pack_save` takes a packet of the length it names. -/
def Heads (data : TcpData) : Prop :=
  10 < data.nlen ∧ headLen data ≠ noPacket ∧ headLen data ≤ data.nlen

/-- The data have no header and are put behind bytes held, which then have one. -/
def Joins (s : TcpStreamPack) (data : TcpData) (j : List UInt8) : Prop :=
  0 < data.nlen ∧ headLen data = noPacket ∧ 0 < s.nNoFullPackLen ∧ joined s data = some j ∧
    joinedLen s data j ≠ noPacket

/-- The packet a failed join returns: its bytes as far as there are any, or zeros. -/
def failedPack (j : List UInt8) (n : Int) : List UInt8 :=
  if n ≤ 2048 then j.take n.toNat ++ [0] else List.replicate (n + 1).toNat 0

inductive Outcome (s : TcpStreamPack) (data : TcpData) : PackSave → Prop where
  | took {revbuf in_buf : List UInt8} (hheads : Heads data) (hn : 0 ≤ headLen data)
      (hrevbuf : revbuf.length = 2048) (hin : in_buf.length = data.data.length) :
      Outcome s data ⟨{ s with revbuf := revbuf }, ⟨in_buf, data.nlen - headLen data⟩,
        .ok (some (data.data.take (headLen data).toNat ++ [0]))⟩
  | whole {j in_buf cleared : List UInt8} (hjoins : Joins s data j) (hn : 0 ≤ joinedLen s data j)
      (hle : joinedLen s data j ≤ data.nlen + s.nNoFullPackLen)
      (hrest : data.nlen + s.nNoFullPackLen - joinedLen s data j ≤ data.data.length)
      (hcleared : cleared.length = 2048) (hin : in_buf.length = data.data.length) :
      Outcome s data ⟨{ s with revNoFullPack := cleared, nNoFullPackLen := 0 },
        ⟨in_buf, data.nlen + s.nNoFullPackLen - joinedLen s data j⟩,
        .ok (some (j.take (joinedLen s data j).toNat ++ [0]))⟩
  | failed {j in_buf : List UInt8} (hjoins : Joins s data j) (hn : 0 ≤ joinedLen s data j)
      (hint : joinedLen s data j + 1 < 2 ^ 31)
      (hbad : data.nlen + s.nNoFullPackLen < joinedLen s data j ∨
        data.data.length < data.nlen + s.nNoFullPackLen - joinedLen s data j)
      (hin : in_buf.length = data.data.length) :
      Outcome s data ⟨{ s with revNoFullPack := j }, ⟨in_buf, data.nlen⟩,
        .ok (some (failedPack j (joinedLen s data j)))⟩
  | negative {r : PackSave} (hret : r.ret = .error .negativeArraySize) (hsized : Sized r.pack)
      (hpending : r.pack.nNoFullPackLen = s.nNoFullPackLen)
      (hwhy : (Heads data ∧ headLen data < 0) ∨
        ∃ j, Joins s data j ∧ (joinedLen s data j < 0 ∨ 2 ^ 31 ≤ joinedLen s data j + 1)) :
      Outcome s data r
  -- no packet; the data may be kept
  | quiet {r : PackSave} (hret : ∀ pack_buf, r.ret ≠ .ok (some pack_buf)) (hsized : Sized r.pack)
      (hok : 0 ≤ s.nNoFullPackLen → r.ret = .ok none ∧ 0 ≤ r.pack.nNoFullPackLen)
      (hheads : ¬Heads data) (hjoins : ∀ j, ¬Joins s data j) : Outcome s data r

section Outcome

variable {s : TcpStreamPack} {data : TcpData}

theorem Sized.joined (hs : Sized s) {j : List UInt8} (hj : joined s data = some j) :
    Sized { s with revNoFullPack := j } :=
  ⟨hs.maxrevbuf, hs.maxRevNoFullPack, hs.revbuf,
    (arraycopy_fits hj).2.2.2.2.2.trans hs.revNoFullPack⟩

theorem keepRest_quiet (hs : Sized s) (hd : Content data) (hpending : s.nNoFullPackLen ≤ 0)
    (hheads : ¬Heads data) (hjoins : ∀ j, ¬Joins s data j) :
    Outcome s data (keepRest s data) := by
  have hsize := hd.size
  have hpos := hd.pos
  have hlen := hd.len
  have hrev := hs.revNoFullPack
  cases hj : Client.joined s data with
  | none =>
    have hkeep : keepRest s data = ⟨s, data, .error .arrayIndexOutOfBounds⟩ := by
      unfold keepRest
      rw [show arraycopy .. = none from hj]
    rw [hkeep]
    refine .quiet nofun hs (fun hnonneg => ?_) hheads hjoins
    have ⟨out, hout, _⟩ : ∃ out, Client.joined s data = some out ∧ _ :=
      arraycopy_eq_some (by omega) hnonneg hpos (by omega) (by omega)
    cases hj.symm.trans hout
  | some j =>
    have ⟨zeroed, hzeroed, _⟩ : ∃ out, byteArrayZero data.data data.nlen = some out ∧
      out.length = data.data.length := byteArrayZero_eq_some hpos hlen
    have hkeep : keepRest s data = ⟨{ s with
        revNoFullPack := j, nNoFullPackLen := s.nNoFullPackLen + data.nlen },
        ⟨zeroed, 0⟩, .ok none⟩ := by
      unfold keepRest
      rw [show arraycopy .. = some j from hj]
      dsimp only
      rw [hzeroed]
    rw [hkeep]
    have hsized := hs.joined hj
    refine .quiet nofun ⟨hsized.maxrevbuf, hsized.maxRevNoFullPack, hsized.revbuf,
      hsized.revNoFullPack⟩ (fun hnonneg => ⟨rfl, ?_⟩) hheads hjoins
    show 0 ≤ s.nNoFullPackLen + data.nlen
    omega

theorem takePack_outcome (hs : Sized s) (hd : Content data) (hheads : Heads data) :
    Outcome s data (takePack s data (headLen data)) := by
  by_cases hn : headLen data < 0
  · have hne := hheads.2.1
    unfold noPacket at hne
    rw [takePack_negative (by omega)]
    exact .negative rfl hs rfl (.inl ⟨hheads, hn⟩)
  · have ⟨revbuf, in_buf, heq, hrevbuf, hin⟩ := takePack_eq hs hd (Int.not_lt.mp hn) hheads.2.2
    rw [heq]
    exact .took hheads (Int.not_lt.mp hn) hrevbuf hin

theorem joinPack_outcome (hs : Sized s) (hd : Content data) (hpos : 0 < data.nlen)
    (hhead : headLen data = noPacket) (hpending : 0 < s.nNoFullPackLen) :
    Outcome s data (joinPack s data) := by
  have hheads : ¬Heads data := fun h => h.2.1 hhead
  cases hj : Client.joined s data with
  | none =>
    rw [joinPack_full hj]
    exact .quiet nofun hs (fun h => ⟨rfl, h⟩) hheads fun j h => nomatch hj.symm.trans h.2.2.2.1
  | some j =>
    have hsized := hs.joined hj
    by_cases hnone : joinedLen s data j = noPacket
    · rw [joinPack_noPacket hj hnone]
      refine .quiet nofun hsized (fun h => ⟨rfl, h⟩) hheads fun j' h => h.2.2.2.2 ?_
      rw [← Option.some.inj (hj.symm.trans h.2.2.2.1)]
      exact hnone
    · have hjoins : Joins s data j := ⟨hpos, hhead, hpending, hj, hnone⟩
      have hlen : Client.getPackLen j (data.nlen + s.nNoFullPackLen) = joinedLen s data j := rfl
      have hne := hnone
      unfold noPacket at hne
      by_cases hout : joinedLen s data j < 0 ∨ 2 ^ 31 ≤ joinedLen s data j + 1
      · rw [joinPack_negative hj hlen hnone (by omega)]
        exact .negative rfl hsized rfl (.inr ⟨j, hjoins, hout⟩)
      · by_cases hbad : data.nlen + s.nNoFullPackLen < joinedLen s data j ∨
            data.data.length < data.nlen + s.nNoFullPackLen - joinedLen s data j
        · have ⟨in_buf, heq, hin⟩ := joinPack_failed hs hd hj hlen (by omega) (by omega) hbad
          rw [heq]
          exact .failed hjoins (by omega) (by omega) hbad hin
        · have ⟨in_buf, cleared, heq, hcleared, hin⟩ :=
            joinPack_whole hs hd hj hlen (by omega) (by omega) (by omega)
          rw [heq]
          exact .whole hjoins (by omega) (by omega) (by omega) hcleared hin

theorem packSave_outcome (hs : Sized s) (hd : Content data) : Outcome s data (packSave s data) := by
  unfold packSave
  split
  · next hempty =>
    exact .quiet nofun hs (fun h => ⟨rfl, h⟩) (fun h => by have := h.1; omega)
      fun j h => by have := h.1; omega
  · next hpos =>
    dsimp only
    split
    · next hhead =>
      have hjoins : ∀ j, ¬Joins s data j := fun j h => hhead h.2.1
      split
      · next hshort =>
        have hheads : ¬Heads data := fun h => by
          have hten := h.1
          have hle : Client.getPackLen data.data data.nlen ≤ data.nlen := h.2.2
          omega
        split
        · next hpending => exact keepRest_quiet hs hd hpending hheads hjoins
        · exact .quiet nofun hs (fun h => ⟨rfl, h⟩) hheads hjoins
      · next hlong =>
        exact takePack_outcome hs hd ⟨by omega, hhead, by show Client.getPackLen .. ≤ _; omega⟩
    · next hhead =>
      have hhead : headLen data = noPacket := Decidable.not_not.mp hhead
      have hheads : ¬Heads data := fun h => h.2.1 hhead
      split
      · next hpending => exact joinPack_outcome hs hd (by omega) hhead hpending
      · next hpending =>
        have hjoins : ∀ j, ¬Joins s data j := fun j h => hpending h.2.2.1
        split
        · exact keepRest_quiet hs hd (by omega) hheads hjoins
        · exact .quiet nofun hs (fun h => ⟨rfl, h⟩) hheads hjoins

end Outcome

/-! ## 5. Progress -/

/-- A call that returns a packet shortens the bytes held, or else the data. -/
def Decreases (s : TcpStreamPack) (data : TcpData) : Prop :=
  ∀ pack_buf, (packSave s data).ret = .ok (some pack_buf) →
    (packSave s data).pack.nNoFullPackLen < s.nNoFullPackLen ∨
      ((packSave s data).pack.nNoFullPackLen = s.nNoFullPackLen ∧
        (packSave s data).data.nlen < data.nlen)

/-- Data taken for a packet do not name the length zero, and bytes held that the data are put behind
name a length that is there then and leaves no more than the array holds. -/
def Advances (s : TcpStreamPack) (data : TcpData) : Prop :=
  (Heads data → headLen data ≠ 0) ∧
    ∀ j, Joins s data j → 0 ≤ joinedLen s data j → joinedLen s data j + 1 < 2 ^ 31 →
      joinedLen s data j ≤ data.nlen + s.nNoFullPackLen ∧
        data.nlen + s.nNoFullPackLen - joinedLen s data j ≤ data.data.length

theorem Joins.not_heads {s : TcpStreamPack} {data : TcpData} {j : List UInt8}
    (h : Joins s data j) : ¬Heads data := fun hheads => hheads.2.1 h.2.1

theorem Joins.unique {s : TcpStreamPack} {data : TcpData} {j j' : List UInt8} (h : Joins s data j)
    (h' : Joins s data j') : j' = j := Option.some.inj (h'.2.2.2.1.symm.trans h.2.2.2.1)

theorem decreases_iff {s : TcpStreamPack} {data : TcpData} (hs : Sized s) (hd : Content data) :
    Decreases s data ↔ Advances s data := by
  unfold Decreases
  generalize hr : packSave s data = r
  have houtcome := packSave_outcome hs hd
  rw [hr] at houtcome
  cases houtcome with
  | took hheads hn hrevbuf hin =>
    have hjoins : ∀ j, ¬Joins s data j := fun j h => h.not_heads hheads
    constructor
    · intro h
      refine ⟨fun _ hzero => ?_, fun j hj => absurd hj (hjoins j)⟩
      have := h _ rfl
      dsimp only at this
      omega
    · intro h _ _
      have := h.1 hheads
      dsimp only
      omega
  | whole hjoins hn hle hrest hcleared hin =>
    refine iff_of_true (fun _ _ => .inl hjoins.2.2.1) ?_
    refine ⟨fun h => absurd h hjoins.not_heads, fun j hj _ _ => ?_⟩
    rw [hjoins.unique hj]
    exact ⟨hle, hrest⟩
  | failed hjoins hn hint hbad hin =>
    refine iff_of_false (fun h => ?_) (fun h => ?_)
    · have := h _ rfl
      dsimp only at this
      omega
    · have := h.2 _ hjoins hn hint
      omega
  | negative hret hsized hpending hwhy =>
    refine iff_of_true (fun _ h => nomatch hret.symm.trans h) ?_
    rcases hwhy with ⟨hheads, hneg⟩ | ⟨j, hjoins, hout⟩
    · exact ⟨fun _ => by omega, fun j hj => absurd hheads hj.not_heads⟩
    · refine ⟨fun h => absurd h hjoins.not_heads, fun j' hj' => ?_⟩
      rw [hjoins.unique hj']
      omega
  | quiet hret hsized hok hheads hjoins =>
    exact iff_of_true (fun p h => absurd h (hret p))
      ⟨fun h => absurd h hheads, fun j hj => absurd hj (hjoins j)⟩

/-! ## 6. The loop -/

/-- A condition on the rounds of a run. -/
def OnRound (P : TcpStreamPack → TcpData → Prop) (s : Parsing) : ParseStep → Prop
  | .read _ _ => True
  | .round => ∀ data, s.data = some data → P s.pack data

structure Receiving (s : Parsing) : Prop where
  pack : Sized s.pack
  data : ∀ data, s.data = some data → Content data

theorem packSave_sized {s : TcpStreamPack} {data : TcpData} (hs : Sized s) (hd : Content data) :
    Sized (packSave s data).pack := by
  have houtcome := packSave_outcome hs hd
  generalize packSave s data = r at houtcome
  cases houtcome with
  | took hheads hn hrevbuf hin =>
    exact ⟨hs.maxrevbuf, hs.maxRevNoFullPack, hrevbuf, hs.revNoFullPack⟩
  | whole hjoins hn hle hrest hcleared hin =>
    exact ⟨hs.maxrevbuf, hs.maxRevNoFullPack, hs.revbuf, hcleared⟩
  | failed hjoins hn hint hbad hin => exact hs.joined hjoins.2.2.2.1
  | negative hret hsized hpending hwhy => exact hsized
  | quiet hret hsized hok hheads hjoins => exact hsized

theorem packSave_content {s : TcpStreamPack} {data : TcpData} (hs : Sized s) (hd : Content data)
    {pack_buf : List UInt8} (hret : (packSave s data).ret = .ok (some pack_buf)) :
    Content (packSave s data).data := by
  have hsize := hd.size
  have hpos := hd.pos
  have hlen := hd.len
  generalize hr : packSave s data = r at hret
  have houtcome := packSave_outcome hs hd
  rw [hr] at houtcome
  cases houtcome with
  | took hheads hn hrevbuf hin =>
    have hle := hheads.2.2
    constructor <;> dsimp only <;> omega
  | whole hjoins hn hle hrest hcleared hin => constructor <;> dsimp only <;> omega
  | failed hjoins hn hint hbad hin => constructor <;> dsimp only <;> omega
  | negative hnegative => cases hnegative.symm.trans hret
  | quiet hquiet => exact absurd hret (hquiet pack_buf)

theorem nextData_some {lib : DecryptLibrary} {r : PackSave} {data : TcpData}
    (h : nextData lib r = some data) : ∃ pack_buf, r.ret = .ok (some pack_buf) ∧ r.data = data := by
  unfold nextData at h
  split at h
  · next pack_buf hret =>
    split at h
    · exact ⟨pack_buf, hret, Option.some.inj h⟩
    · cases h
  · cases h

theorem stepParse_receiving {lib : DecryptLibrary} {s t : Parsing} {step : ParseStep}
    (hs : Receiving s) (ht : stepParse lib s step = some t) : Receiving t := by
  cases step with
  | read array len =>
    rw [stepParse] at ht
    split at ht
    · next hread =>
      rw [← Option.some.inj ht]
      refine ⟨hs.pack, fun data hdata => ?_⟩
      rw [← Option.some.inj hdata]
      exact ⟨hread.2.2, Int.natCast_nonneg _, Int.ofNat_le.mpr hread.2.1⟩
    · cases ht
  | round =>
    rw [stepParse] at ht
    have ⟨data, hdata, heq⟩ := Option.map_eq_some_iff.mp ht
    rw [← heq]
    refine ⟨packSave_sized hs.pack (hs.data data hdata), fun next hnext => ?_⟩
    have ⟨pack_buf, hret, hdata'⟩ := nextData_some hnext
    exact hdata' ▸ packSave_content hs.pack (hs.data data hdata) hret

/-- No measure of the rest is needed where the loop has no further round. -/
theorem packParse_last {lib : DecryptLibrary} {s : TcpStreamPack} {data : TcpData}
    (h : nextData lib (packSave s data) = none) : ∃ r, packParse lib 1 s data = some r := by
  rw [packParse]
  unfold nextData at h
  split
  · exact ⟨_, rfl⟩
  · exact ⟨_, rfl⟩
  · next pack_buf hret =>
    rw [hret] at h
    dsimp only at h
    split
    · exact ⟨_, rfl⟩
    · next out hparse =>
      rw [hparse] at h
      cases h

theorem packParse_next {lib : DecryptLibrary} {s : TcpStreamPack} {data next : TcpData}
    (h : nextData lib (packSave s data) = some next) {fuel : Nat} {r : PackParse}
    (hrest : packParse lib fuel (packSave s data).pack next = some r) :
    ∃ r, packParse lib (fuel + 1) s data = some r := by
  have ⟨pack_buf, hret, hdata⟩ := nextData_some h
  rw [packParse, hret]
  dsimp only
  unfold nextData at h
  rw [hret] at h
  dsimp only at h
  split
  · exact ⟨_, rfl⟩
  · rw [hdata, hrest]
    exact ⟨_, rfl⟩

/-- The bytes held count for more than any data. -/
def remaining (s : TcpStreamPack) (data : TcpData) : Nat :=
  s.nNoFullPackLen.toNat * 1025 + data.nlen.toNat

theorem remaining_lt {s : TcpStreamPack} {data : TcpData} (hs : Sized s) (hd : Content data)
    (h : Advances s data) {pack_buf : List UInt8}
    (hret : (packSave s data).ret = .ok (some pack_buf)) :
    remaining (packSave s data).pack (packSave s data).data < remaining s data := by
  have hcontent := packSave_content hs hd hret
  have hpos := hcontent.pos
  have hlen := hcontent.len
  have hsize := hcontent.size
  have houtcome := packSave_outcome hs hd
  unfold remaining
  generalize packSave s data = r at *
  cases houtcome with
  | took hheads hn hrevbuf hin =>
    have hzero := h.1 hheads
    dsimp only at *
    omega
  | whole hjoins hn hle hrest hcleared hin =>
    have hpending := hjoins.2.2.1
    dsimp only at *
    omega
  | failed hjoins hn hint hbad hin =>
    have := h.2 _ hjoins hn hint
    omega
  | negative hnegative => cases hnegative.symm.trans hret
  | quiet hquiet => exact absurd hret (hquiet pack_buf)

theorem loop_ends {lib : DecryptLibrary} {s : TcpStreamPack} {data : TcpData} (hs : Sized s)
    (hd : Content data)
    (h : ∀ n, RunMeets (stepParse lib) (OnRound Advances) ⟨s, some data⟩
      (List.replicate n .round)) : ∃ fuel r, packParse lib fuel s data = some r := by
  induction hn : remaining s data using Nat.strong_induction_on generalizing s data with
  | _ n ih =>
    cases hnext : nextData lib (packSave s data) with
    | none => exact ⟨1, packParse_last hnext⟩
    | some next =>
      have ⟨pack_buf, hret, hdata⟩ := nextData_some hnext
      have hadvances := (h 1).1 data rfl
      have hlt := remaining_lt hs hd hadvances hret
      have hstep : stepParse lib ⟨s, some data⟩ .round =
          some ⟨(packSave s data).pack, some next⟩ := by
        rw [← hnext]
        rfl
      have ⟨fuel, r, hr⟩ := ih (remaining (packSave s data).pack next) (hdata ▸ hn ▸ hlt)
        (packSave_sized hs hd) (hdata ▸ packSave_content hs hd hret)
        (fun k => (h (k + 1)).2 _ hstep) rfl
      exact ⟨fuel + 1, packParse_next hnext hr⟩

/-- The loop of `pack_parse` ends, and every packet it takes shortens what is left, just when each
of its rounds advances. -/
theorem loop_ends_iff (lib : DecryptLibrary) {s : TcpStreamPack} {data : TcpData} (hs : Sized s)
    (hd : Content data) :
    ((∀ n, RunMeets (stepParse lib) (OnRound Decreases) ⟨s, some data⟩
        (List.replicate n .round)) ∧ ∃ fuel r, packParse lib fuel s data = some r) ↔
      ∀ n, RunMeets (stepParse lib) (OnRound Advances) ⟨s, some data⟩
        (List.replicate n .round) := by
  have hround : ∀ (st : Parsing) (step : ParseStep), Receiving st →
      (OnRound Decreases st step ↔ OnRound Advances st step) := by
    intro st step hst
    cases step with
    | read array len => exact Iff.rfl
    | round => exact forall₂_congr fun data hdata => decreases_iff hst.pack (hst.data data hdata)
  have hstart : Receiving ⟨s, some data⟩ := ⟨hs, fun _ heq => Option.some.inj heq ▸ hd⟩
  have hrounds : ∀ n, RunMeets (stepParse lib) (OnRound Decreases) ⟨s, some data⟩
      (List.replicate n .round) ↔
        RunMeets (stepParse lib) (OnRound Advances) ⟨s, some data⟩ (List.replicate n .round) :=
    fun n => runMeets_congr_of_invariant
      (fun _ _ _ hst _ ht => stepParse_receiving hst ht) hround hstart _
  rw [forall_congr' hrounds]
  exact ⟨And.left, fun h => ⟨h, loop_ends hs hd h⟩⟩

-- a frame of seventeen bytes in an array of its size
theorem loop_ends_iff_braces :
    ((∀ n, RunMeets (stepParse plainJson) (OnRound Decreases)
        ⟨newTcpStreamPack 1024, some ⟨braces.bytes, 17⟩⟩ (List.replicate n .round)) ∧
      ∃ fuel r, packParse plainJson fuel (newTcpStreamPack 1024) ⟨braces.bytes, 17⟩ = some r) ↔
      ∀ n, RunMeets (stepParse plainJson) (OnRound Advances)
        ⟨newTcpStreamPack 1024, some ⟨braces.bytes, 17⟩⟩ (List.replicate n .round) :=
  loop_ends_iff plainJson sized_new ⟨by decide, by decide, by decide⟩

/-! ## 7. A packet of length zero -/

/-- Nothing is cut off the front. -/
theorem copySelf_zero {s : TcpStreamPack} {data : TcpData} (hs : Sized s) (hd : Content data) :
    ∃ revbuf, copySelf s data.data data.nlen 0 0 data.nlen = some (revbuf, data.data) ∧
      revbuf.length = 2048 := by
  have hlen := hd.len
  have hsize := hd.size
  have hpos := hd.pos
  have hfront : (data.data.take data.nlen.toNat).length = data.nlen.toNat :=
    List.length_take_of_le (by omega)
  have hdata : data.data = data.data.take data.nlen.toNat ++ data.data.drop data.nlen.toNat :=
    (List.take_append_drop _ _).symm
  have hmax : s.nMaxrevbufLen = s.revbuf.length := by
    rw [hs.maxrevbuf, hs.revbuf]
    rfl
  have hzero : byteArrayZero s.revbuf s.nMaxrevbufLen =
      some (List.replicate s.revbuf.length 0) := by
    rw [byteArrayZero_append (List.append_nil _).symm hmax, List.append_nil]
  have hsplit : List.replicate s.revbuf.length (0 : UInt8) =
      [] ++ List.replicate data.nlen.toNat 0 ++
        List.replicate (s.revbuf.length - data.nlen.toNat) 0 := by
    rw [List.nil_append]
    apply replicate_split
    rw [hs.revbuf]
    omega
  have hrevbuf : arraycopy data.data 0 (List.replicate s.revbuf.length 0) 0 data.nlen =
      some ([] ++ data.data.take data.nlen.toNat ++
        List.replicate (s.revbuf.length - data.nlen.toNat) 0) :=
    arraycopy_append (a := []) (x := []) hdata rfl hsplit rfl (by omega)
      (by rw [List.length_replicate, hfront])
  have hback : arraycopy ([] ++ data.data.take data.nlen.toNat ++
      List.replicate (s.revbuf.length - data.nlen.toNat) 0) 0 data.data 0 data.nlen =
        some ([] ++ data.data.take data.nlen.toNat ++ data.data.drop data.nlen.toNat) :=
    arraycopy_append (a := []) (x := []) rfl rfl hdata rfl (by omega) rfl
  refine ⟨[] ++ data.data.take data.nlen.toNat ++
    List.replicate (s.revbuf.length - data.nlen.toNat) 0, ?_, ?_⟩
  · rw [List.nil_append, List.take_append_drop] at hback
    rw [copySelf, hzero, Option.bind_eq_bind, Option.bind_some, hrevbuf, Option.bind_some,
      List.nil_append, hback]
    rfl
  · rw [List.nil_append, List.length_append, List.length_replicate, hfront, hs.revbuf]
    omega

/-- The call returns one zero byte and leaves the data as they are. -/
theorem packSave_zero {s : TcpStreamPack} {data : TcpData} (hs : Sized s) (hd : Content data)
    (hheads : Heads data) (hzero : headLen data = 0) :
    ∃ revbuf, packSave s data = ⟨{ s with revbuf := revbuf }, data, .ok (some [0])⟩ ∧
      revbuf.length = 2048 := by
  have hten := hheads.1
  have ⟨revbuf, hself, hrevbuf⟩ := copySelf_zero hs hd
  have hhead : Client.getPackLen data.data data.nlen = 0 := hzero
  have hone : newByte (0 + 1) = some [0] := rfl
  have hcopy : arraycopy data.data 0 [0] 0 0 = some [0] :=
    arraycopy_append (a := []) (b := []) (c := data.data) (x := []) (y := []) rfl rfl rfl rfl rfl
      rfl
  refine ⟨revbuf, ?_, hrevbuf⟩
  rw [packSave, if_neg (by omega)]
  dsimp only
  rw [hhead, if_pos (by decide), if_neg (by omega), takePack, hone]
  dsimp only
  rw [hcopy]
  dsimp only
  rw [Int.sub_zero, hself]

/-- Its loop never ends. -/
theorem packParse_zero {lib : DecryptLibrary} (fuel : Nat) {s : TcpStreamPack} {data : TcpData}
    (hs : Sized s) (hd : Content data) (hheads : Heads data) (hzero : headLen data = 0) :
    packParse lib fuel s data = none := by
  induction fuel generalizing s with
  | zero => rfl
  | succ fuel ih =>
    have ⟨revbuf, hsave, hrevbuf⟩ := packSave_zero hs hd hheads hzero
    have hsized : Sized { s with revbuf := revbuf } :=
      ⟨hs.maxrevbuf, hs.maxRevNoFullPack, hrevbuf, hs.revNoFullPack⟩
    have hparse : parsePack lib [0] = .ok [] := rfl
    rw [packParse, hsave]
    dsimp only
    rw [hparse]
    dsimp only
    rw [ih hsized]
    rfl

/-- Eleven bytes with the length zero. -/
theorem loop_never_ends : ¬∀ (lib : DecryptLibrary) (s : TcpStreamPack) (data : TcpData), Sized s →
    Content data → ∃ fuel r, packParse lib fuel s data = some r := by
  intro h
  have ⟨fuel, r, hr⟩ := h plainJson (newTcpStreamPack 1024)
    ⟨[0x53, 0x3A, 50, 0, 0, 0, 0, 0, 0, 0, 0], 11⟩ sized_new ⟨by decide, by decide, by decide⟩
  rw [packParse_zero fuel sized_new ⟨by decide, by decide, by decide⟩ ⟨by decide, by decide,
    by decide⟩ (by decide)] at hr
  cases hr

end VerifyServer.Client
