import VerifyServer.Client.JsonDecryptPack

/-!
# TcpStreamPack — the client's reader of the TCP stream

`pack_parse` is called with every array the socket was read into.  `_pack_save` takes one packet
after another out of that array; the first part of a packet that is not complete goes to
`revNoFullPack`, of which `nNoFullPackLen` bytes are in use.  An array is a list of bytes, a copy
outside its arrays throws, and so does `new byte[n]` for a negative `n`.
-/

open VerifyServer.Reasoning VerifyServer.Socket

namespace VerifyServer.Client

/-! ## 1. Arrays -/

/-- `System.arraycopy(src, srcPos, dest, destPos, length)`: `dest` afterwards. -/
def arraycopy (src : List UInt8) (srcPos : Int) (dest : List UInt8) (destPos length : Int) :
    Option (List UInt8) :=
  if 0 ≤ srcPos ∧ 0 ≤ destPos ∧ 0 ≤ length ∧ srcPos + length ≤ src.length then
    blit dest destPos.toNat ((src.drop srcPos.toNat).take length.toNat)
  else none

/-- `ByteArrayZero(bytes, nlen)`. -/
def byteArrayZero (bytes : List UInt8) (nlen : Int) : Option (List UInt8) :=
  blit bytes 0 (List.replicate nlen.toNat 0)

/-- `new byte[n]`; a sum of `int`s that passes `2^31` is negative. -/
def newByte (n : Int) : Option (List UInt8) :=
  if 0 ≤ n ∧ n < 2 ^ 31 then some (List.replicate n.toNat 0) else none

/-- `_getPackLen(in_buf, len)`. -/
def getPackLen (in_buf : List UInt8) (len : Int) : Int :=
  if len < 10 then noPacket
  else if in_buf.getD 0 0 = 0x53 ∧ in_buf.getD 1 0 = 0x3A then intOfDword (readLeWord in_buf 6)
  else noPacket

/-! ## 2. `_pack_save` -/

structure TcpData where
  data : List UInt8
  nlen : Int

structure TcpStreamPack where
  nMaxrevbufLen : Int
  nMaxRevNoFullPackLen : Int
  revbuf : List UInt8
  revNoFullPack : List UInt8
  nNoFullPackLen : Int := 0

/-- `new TcpStreamPack(nBuffLen)`. -/
def newTcpStreamPack (nBuffLen : Nat) : TcpStreamPack where
  nMaxrevbufLen := nBuffLen * 2
  nMaxRevNoFullPackLen := nBuffLen * 2
  revbuf := List.replicate (nBuffLen * 2) 0
  revNoFullPack := List.replicate (nBuffLen * 2) 0

/-- What a call of `_pack_save` leaves behind, and its result: a packet, `null`, or an exception. -/
structure PackSave where
  pack : TcpStreamPack
  data : TcpData
  ret : Except JavaException (Option (List UInt8))

/-- `CopySelf(in_buf, in_len, begin_src, begin_des, len)`: `revbuf` and `in_buf` afterwards. -/
def copySelf (s : TcpStreamPack) (in_buf : List UInt8) (in_len begin_src begin_des len : Int) :
    Option (List UInt8 × List UInt8) := do
  let zeroed ← byteArrayZero s.revbuf s.nMaxrevbufLen
  let revbuf ← arraycopy in_buf 0 zeroed 0 in_len
  let in_buf ← arraycopy revbuf begin_src in_buf begin_des len
  some (revbuf, in_buf)

/-- The whole of the array is put behind what `revNoFullPack` holds. -/
def keepRest (s : TcpStreamPack) (data : TcpData) : PackSave :=
  match arraycopy data.data 0 s.revNoFullPack s.nNoFullPackLen data.nlen with
  | none => ⟨s, data, .error .arrayIndexOutOfBounds⟩
  | some revNoFullPack =>
    let s := { s with
      revNoFullPack := revNoFullPack, nNoFullPackLen := s.nNoFullPackLen + data.nlen }
    match byteArrayZero data.data data.nlen with
    | none => ⟨s, ⟨data.data, 0⟩, .error .arrayIndexOutOfBounds⟩
    | some in_buf => ⟨s, ⟨in_buf, 0⟩, .ok none⟩

/-- The array begins with a whole packet: it is copied out, and what follows it moved to the
front.  The source has this twice, for a packet as long as the array's content and a shorter one. -/
def takePack (s : TcpStreamPack) (data : TcpData) (pack_len : Int) : PackSave :=
  match newByte (pack_len + 1) with
  | none => ⟨s, data, .error .negativeArraySize⟩
  | some ret_byte =>
    match arraycopy data.data 0 ret_byte 0 pack_len with
    | none => ⟨s, data, .error .arrayIndexOutOfBounds⟩
    | some ret_byte =>
      match copySelf s data.data data.nlen pack_len 0 (data.nlen - pack_len) with
      | none => ⟨s, ⟨data.data, data.nlen - pack_len⟩, .error .arrayIndexOutOfBounds⟩
      | some (revbuf, in_buf) =>
        ⟨{ s with revbuf := revbuf }, ⟨in_buf, data.nlen - pack_len⟩, .ok (some ret_byte)⟩

/-- The array continues what `revNoFullPack` holds.  The copies are inside a `try` that catches
their exception, so that `ret_byte` is returned as far as it got; the length in use is not updated
unless a packet was taken. -/
def joinPack (s : TcpStreamPack) (data : TcpData) : PackSave :=
  match arraycopy data.data 0 s.revNoFullPack s.nNoFullPackLen data.nlen with
  | none => ⟨s, data, .ok none⟩
  | some revNoFullPack =>
    let total := data.nlen + s.nNoFullPackLen
    let pack_len := getPackLen revNoFullPack total
    let s := { s with revNoFullPack := revNoFullPack }
    if pack_len = noPacket then ⟨s, data, .ok none⟩
    else
      match newByte (pack_len + 1) with
      | none => ⟨s, data, .error .negativeArraySize⟩
      | some zeros =>
        match arraycopy revNoFullPack 0 zeros 0 pack_len with
        | none => ⟨s, data, .ok (some zeros)⟩
        | some ret_byte =>
          match byteArrayZero data.data data.nlen with
          | none => ⟨s, data, .ok (some ret_byte)⟩
          | some zeroed =>
            match arraycopy revNoFullPack pack_len zeroed 0 (total - pack_len) with
            | none => ⟨s, ⟨zeroed, data.nlen⟩, .ok (some ret_byte)⟩
            | some in_buf =>
              match byteArrayZero revNoFullPack s.nMaxRevNoFullPackLen with
              | none => ⟨s, ⟨in_buf, total - pack_len⟩, .ok (some ret_byte)⟩
              | some cleared =>
                ⟨{ s with revNoFullPack := cleared, nNoFullPackLen := 0 },
                  ⟨in_buf, total - pack_len⟩, .ok (some ret_byte)⟩

/-- `_pack_save(data)`. -/
def packSave (s : TcpStreamPack) (data : TcpData) : PackSave :=
  if data.nlen ≤ 0 then ⟨s, data, .ok none⟩
  else
    let pack_len := getPackLen data.data data.nlen
    if pack_len ≠ noPacket then
      if data.nlen < pack_len ∨ data.nlen ≤ 10 then
        -- behind bytes already held, a packet's beginning is left where it is
        if s.nNoFullPackLen ≤ 0 then keepRest s data else ⟨s, data, .ok none⟩
      else takePack s data pack_len
    else if 0 < s.nNoFullPackLen then joinPack s data
    else if data.nlen ≤ 10 then keepRest s data
    else ⟨s, data, .ok none⟩

/-! ## 3. `pack_parse` -/

/-- The body of the loop in `pack_parse` from the payload `out_buf` to `pack_list.add`. -/
def parsePayload (lib : DecryptLibrary) (out_buf : List UInt8) :
    Except JavaException (List UInt8) :=
  match lib.newJSONObject out_buf with
  | none => .error .json
  | some json_object =>
    match lib.getString json_object (lit "TransitionID"),
        lib.getString json_object (lit "MagicID") with
    | some transitionID, some magicID =>
      if lib.isNull json_object (lit "TransitionID") ∨ lib.isNull json_object (lit "MagicID") then
        .ok out_buf
      else
        match lib.getString json_object (lit "Content") with
        | none => .error .json
        | some str_content => do
          let pack ← JsonDecryptPack.decrypt lib ⟨transitionID, magicID, some []⟩ str_content
          .ok (lib.toJSONString pack.Content pack.MagicID pack.TransitionID)
    | _, _ => .ok out_buf

/-- What the loop of `pack_parse` does with a packet: nothing, unless it begins with a header. -/
def parsePack (lib : DecryptLibrary) (pack_buf : List UInt8) :
    Except JavaException (List (List UInt8)) :=
  let pack_len := getPackLen pack_buf pack_buf.length
  if pack_len = noPacket then .ok []
  else
    match newByte (pack_len - 15) with
    | none => .error .negativeArraySize
    | some out_buf =>
      match arraycopy pack_buf 10 out_buf 0 (pack_len - 15) with
      | none => .error .arrayIndexOutOfBounds
      | some out_buf => (parsePayload lib out_buf).map fun out => [out]

/-- What a call of `pack_parse` leaves behind: the packets `_pack_save` returned to it, the list it
returns, and the exception that ended it, if any. -/
structure PackParse where
  pack : TcpStreamPack
  packs : List (List UInt8)
  pack_list : List (List UInt8)
  thrown : Option JavaException

/-- The loop of `pack_parse`; no result when it has not ended after `fuel` rounds. -/
def packParse (lib : DecryptLibrary) : Nat → TcpStreamPack → TcpData → Option PackParse
  | 0, _, _ => none
  | fuel + 1, s, data =>
    let r := packSave s data
    match r.ret with
    | .error e => some ⟨r.pack, [], [], some e⟩
    | .ok none => some ⟨r.pack, [], [], none⟩
    | .ok (some pack_buf) =>
      match parsePack lib pack_buf with
      | .error e => some ⟨r.pack, [pack_buf], [], some e⟩
      | .ok out =>
        (packParse lib fuel r.pack r.data).map fun next =>
          { next with packs := pack_buf :: next.packs, pack_list := out ++ next.pack_list }

/-- One read of the socket: an array of `MaxBuff` bytes with `len` of them read. -/
structure Read where
  array : List UInt8
  len : Nat
  maxBuff : array.length = 1024
  pos : 0 < len
  fits : len ≤ 1024

def Read.bytes (r : Read) : List UInt8 := r.array.take r.len

/-- The packets `_pack_save` returns over successive calls of `pack_parse`, and the object after
them; an exception ends its call only. -/
def parseReads (lib : DecryptLibrary) (fuel : Nat) (s : TcpStreamPack) :
    List Read → Option (TcpStreamPack × List (List UInt8))
  | [] => some (s, [])
  | r :: rs => do
    let p ← packParse lib fuel s ⟨r.array, r.len⟩
    let (s, packs) ← parseReads lib fuel p.pack rs
    some (s, p.packs ++ packs)

end VerifyServer.Client
