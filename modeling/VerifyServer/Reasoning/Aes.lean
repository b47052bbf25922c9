import Mathlib

/-!
# Aes — AES-128 in ECB mode with PKCS5 padding

The transformation `AES/ECB/PKCS5Padding` of `javax.crypto.Cipher` in encryption mode, for keys of
sixteen bytes.  A block is its four columns.
-/

namespace VerifyServer.Reasoning.Aes

/-! ## 1. One block -/

structure Column where
  b0 : UInt8
  b1 : UInt8
  b2 : UInt8
  b3 : UInt8

structure Block where
  c0 : Column
  c1 : Column
  c2 : Column
  c3 : Column

def sboxTable : List UInt8 :=
  [0x63, 0x7c, 0x77, 0x7b, 0xf2, 0x6b, 0x6f, 0xc5, 0x30, 0x01, 0x67, 0x2b, 0xfe, 0xd7, 0xab, 0x76,
    0xca, 0x82, 0xc9, 0x7d, 0xfa, 0x59, 0x47, 0xf0, 0xad, 0xd4, 0xa2, 0xaf, 0x9c, 0xa4, 0x72, 0xc0,
    0xb7, 0xfd, 0x93, 0x26, 0x36, 0x3f, 0xf7, 0xcc, 0x34, 0xa5, 0xe5, 0xf1, 0x71, 0xd8, 0x31, 0x15,
    0x04, 0xc7, 0x23, 0xc3, 0x18, 0x96, 0x05, 0x9a, 0x07, 0x12, 0x80, 0xe2, 0xeb, 0x27, 0xb2, 0x75,
    0x09, 0x83, 0x2c, 0x1a, 0x1b, 0x6e, 0x5a, 0xa0, 0x52, 0x3b, 0xd6, 0xb3, 0x29, 0xe3, 0x2f, 0x84,
    0x53, 0xd1, 0x00, 0xed, 0x20, 0xfc, 0xb1, 0x5b, 0x6a, 0xcb, 0xbe, 0x39, 0x4a, 0x4c, 0x58, 0xcf,
    0xd0, 0xef, 0xaa, 0xfb, 0x43, 0x4d, 0x33, 0x85, 0x45, 0xf9, 0x02, 0x7f, 0x50, 0x3c, 0x9f, 0xa8,
    0x51, 0xa3, 0x40, 0x8f, 0x92, 0x9d, 0x38, 0xf5, 0xbc, 0xb6, 0xda, 0x21, 0x10, 0xff, 0xf3, 0xd2,
    0xcd, 0x0c, 0x13, 0xec, 0x5f, 0x97, 0x44, 0x17, 0xc4, 0xa7, 0x7e, 0x3d, 0x64, 0x5d, 0x19, 0x73,
    0x60, 0x81, 0x4f, 0xdc, 0x22, 0x2a, 0x90, 0x88, 0x46, 0xee, 0xb8, 0x14, 0xde, 0x5e, 0x0b, 0xdb,
    0xe0, 0x32, 0x3a, 0x0a, 0x49, 0x06, 0x24, 0x5c, 0xc2, 0xd3, 0xac, 0x62, 0x91, 0x95, 0xe4, 0x79,
    0xe7, 0xc8, 0x37, 0x6d, 0x8d, 0xd5, 0x4e, 0xa9, 0x6c, 0x56, 0xf4, 0xea, 0x65, 0x7a, 0xae, 0x08,
    0xba, 0x78, 0x25, 0x2e, 0x1c, 0xa6, 0xb4, 0xc6, 0xe8, 0xdd, 0x74, 0x1f, 0x4b, 0xbd, 0x8b, 0x8a,
    0x70, 0x3e, 0xb5, 0x66, 0x48, 0x03, 0xf6, 0x0e, 0x61, 0x35, 0x57, 0xb9, 0x86, 0xc1, 0x1d, 0x9e,
    0xe1, 0xf8, 0x98, 0x11, 0x69, 0xd9, 0x8e, 0x94, 0x9b, 0x1e, 0x87, 0xe9, 0xce, 0x55, 0x28, 0xdf,
    0x8c, 0xa1, 0x89, 0x0d, 0xbf, 0xe6, 0x42, 0x68, 0x41, 0x99, 0x2d, 0x0f, 0xb0, 0x54, 0xbb, 0x16]

def sbox (b : UInt8) : UInt8 := sboxTable.getD b.toNat 0

def Column.xor (v w : Column) : Column :=
  ⟨v.b0 ^^^ w.b0, v.b1 ^^^ w.b1, v.b2 ^^^ w.b2, v.b3 ^^^ w.b3⟩

def Column.sub (w : Column) : Column := ⟨sbox w.b0, sbox w.b1, sbox w.b2, sbox w.b3⟩

-- multiplication by `x` modulo `x^8 + x^4 + x^3 + x + 1`
def xtime (b : UInt8) : UInt8 := if b < 0x80 then b <<< 1 else (b <<< 1) ^^^ 0x1b

def Column.mix (w : Column) : Column :=
  let t := w.b0 ^^^ w.b1 ^^^ w.b2 ^^^ w.b3
  ⟨w.b0 ^^^ t ^^^ xtime (w.b0 ^^^ w.b1), w.b1 ^^^ t ^^^ xtime (w.b1 ^^^ w.b2),
    w.b2 ^^^ t ^^^ xtime (w.b2 ^^^ w.b3), w.b3 ^^^ t ^^^ xtime (w.b3 ^^^ w.b0)⟩

def Block.addRoundKey (s k : Block) : Block :=
  ⟨s.c0.xor k.c0, s.c1.xor k.c1, s.c2.xor k.c2, s.c3.xor k.c3⟩

def Block.subBytes (s : Block) : Block := ⟨s.c0.sub, s.c1.sub, s.c2.sub, s.c3.sub⟩

-- row `r` moves `r` columns to the left
def Block.shiftRows (s : Block) : Block :=
  ⟨⟨s.c0.b0, s.c1.b1, s.c2.b2, s.c3.b3⟩, ⟨s.c1.b0, s.c2.b1, s.c3.b2, s.c0.b3⟩,
    ⟨s.c2.b0, s.c3.b1, s.c0.b2, s.c1.b3⟩, ⟨s.c3.b0, s.c0.b1, s.c1.b2, s.c2.b3⟩⟩

def Block.mixColumns (s : Block) : Block := ⟨s.c0.mix, s.c1.mix, s.c2.mix, s.c3.mix⟩

/-- The round key after `k`. -/
def nextKey (k : Block) (rcon : UInt8) : Block :=
  let rotated : Column := ⟨k.c3.b1, k.c3.b2, k.c3.b3, k.c3.b0⟩
  let c0 := (k.c0.xor rotated.sub).xor ⟨rcon, 0, 0, 0⟩
  let c1 := k.c1.xor c0
  let c2 := k.c2.xor c1
  ⟨c0, c1, c2, k.c3.xor c2⟩

/-- The rounds for a list of round constants; the last one leaves out the mixing of the columns. -/
def rounds : List UInt8 → Block → Block → Block
  | [], _, s => s
  | [rcon], k, s => s.subBytes.shiftRows.addRoundKey (nextKey k rcon)
  | rcon :: rcons, k, s =>
    let k := nextKey k rcon
    rounds rcons k (s.subBytes.shiftRows.mixColumns.addRoundKey k)

def encryptBlock (key s : Block) : Block :=
  rounds [0x01, 0x02, 0x04, 0x08, 0x10, 0x20, 0x40, 0x80, 0x1b, 0x36] key (s.addRoundKey key)

-- the 128-bit example vector of FIPS 197
example :
    let c : Column := (encryptBlock
      ⟨⟨0, 1, 2, 3⟩, ⟨4, 5, 6, 7⟩, ⟨8, 9, 10, 11⟩, ⟨12, 13, 14, 15⟩⟩
      ⟨⟨0x00, 0x11, 0x22, 0x33⟩, ⟨0x44, 0x55, 0x66, 0x77⟩, ⟨0x88, 0x99, 0xaa, 0xbb⟩,
        ⟨0xcc, 0xdd, 0xee, 0xff⟩⟩).c0
    (c.b0, c.b1, c.b2, c.b3) = (0x69, 0xc4, 0xe0, 0xd8) := by decide +kernel

/-! ## 2. ECB and the padding -/

def Block.ofBytes (bs : List UInt8) : Block :=
  let b (i : Nat) : UInt8 := bs.getD i 0
  ⟨⟨b 0, b 1, b 2, b 3⟩, ⟨b 4, b 5, b 6, b 7⟩, ⟨b 8, b 9, b 10, b 11⟩, ⟨b 12, b 13, b 14, b 15⟩⟩

def Column.bytes (w : Column) : List UInt8 := [w.b0, w.b1, w.b2, w.b3]

def Block.bytes (s : Block) : List UInt8 := s.c0.bytes ++ s.c1.bytes ++ s.c2.bytes ++ s.c3.bytes

/-- `n` blocks of `data`, each encrypted by itself. -/
def ecb (key : Block) : Nat → List UInt8 → List UInt8
  | 0, _ => []
  | n + 1, data => (encryptBlock key (Block.ofBytes (data.take 16))).bytes ++ ecb key n (data.drop 16)

/-- The last block is filled up, or a whole one is added, with the number of bytes it takes. -/
def pkcs5 (data : List UInt8) : List UInt8 :=
  let n := 16 - data.length % 16
  data ++ List.replicate n (UInt8.ofNat n)

/-- `Cipher.doFinal` in `ENCRYPT_MODE`; `none` for a key that is not one of AES-128. -/
def doFinal (key data : List UInt8) : Option (List UInt8) :=
  if key.length = 16 then
    some (ecb (Block.ofBytes key) (data.length / 16 + 1) (pkcs5 data))
  else none

theorem ecb_length (key : Block) (n : Nat) (data : List UInt8) :
    (ecb key n data).length = 16 * n := by
  induction n generalizing data with
  | zero => rfl
  | succ n ih =>
    rw [ecb, List.length_append, ih]
    have hblock (s : Block) : s.bytes.length = 16 := rfl
    rw [hblock]
    omega

/-- The result is the next larger multiple of sixteen bytes. -/
theorem doFinal_length {key : List UInt8} (data : List UInt8) (hkey : key.length = 16) :
    ∃ result, doFinal key data = some result ∧ result.length = 16 * (data.length / 16 + 1) :=
  ⟨_, if_pos hkey, ecb_length _ _ _⟩

end VerifyServer.Reasoning.Aes
