import VerifyServer.Reasoning.Bytes

/-!
# Md5 — the digest `MD5` of `java.security.MessageDigest`

A message is padded to blocks of 64 bytes; each block is worked into four words.
-/

namespace VerifyServer.Reasoning.Md5

structure Words where
  a : UInt32
  b : UInt32
  c : UInt32
  d : UInt32

def initial : Words := ⟨0x67452301, 0xefcdab89, 0x98badcfe, 0x10325476⟩

-- the integer parts of `2^32 |sin (i + 1)|`
def sines : List UInt32 :=
  [0xd76aa478, 0xe8c7b756, 0x242070db, 0xc1bdceee, 0xf57c0faf, 0x4787c62a, 0xa8304613, 0xfd469501,
    0x698098d8, 0x8b44f7af, 0xffff5bb1, 0x895cd7be, 0x6b901122, 0xfd987193, 0xa679438e, 0x49b40821,
    0xf61e2562, 0xc040b340, 0x265e5a51, 0xe9b6c7aa, 0xd62f105d, 0x02441453, 0xd8a1e681, 0xe7d3fbc8,
    0x21e1cde6, 0xc33707d6, 0xf4d50d87, 0x455a14ed, 0xa9e3e905, 0xfcefa3f8, 0x676f02d9, 0x8d2a4c8a,
    0xfffa3942, 0x8771f681, 0x6d9d6122, 0xfde5380c, 0xa4beea44, 0x4bdecfa9, 0xf6bb4b60, 0xbebfbc70,
    0x289b7ec6, 0xeaa127fa, 0xd4ef3085, 0x04881d05, 0xd9d4d039, 0xe6db99e5, 0x1fa27cf8, 0xc4ac5665,
    0xf4292244, 0x432aff97, 0xab9423a7, 0xfc93a039, 0x655b59c3, 0x8f0ccc92, 0xffeff47d, 0x85845dd1,
    0x6fa87e4f, 0xfe2ce6e0, 0xa3014314, 0x4e0811a1, 0xf7537e82, 0xbd3af235, 0x2ad7d2bb, 0xeb86d391]

/-- How far step `i` rotates. -/
def rotation (i : Nat) : UInt32 :=
  match i / 16 with
  | 0 => [7, 12, 17, 22].getD (i % 4) 0
  | 1 => [5, 9, 14, 20].getD (i % 4) 0
  | 2 => [4, 11, 16, 23].getD (i % 4) 0
  | _ => [6, 10, 15, 21].getD (i % 4) 0

/-- The number of the word of the block that step `i` adds. -/
def wordIndex (i : Nat) : Nat :=
  match i / 16 with
  | 0 => i
  | 1 => (5 * i + 1) % 16
  | 2 => (3 * i + 5) % 16
  | _ => 7 * i % 16

def Words.mix (w : Words) (i : Nat) : UInt32 :=
  match i / 16 with
  | 0 => (w.b &&& w.c) ||| (~~~w.b &&& w.d)
  | 1 => (w.d &&& w.b) ||| (~~~w.d &&& w.c)
  | 2 => w.b ^^^ w.c ^^^ w.d
  | _ => w.c ^^^ (w.b ||| ~~~w.d)

def rotateLeft (x n : UInt32) : UInt32 := (x <<< n) ||| (x >>> (32 - n))

/-- Step `i` on the words `m` of a block. -/
def Words.step (m : List UInt32) (w : Words) (i : Nat) : Words :=
  let sum := w.a + w.mix i + sines.getD i 0 + m.getD (wordIndex i) 0
  ⟨w.d, w.b + rotateLeft sum (rotation i), w.b, w.c⟩

def Words.add (v w : Words) : Words := ⟨v.a + w.a, v.b + w.b, v.c + w.c, v.d + w.d⟩

/-- The words of one block. -/
def blockWords (block : List UInt8) : List UInt32 :=
  (List.range 16).map fun k => readLeWord block (4 * k)

def Words.block (w : Words) (block : List UInt8) : Words :=
  w.add ((List.range 64).foldl (Words.step (blockWords block)) w)

/-- A one bit, zeros, and the number of bits in eight bytes. -/
def padded (message : List UInt8) : List UInt8 :=
  let bits := 8 * message.length
  message ++ [0x80] ++ List.replicate ((119 - message.length % 64) % 64) 0 ++
    leBytes (UInt32.ofNat bits) ++ leBytes (UInt32.ofNat (bits / 2 ^ 32))

def Words.blocks : Nat → Words → List UInt8 → Words
  | 0, w, _ => w
  | n + 1, w, bytes => (w.block (bytes.take 64)).blocks n (bytes.drop 64)

def md5 (message : List UInt8) : List UInt8 :=
  let bytes := padded message
  let w := Words.blocks (bytes.length / 64) initial bytes
  leBytes w.a ++ leBytes w.b ++ leBytes w.c ++ leBytes w.d

@[simp] theorem md5_length (message : List UInt8) : (md5 message).length = 16 := rfl

-- the digest of `abc`
example : md5 [0x61, 0x62, 0x63] =
    [0x90, 0x01, 0x50, 0x98, 0x3c, 0xd2, 0x4f, 0xb0, 0xd6, 0x96, 0x3f, 0x7d, 0x28, 0xe1, 0x7f,
      0x72] := by
  decide +kernel

end VerifyServer.Reasoning.Md5
