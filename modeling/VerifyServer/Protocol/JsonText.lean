import VerifyServer.Protocol.CJson

/-!
# JsonText — `cJSON_Parse`

A text is the units in front of its NUL, and a pointer into it is the rest of the text from there on:
`[]` points to the NUL.  An item is taken with everything below it, and the list of its children as a
list.  There is always memory left.  A unit read behind the NUL, or written behind a block that was
allocated, has no meaning.
-/

open VerifyServer.Reasoning

namespace VerifyServer.Protocol

/-! ## 1. Numbers and items -/

/-- How `_stprintf` is asked for a `double`. -/
inductive FloatFormat where
  | wholeF
  | e
  | f
  deriving DecidableEq

/-- `double`, its operations and the functions of the C library on it. -/
structure Doubles (D : Type) where
  ofInt : Int → D
  /-- `(int)` -/
  toInt : D → Int32
  add : D → D → D
  sub : D → D → D
  mul : D → D → D
  pow : D → D → D
  floor : D → D
  fabs : D → D
  le : D → D → Bool
  lt : D → D → Bool
  eq : D → D → Bool
  /-- The literal `m` times ten to the power of `e`. -/
  literal : Int → Int → D
  DBL_EPSILON : D
  print : FloatFormat → D → List UInt16

/-- An item with what is below it; `true` and `false` are the types `cJSON_True` and `cJSON_False`. -/
inductive JsonTree (D : Type) where
  | null
  | false
  | true
  | number (valueint : Int32) (valuedouble : D)
  | string (valuestring : TText)
  | array (child : List (JsonTree D))
  | object (child : List (TText × JsonTree D))

/-- Why a call returns no item. -/
inductive ParseFault where
  /-- `NULL` is returned, with `ep` set. -/
  | failed (ep : List UInt16)
  /-- Something behind the NUL is read. -/
  | overread
  /-- Something behind the end of a block is written. -/
  | overwrite
  /-- The steps do not suffice. -/
  | endless
  deriving DecidableEq

/-- Of what was read and the pointer behind it. -/
abbrev Result := Except ParseFault

def quoteMark : UInt16 := 0x22
def comma : UInt16 := 0x2C
def minus : UInt16 := 0x2D
def point : UInt16 := 0x2E
def colon : UInt16 := 0x3A
def openBracket : UInt16 := 0x5B
def backslash : UInt16 := 0x5C
def closeBracket : UInt16 := 0x5D
def letterU : UInt16 := 0x75
def openBrace : UInt16 := 0x7B
def closeBrace : UInt16 := 0x7D

/-! ## 2. Numbers -/

variable {D : Type}

def isDigit (c : UInt16) : Bool := 0x30 ≤ c && c ≤ 0x39

/-- `*num-'0'` -/
def digit (c : UInt16) : Int := c.toNat - 0x30

/-- `n=(n*10.0)+(*num++ -'0')` for each of the digits. -/
def Doubles.digits (A : Doubles D) (n : D) (ds : List UInt16) : D :=
  ds.foldl (fun n c => A.add (A.mul n (A.ofInt 10)) (A.ofInt (digit c))) n

/-- `sign` -/
def readSign (A : Doubles D) : List UInt16 → D × List UInt16
  | c :: num => if c = minus then (A.ofInt (-1), num) else (A.ofInt 1, c :: num)
  | [] => (A.ofInt 1, [])

/-- `n` in front of the point. -/
def readInteger (A : Doubles D) (num : List UInt16) : D × List UInt16 :=
  let num := if num.head? = some 0x30 then num.tail else num
  match num with
  | c :: _ =>
    if 0x31 ≤ c && c ≤ 0x39 then
      (A.digits (A.ofInt 0) (num.takeWhile isDigit), num.dropWhile isDigit)
    else (A.ofInt 0, num)
  | [] => (A.ofInt 0, [])

/-- `n` and `scale` behind the point. -/
def readFraction (A : Doubles D) (n : D) (num : List UInt16) : (D × D) × List UInt16 :=
  match num with
  | c :: d :: rest =>
    if c = point && isDigit d then
      let ds := (d :: rest).takeWhile isDigit
      ((A.digits n ds, ds.foldl (fun scale _ => A.sub scale (A.ofInt 1)) (A.ofInt 0)),
        (d :: rest).dropWhile isDigit)
    else ((n, A.ofInt 0), num)
  | _ => ((n, A.ofInt 0), num)

/-- `signsubscale` -/
def readExponentSign : List UInt16 → Int32 × List UInt16
  | c :: num => if c = 0x2B then (1, num) else if c = minus then (-1, num) else (1, c :: num)
  | [] => (1, [])

/-- `subscale*signsubscale`, an `int` that goes round. -/
def readExponent : List UInt16 → Int32 × List UInt16
  | c :: num =>
    if c = 0x65 || c = 0x45 then
      let (signsubscale, num) := readExponentSign num
      let subscale := (num.takeWhile isDigit).foldl
        (fun subscale c => subscale * 10 + Int32.ofInt (digit c)) (0 : Int32)
      (subscale * signsubscale, num.dropWhile isDigit)
    else (0, c :: num)
  | [] => (0, [])

/-- `parse_number`. -/
def parseNumber (A : Doubles D) (num : List UInt16) : JsonTree D × List UInt16 :=
  let (sign, num) := readSign A num
  let (n, num) := readInteger A num
  let ((n, scale), num) := readFraction A n num
  let (exponent, num) := readExponent num
  let n := A.mul (A.mul sign n) (A.pow (A.ofInt 10) (A.add scale (A.ofInt exponent.toInt)))
  (.number (A.toInt n) n, num)

/-! ## 3. Strings -/

def hexDigit (c : UInt16) : Option Nat :=
  if 0x30 ≤ c && c ≤ 0x39 then some (c.toNat - 0x30)
  else if 0x41 ≤ c && c ≤ 0x46 then some (10 + (c.toNat - 0x41))
  else if 0x61 ≤ c && c ≤ 0x66 then some (10 + (c.toNat - 0x61))
  else none

/-- `parse_hex4`; the NUL is no digit, so it stops there. -/
def parseHex4 : List UInt16 → Nat
  | a :: b :: c :: d :: _ =>
    ((do
      let a ← hexDigit a
      let b ← hexDigit b
      let c ← hexDigit c
      let d ← hexDigit d
      return ((a * 16 + b) * 16 + c) * 16 + d) : Option Nat).getD 0
  | _ => 0

/-- What is written for `uc`, which is now a code point. -/
def transcode (uc : Nat) : List UInt16 :=
  let cut (uc : Nat) : UInt16 := UInt16.ofNat ((uc ||| 0x80) &&& 0xBF)
  if uc < 0x80 then [UInt16.ofNat uc]
  else if uc < 0x800 then [UInt16.ofNat (uc >>> 6 ||| 0xC0), cut uc]
  else if uc < 0x10000 then [UInt16.ofNat (uc >>> 12 ||| 0xE0), cut (uc >>> 6), cut uc]
  else [UInt16.ofNat (uc >>> 18 ||| 0xF0), cut (uc >>> 12), cut (uc >>> 6), cut uc]

/-- `ptr+=n` -/
def advance (n : Nat) (ptr : List UInt16) : Result (List UInt16) :=
  if n ≤ ptr.length then .ok (ptr.drop n) else .error .overread

/-- The `case _T('u')`, from behind the letter: what is written, and the pointer behind `ptr++`. -/
def decodeHex (ptr : List UInt16) : Result (List UInt16 × List UInt16) := do
  let uc := parseHex4 ptr
  let ptr ← advance 4 ptr
  if 0xDC00 ≤ uc ∧ uc ≤ 0xDFFF ∨ uc = 0 then
    return ([], ptr)
  else if 0xD800 ≤ uc ∧ uc ≤ 0xDBFF then
    match ptr with
    | b :: u :: low =>
      if b = backslash ∧ u = letterU then
        let uc2 := parseHex4 low
        let low ← advance 4 low
        if uc2 < 0xDC00 ∨ 0xDFFF < uc2 then return ([], low)
        return (transcode (0x10000 + ((uc &&& 0x3FF) <<< 10 ||| uc2 &&& 0x3FF)), low)
      else return ([], ptr)
    | _ => return ([], ptr)
  else return (transcode uc, ptr)

/-- The `switch` behind a backslash. -/
def decodeEscape : List UInt16 → Result (List UInt16 × List UInt16)
  | [] => .error .overread
  | c :: ptr =>
    if c = 0x62 then .ok ([0x08], ptr)
    else if c = 0x66 then .ok ([0x0C], ptr)
    else if c = 0x6E then .ok ([0x0A], ptr)
    else if c = 0x72 then .ok ([0x0D], ptr)
    else if c = 0x74 then .ok ([0x09], ptr)
    else if c = letterU then decodeHex ptr
    else .ok ([c], ptr)

/-- The first loop of `parse_string`, which skips escaped quotes: `len`. -/
def scanString : List UInt16 → Except ParseFault Nat
  | [] => .ok 0
  | [c] => if c = quoteMark then .ok 0 else if c = backslash then .error .overread else .ok 1
  | c :: d :: ptr =>
    if c = quoteMark then .ok 0
    else if c = backslash then (· + 1) <$> scanString ptr
    else (· + 1) <$> scanString (d :: ptr)

/-- The second loop: what is written to `out`, and the pointer to the quote or the NUL. -/
def decodeString : Nat → List UInt16 → Result (List UInt16 × List UInt16)
  | _, [] => .ok ([], [])
  | 0, _ :: _ => .error .endless
  | k + 1, c :: ptr =>
    if c = quoteMark then .ok ([], c :: ptr)
    else if c = backslash then do
      let (written, ptr) ← decodeEscape ptr
      let (out, ptr) ← decodeString k ptr
      return (written ++ out, ptr)
    else do
      let (out, ptr) ← decodeString k ptr
      return (c :: out, ptr)

/-- `parse_string`; `out` has `len + 1` units, and one of them takes the NUL. -/
def parseString (str : List UInt16) : Result (TText × List UInt16) :=
  match str with
  | [] => .error (.failed [])
  | c :: ptr =>
    if c = quoteMark then do
      let len ← scanString ptr
      let (out, ptr) ← decodeString ptr.length ptr
      if len < out.length then throw .overwrite
      return (cStr out, if ptr.head? = some quoteMark then ptr.tail else ptr)
    else .error (.failed str)

/-! ## 4. Values -/

/-- `skip`, which stops at the NUL. -/
def skip (in_ : List UInt16) : List UInt16 := in_.dropWhile (· ≤ 32)

mutual

/-- `parse_value`. -/
def parseValue (A : Doubles D) : Nat → List UInt16 → Result (JsonTree D × List UInt16)
  | 0, _ => .error .endless
  | k + 1, value =>
    if (lit "null").isPrefixOf value then .ok (.null, value.drop 4)
    else if (lit "false").isPrefixOf value then .ok (.false, value.drop 5)
    else if (lit "true").isPrefixOf value then .ok (.true, value.drop 4)
    else
      match value with
      | [] => .error (.failed [])
      | c :: rest =>
        if c = quoteMark then do
          let (valuestring, rest) ← parseString (c :: rest)
          return (.string valuestring, rest)
        else if c = minus || isDigit c then .ok (parseNumber A (c :: rest))
        else if c = openBracket then
          -- `parse_array`
          if (skip rest).head? = some closeBracket then .ok (.array [], (skip rest).tail)
          else do
            let (child, rest) ← parseElements A k (skip rest)
            return (.array child, rest)
        else if c = openBrace then
          -- `parse_object`
          if (skip rest).head? = some closeBrace then .ok (.object [], (skip rest).tail)
          else do
            let (child, rest) ← parseMembers A k (skip rest)
            return (.object child, rest)
        else .error (.failed (c :: rest))

/-- A child of an array, from behind the bracket or comma on, and the loop of `parse_array`. -/
def parseElements (A : Doubles D) : Nat → List UInt16 → Result (List (JsonTree D) × List UInt16)
  | 0, _ => .error .endless
  | k + 1, value => do
    let (child, value) ← parseValue A k (skip value)
    match skip value with
    | [] => throw (.failed [])
    | c :: value =>
      if c = comma then
        let (more, value) ← parseElements A k value
        return (child :: more, value)
      else if c = closeBracket then return ([child], value)
      else throw (.failed (c :: value))

/-- A child of an object, from behind the brace or comma on, and the loop of `parse_object`. -/
def parseMembers (A : Doubles D) : Nat → List UInt16 → Result (List (TText × JsonTree D) × List UInt16)
  | 0, _ => .error .endless
  | k + 1, value => do
    let (child, value) ← parseMember A k value
    match skip value with
    | [] => throw (.failed [])
    | c :: value =>
      if c = comma then
        let (more, value) ← parseMembers A k value
        return (child :: more, value)
      else if c = closeBrace then return ([child], value)
      else throw (.failed (c :: value))

/-- The name and the value of a child. -/
def parseMember (A : Doubles D) : Nat → List UInt16 → Result ((TText × JsonTree D) × List UInt16)
  | 0, _ => .error .endless
  | k + 1, value => do
    let (string, value) ← parseString (skip value)
    match skip value with
    | [] => throw (.failed [])
    | c :: value =>
      if c = colon then
        let (child, value) ← parseValue A k (skip value)
        return ((string, child), value)
      else throw (.failed (c :: value))

end

/-- `cJSON_ParseWithOpts`, with the end of what was parsed. -/
def parseWithOpts (A : Doubles D) (value : TText) (require_null_terminated : Bool) :
    Result (JsonTree D × List UInt16) := do
  let (c, end_) ← parseValue A (2 * value.units.length + 1) (skip value.units)
  if require_null_terminated then
    let end_ := skip end_
    if end_ = [] then return (c, []) else throw (.failed end_)
  return (c, end_)

/-- `cJSON_Parse`. -/
def parse (A : Doubles D) (value : TText) : Result (JsonTree D) :=
  Prod.fst <$> parseWithOpts A value false

end VerifyServer.Protocol
