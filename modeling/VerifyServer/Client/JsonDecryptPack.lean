import VerifyServer.Client.JsonEncryptPack

/-!
# JsonDecryptPack — the reader of an encrypted pack

The ids come from the peer and may be any strings.  The two JSON libraries, the Base64 decoder, the
cipher and the default charset are parameters.
-/

open VerifyServer.Reasoning

namespace VerifyServer.Client

-- the characters of an ASCII text
def units (s : List UInt8) : JavaString := s.map UInt8.toUInt16

inductive JavaException where
  | arrayIndexOutOfBounds
  | negativeArraySize
  | json
  | numberFormat
  | stringIndexOutOfBounds
  deriving DecidableEq, Repr

structure DecryptLibrary where
  -- `new JSONObject(new String(out_buf, "UTF-8"))`
  newJSONObject : List UInt8 → Option JsonObject
  -- `getString(name)`, `none` when it throws
  getString : JsonObject → JavaString → Option JavaString
  -- the value is `JSONObject.NULL`, whose text is the constant `"null"` itself
  isNull : JsonObject → JavaString → Bool
  -- `String.getBytes()` and `new String(bytes)`
  getBytes : JavaString → List UInt8
  newString : List UInt8 → JavaString
  -- `BASE64Decoder.decodeBuffer`, `none` when it throws
  decodeBuffer : JavaString → Option (List UInt8)
  -- `Cipher.doFinal` under a key in `DECRYPT_MODE`; `none` when it or `init` throws
  doFinal : (key data : List UInt8) → Option (List UInt8)
  -- fastjson's `JSON.parseObject`, which makes `null` of `null`
  parseObject : Option JavaString → Option (Option JsonObject)
  -- `JSON.toJSONString(pack).getBytes("UTF-8")` of a pack's content, magic id and transition id
  toJSONString : Option JsonObject → JavaString → JavaString → List UInt8

structure JsonDecryptPack where
  TransitionID : JavaString
  MagicID : JavaString
  Content : Option JsonObject := some []

/-- `_decrypt(content, passwd)`: `null` when the library throws. -/
def decipher (lib : DecryptLibrary) (content passwd : JavaString) : Option JavaString := do
  let result ← lib.decodeBuffer content
  let plain ← lib.doFinal (lib.getBytes passwd) result
  some (lib.newString plain)

/-- `_combinaDecryptokey(nmagicid)`, `none` when a `substring` throws. -/
def JsonDecryptPack.combinaDecryptokey (pack : JsonDecryptPack) (nmagicid : Int) :
    Option JavaString := do
  let s1 ← substring (lit "idverahs-opqlkjm") nmagicid keyLen
  let s2 ← substring pack.TransitionID 0 nmagicid
  some (s2 ++ s1)

/-- `JsonDecryptPack.decrypt(str_in)`. -/
def JsonDecryptPack.decrypt (lib : DecryptLibrary) (pack : JsonDecryptPack) (str_in : JavaString) :
    Except JavaException JsonDecryptPack :=
  if pack.TransitionID ≠ [] ∧ pack.MagicID ≠ [] then
    match parseInt pack.MagicID with
    | none => .error .numberFormat
    | some nmagicid =>
      match pack.combinaDecryptokey nmagicid with
      | none => .error .stringIndexOutOfBounds
      | some key =>
        match lib.parseObject (decipher lib str_in key) with
        | none => .error .json
        | some content => .ok { pack with Content := content }
  else .ok pack

end VerifyServer.Client
