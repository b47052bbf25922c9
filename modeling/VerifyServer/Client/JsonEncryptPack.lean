import VerifyServer.Client.NetSocketData
import VerifyServer.Reasoning.Aes
import VerifyServer.Socket.Frame

/-!
# JsonEncryptPack — the encrypted pack around a message's content

`TcpStreamPack.pack_prepare` takes the `content` object out of a message, encrypts its text with AES
under a key mixed from two constants, writes the result in Base64 into a `JsonEncryptPack`, and
frames the JSON text of that.  Base64 and the two JSON libraries are parameters.  All strings but the
message's own are ASCII and appear as bytes.
-/

open VerifyServer.Reasoning VerifyServer.Socket

namespace VerifyServer.Client

/-- `String.substring(beginIndex, endIndex)`, `none` when it throws. -/
def substring {α : Type} (s : List α) (beginIndex endIndex : Int) : Option (List α) :=
  if 0 ≤ beginIndex ∧ beginIndex ≤ endIndex ∧ endIndex ≤ s.length then
    some ((s.take endIndex.toNat).drop beginIndex.toNat)
  else none

structure CryptoLibrary where
  -- `BASE64Encoder.encode`
  base64 : List UInt8 → List UInt8
  -- `JSON.toJSONString(pack).getBytes("UTF-8")` of a pack's content, magic id and transition id
  toJSONString : Option (List UInt8) → List UInt8 → List UInt8 → List UInt8

/-- Base64 makes four characters of every three bytes begun, and a pack's JSON text contains its
three strings. -/
structure CryptoLibrary.Documented (lib : CryptoLibrary) : Prop where
  base64 : ∀ data, 4 * ((data.length + 2) / 3) ≤ (lib.base64 data).length
  toJSONString : ∀ content magicID transitionID,
    content.length + magicID.length + transitionID.length ≤
      (lib.toJSONString (some content) magicID transitionID).length

def base64Chars : List UInt8 := ascii "ABCDEFGHIJKLMNOPQRSTUVWXYZabcdefghijklmnopqrstuvwxyz0123456789+/"

def base64Char (n : Nat) : UInt8 := base64Chars.getD (n % 64) 0

def base64Line : List UInt8 → List UInt8
  | a :: b :: c :: rest =>
    let n := a.toNat * 65536 + b.toNat * 256 + c.toNat
    base64Char (n / 262144) :: base64Char (n / 4096) :: base64Char (n / 64) :: base64Char n ::
      base64Line rest
  | [a, b] =>
    let n := a.toNat * 256 + b.toNat
    [base64Char (n / 1024), base64Char (n / 16), base64Char (n * 4), 0x3D]
  | [a] => [base64Char (a.toNat / 4), base64Char (a.toNat * 16), 0x3D, 0x3D]
  | [] => []

/-- Lines of 57 bytes, a newline after each full one. -/
def base64 (data : List UInt8) : List UInt8 :=
  if data.length < 57 then base64Line data
  else base64Line (data.take 57) ++ [0x0A] ++ base64 (data.drop 57)
termination_by data.length

def packText (content : Option (List UInt8)) (magicID transitionID : List UInt8) : List UInt8 :=
  let member (name : String) (value : List UInt8) : List UInt8 :=
    [0x22] ++ ascii name ++ [0x22, 0x3A, 0x22] ++
      value.flatMap (fun c => if c = 0x0A then [0x5C, 0x6E] else [c]) ++ [0x22]
  [0x7B] ++ (content.map (member "content" · ++ [0x2C])).getD [] ++
    member "magicID" magicID ++ [0x2C] ++ member "transitionID" transitionID ++ [0x7D]

theorem base64Line_length (data : List UInt8) :
    (base64Line data).length = 4 * ((data.length + 2) / 3) := by
  fun_induction base64Line data with
  | case1 a b c rest n ih =>
    simp only [List.length_cons, ih]
    omega
  | case2 a b n => simp only [List.length_cons, List.length_nil]
  | case3 a => simp only [List.length_cons, List.length_nil]
  | case4 => rfl

theorem base64_length (data : List UInt8) :
    4 * ((data.length + 2) / 3) ≤ (base64 data).length := by
  fun_induction base64 data with
  | case1 data h => rw [base64Line_length]
  | case2 data h ih =>
    simp only [List.length_append, base64Line_length, List.length_take, List.length_drop,
      List.length_singleton] at ih ⊢
    omega

def standardCrypto : CryptoLibrary := ⟨base64, packText⟩

theorem length_le_flatMap {α β : Type} {f : α → List β} (hf : ∀ a, 1 ≤ (f a).length) (l : List α) :
    l.length ≤ (l.flatMap f).length := by
  induction l with
  | nil => exact Nat.zero_le _
  | cons a l ih =>
    have := hf a
    rw [List.flatMap_cons, List.length_append, List.length_cons]
    omega

theorem standardCrypto_documented : standardCrypto.Documented where
  base64 := base64_length
  toJSONString content magicID transitionID := by
    have hescape (c : UInt8) : 1 ≤ (if c = 0x0A then [0x5C, 0x6E] else [c]).length := by
      split <;> simp
    have h₁ := length_le_flatMap hescape content
    have h₂ := length_le_flatMap hescape magicID
    have h₃ := length_le_flatMap hescape transitionID
    simp only [standardCrypto, packText, Option.map_some, Option.getD_some, List.length_append]
    omega

/-! ## 1. The pack -/

structure JsonEncryptPack where
  TransitionID : List UInt8 := ascii "sharevdi20152016"
  MagicID : List UInt8
  Content : Option (List UInt8) := some []
  key : List UInt8

def combinaSrc : List UInt8 := ascii "idverahs-opqlkjm"

def keyLen : Int := 16

/-- `Math.abs`, which leaves the least `int` as it is. -/
def mathAbs (x : Int32) : Int32 := if x < 0 then -x else x

/-- `Math.abs(random.nextInt()) % key_len`, at most `key_len - 2`. -/
def nmagicid (random : Int32) : Int :=
  let n := (mathAbs random).toInt.tmod keyLen
  if keyLen - 2 ≤ n then keyLen - 2 else n

/-- `_combinaDecryptokey(nmagicid)`. -/
def combinaDecryptokey (transitionID : List UInt8) (n : Int) : Option (List UInt8) := do
  let s1 ← substring combinaSrc n keyLen
  let s2 ← substring transitionID 0 n
  some (s2 ++ s1)

/-- `new JsonEncryptPack()` when the generator yields `random`. -/
def newJsonEncryptPack (random : Int32) : Option JsonEncryptPack := do
  let n := nmagicid random
  let key ← combinaDecryptokey (ascii "sharevdi20152016") n
  some { MagicID := ascii (toString n), key := key }

/-- `_encrypt(content, passwd)` of the content's bytes: fewer than 48 are filled up with zeros. -/
def encrypt (lib : CryptoLibrary) (content passwd : List UInt8) : Option (List UInt8) :=
  let in_byte :=
    if content.length < 48 then content ++ List.replicate (48 - content.length) 0 else content
  (Aes.doFinal passwd in_byte).map lib.base64

/-- The `str_json` of `TcpStreamPack.pack_prepare(in_buf, buf_len)`; `none` when it throws. -/
def encryptedPack (json : JsonLibrary) (crypto : CryptoLibrary) (random : Int32)
    (in_buf : List UInt8) : Option (List UInt8) := do
  let json_object ← json.parse in_buf
  let .object json_content ← JsonObject.get json_object (lit "content") | none
  let pack ← newJsonEncryptPack random
  let content := encrypt crypto (json.text (.object json_content)) pack.key
  some (crypto.toJSONString content pack.MagicID pack.TransitionID)

/-- `TcpStreamPack.pack_prepare(in_buf, buf_len)`: the same bytes around the pack as in
`tcp_stream_pack.pack_prepare`, with `param` 50. -/
def tcpPackPrepare (json : JsonLibrary) (crypto : CryptoLibrary) (random : Int32)
    (in_buf : List UInt8) : Option (List UInt8) := do
  let pack ← encryptedPack json crypto random in_buf
  packPrepare pack pack.length 50

/-! ## 2. The key -/

theorem mathAbs_range (x : Int32) : 0 ≤ (mathAbs x).toInt ∨ (mathAbs x).toInt = -2 ^ 31 := by
  unfold mathAbs
  have hlo := x.le_toInt
  have hhi := x.toInt_lt
  by_cases hneg : x < 0
  · rw [if_pos hneg, Int32.toInt_neg, Int.bmod_def]
    rw [Int32.lt_iff_toInt_lt, Int32.toInt_zero] at hneg
    omega
  · rw [if_neg hneg]
    rw [Int32.lt_iff_toInt_lt, Int32.toInt_zero] at hneg
    omega

theorem nmagicid_range (random : Int32) : 0 ≤ nmagicid random ∧ nmagicid random ≤ 14 := by
  have hmod : 0 ≤ (mathAbs random).toInt.tmod keyLen := by
    rcases mathAbs_range random with h | h
    · exact Int.tmod_nonneg _ h
    · rw [h]
      decide
  unfold nmagicid keyLen at *
  simp only
  split <;> omega

theorem substring_eq_some {α : Type} {s : List α} {i j : Int} (hi : 0 ≤ i) (hij : i ≤ j)
    (hj : j ≤ s.length) : ∃ t, substring s i j = some t ∧ t.length = j.toNat - i.toNat := by
  refine ⟨(s.take j.toNat).drop i.toNat, if_pos ⟨hi, hij, hj⟩, ?_⟩
  rw [List.length_drop, List.length_take]
  omega

/-- The constructor never throws, and the key it mixes has sixteen bytes. -/
theorem newJsonEncryptPack_key (random : Int32) :
    ∃ pack, newJsonEncryptPack random = some pack ∧ pack.key.length = 16 ∧
      pack.TransitionID.length = 16 := by
  obtain ⟨hlo, hhi⟩ := nmagicid_range random
  have hsrc : combinaSrc.length = 16 := rfl
  have htransition : (ascii "sharevdi20152016").length = 16 := rfl
  obtain ⟨s1, h1, l1⟩ := substring_eq_some (s := combinaSrc) (j := keyLen) hlo
    (by rw [keyLen]; omega) (by rw [hsrc, keyLen]; rfl)
  obtain ⟨s2, h2, l2⟩ := substring_eq_some (s := ascii "sharevdi20152016") (le_refl 0) hlo
    (by rw [htransition]; omega)
  refine ⟨{ MagicID := ascii (toString (nmagicid random)), key := s2 ++ s1 }, ?_, ?_, rfl⟩
  · simp only [newJsonEncryptPack, combinaDecryptokey, h1, h2, bind, Option.bind_some]
  · rw [List.length_append, l1, l2, keyLen]
    omega

/-! ## 3. The length -/

/-- The encrypted content is never shorter than four characters for every three bytes of a padded
text of 48 bytes or more. -/
theorem encrypt_length {lib : CryptoLibrary} (hlib : lib.Documented) (content key : List UInt8)
    (hkey : key.length = 16) :
    ∃ out, encrypt lib content key = some out ∧
      4 * ((16 * (max content.length 48 / 16 + 1) + 2) / 3) ≤ out.length := by
  unfold encrypt
  simp only
  have hpad : (if content.length < 48 then content ++ List.replicate (48 - content.length) 0
      else content).length = max content.length 48 := by
    split
    · rw [List.length_append, List.length_replicate]
      omega
    · omega
  obtain ⟨result, hresult, hlen⟩ := Aes.doFinal_length _ hkey
  rw [hresult, Option.map_some]
  refine ⟨_, rfl, ?_⟩
  rw [← hpad, ← hlen]
  exact hlib.base64 result

/-- An encrypted pack exceeds the text of the content it was made from by 29 bytes or more. -/
theorem encryptedPack_length {json : JsonLibrary} {crypto : CryptoLibrary}
    (hcrypto : crypto.Documented) {random : Int32} {in_buf pack : List UInt8}
    (h : encryptedPack json crypto random in_buf = some pack) :
    ∃ o content, json.parse in_buf = some o ∧ o.get (lit "content") = some (.object content) ∧
      (json.text (.object content)).length + 29 ≤ pack.length := by
  simp only [encryptedPack, bind, Option.bind_eq_some_iff] at h
  obtain ⟨o, ho, v, hv, h⟩ := h
  cases v with
  | string s => cases h
  | int n => cases h
  | other text => cases h
  | object content =>
    refine ⟨o, content, ho, hv, ?_⟩
    obtain ⟨new, hnew, hkey, htransition⟩ := newJsonEncryptPack_key random
    obtain ⟨out, hout, hlen⟩ := encrypt_length hcrypto (json.text (.object content)) new.key hkey
    simp only [hnew, Option.bind_some, hout, Option.some.injEq] at h
    have htext := hcrypto.toJSONString out new.MagicID new.TransitionID
    rw [h, htransition] at htext
    omega

end VerifyServer.Client
