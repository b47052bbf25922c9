import VerifyServer.Client.JsonDecryptPack

/-!
# KeyRoundTrip — `JsonDecryptPack` on the parts of a `JsonEncryptPack`

The key is mixed twice, from the same two constants and the number that the pack carries as its
magic id.  What is decrypted are the bytes that were encrypted: the content's, filled up with zeros
to the 48 that `_encrypt` wants.
-/

open VerifyServer.Reasoning

namespace VerifyServer.Client

/-! ## 1. The key -/

theorem substring_map {α β : Type} (f : α → β) (s : List α) (i j : Int) :
    substring (s.map f) i j = (substring s i j).map (List.map f) := by
  unfold substring
  rw [List.length_map]
  split
  · rw [Option.map_some, List.map_drop, List.map_take]
  · rfl

theorem substring_subset {α : Type} {s t : List α} {i j : Int} (h : substring s i j = some t) :
    t ⊆ s := by
  unfold substring at h
  split at h
  · rw [← Option.some.inj h]
    exact fun a ha => List.mem_of_mem_take (List.mem_of_mem_drop ha)
  · cases h

/-- The two mixtures are the same. -/
theorem combinaDecryptokey_units (transitionID magicID : List UInt8) (n : Int) :
    (⟨units transitionID, units magicID, some []⟩ : JsonDecryptPack).combinaDecryptokey n =
      (combinaDecryptokey transitionID n).map units := by
  have hsrc : lit "idverahs-opqlkjm" = units combinaSrc := by decide
  rw [JsonDecryptPack.combinaDecryptokey, combinaDecryptokey, hsrc]
  unfold units
  rw [substring_map, substring_map]
  cases substring combinaSrc n keyLen with
  | none => rfl
  | some s1 =>
    cases substring transitionID 0 n with
    | none => rfl
    | some s2 =>
      show some (s2.map _ ++ s1.map _) = some ((s2 ++ s1).map _)
      rw [List.map_append]

theorem combinaDecryptokey_ascii {n : Int} {key : List UInt8}
    (h : combinaDecryptokey (ascii "sharevdi20152016") n = some key) : ∀ b ∈ key, b < 0x80 := by
  have hsrc : ∀ b ∈ combinaSrc, b < 0x80 := by decide +kernel
  have htransition : ∀ b ∈ ascii "sharevdi20152016", b < 0x80 := by decide +kernel
  have ⟨s1, h1, h⟩ := Option.bind_eq_some_iff.mp h
  have ⟨s2, h2, h⟩ := Option.bind_eq_some_iff.mp h
  rw [← Option.some.inj h]
  intro b hb
  cases List.mem_append.mp hb with
  | inl hb => exact htransition b (substring_subset h2 hb)
  | inr hb => exact hsrc b (substring_subset h1 hb)

/-- `Integer.parseInt` of what `String.valueOf` wrote. -/
theorem parseInt_magicID {n : Int} (hlo : 0 ≤ n) (hhi : n ≤ 14) :
    parseInt (units (ascii (toString n))) = some n := by
  interval_cases n <;> decide +kernel

/-! ## 2. The content -/

/-- The bytes that `_encrypt` gives the cipher. -/
def filled (in_byte : List UInt8) : List UInt8 :=
  in_byte ++ List.replicate (48 - in_byte.length) 0

theorem encrypt_filled (crypto : CryptoLibrary) (in_byte key : List UInt8) :
    encrypt crypto in_byte key = (Aes.doFinal key (filled in_byte)).map crypto.base64 := by
  have hpad : (if in_byte.length < 48 then in_byte ++ List.replicate (48 - in_byte.length) 0
      else in_byte) = filled in_byte := by
    unfold filled
    split
    · rfl
    · rw [Nat.sub_eq_zero_of_le (by omega), List.replicate_zero, List.append_nil]
  rw [encrypt, hpad]

/-- The peer's library undoes what was done to these bytes, and ASCII text is its own bytes. -/
structure DecryptLibrary.Inverts (lib : DecryptLibrary) (crypto : CryptoLibrary)
    (key plain : List UInt8) : Prop where
  cipher : ∀ out, Aes.doFinal key plain = some out → lib.doFinal key out = some plain
  base64 : ∀ out, Aes.doFinal key plain = some out →
    lib.decodeBuffer (units (crypto.base64 out)) = some out
  ascii : ∀ s : List UInt8, (∀ b ∈ s, b < 0x80) → lib.getBytes (units s) = s

/-- The charset can represent the content, and a zero byte is the character zero. -/
def DecryptLibrary.Represents (lib : DecryptLibrary) (content : JavaString) : Prop :=
  ∀ k, lib.newString (lib.getBytes content ++ List.replicate k 0) = content ++ List.replicate k 0

/-- A library for text in ISO-8859-1, which undoes the encryption of one text under one key. -/
def latinLibrary (key plain : List UInt8) : DecryptLibrary where
  newJSONObject _ := some []
  getString _ _ := none
  isNull _ _ := false
  getBytes s := s.map UInt16.toUInt8
  newString := units
  decodeBuffer s := (Aes.doFinal key plain).filter fun out => s = units (base64 out)
  doFinal key' data := if Aes.doFinal key' plain = some data then some plain else none
  parseObject _ := none
  toJSONString _ _ _ := []

theorem latinLibrary_inverts (key plain : List UInt8) :
    (latinLibrary key plain).Inverts standardCrypto key plain where
  cipher _ hout := if_pos hout
  base64 out hout := by
    show (Aes.doFinal key plain).filter _ = some out
    rw [hout]
    exact if_pos (decide_eq_true rfl)
  ascii s _ := by
    show (s.map UInt8.toUInt16).map UInt16.toUInt8 = s
    rw [List.map_map]
    exact List.map_id'' (fun b => UInt8.toUInt8_toUInt16 b) s

theorem latinLibrary_represents (key plain : List UInt8) {content : JavaString}
    (h : ∀ c ∈ content, c < 0x100) : (latinLibrary key plain).Represents content := by
  intro k
  show units (content.map UInt16.toUInt8 ++ List.replicate k 0) = content ++ List.replicate k 0
  have hid : (content.map UInt16.toUInt8).map UInt8.toUInt16 = content := by
    rw [List.map_map]
    refine (List.map_congr_left fun c hc => ?_).trans (List.map_id content)
    have hlt := UInt16.lt_iff_toNat_lt.mp (h c hc)
    apply UInt16.toNat_inj.mp
    show c.toNat % 2 ^ 8 = c.toNat
    exact Nat.mod_eq_of_lt hlt
  rw [units, List.map_append, hid, List.map_replicate]
  rfl

theorem latinLibrary_braces (key plain : List UInt8) :
    (latinLibrary key plain).Represents [0x7B, 0x7D] :=
  latinLibrary_represents key plain (by simp)

/-! ## 3. The pack -/

section Pack

variable {lib : DecryptLibrary} {crypto : CryptoLibrary} {random : Int32} {pack : JsonEncryptPack}

theorem newJsonEncryptPack_parts (hpack : newJsonEncryptPack random = some pack) :
    pack.MagicID = ascii (toString (nmagicid random)) ∧
      pack.TransitionID = ascii "sharevdi20152016" ∧
        combinaDecryptokey pack.TransitionID (nmagicid random) = some pack.key := by
  have ⟨key, hkey, heq⟩ : ∃ key, combinaDecryptokey (ascii "sharevdi20152016") (nmagicid random) =
    some key ∧ some _ = some pack := Option.bind_eq_some_iff.mp hpack
  rw [← Option.some.inj heq]
  exact ⟨rfl, rfl, hkey⟩

/-- The bytes that were encrypted come back. -/
theorem decipher_filled (hpack : newJsonEncryptPack random = some pack) (content : JavaString)
    (hlib : lib.Inverts crypto pack.key (filled (lib.getBytes content))) :
    ∃ out, encrypt crypto (lib.getBytes content) pack.key = some out ∧
      decipher lib (units out) (units pack.key) =
        some (lib.newString (filled (lib.getBytes content))) := by
  have ⟨pack', hpack', hlen, _⟩ := newJsonEncryptPack_key random
  rw [← Option.some.inj (hpack.symm.trans hpack')] at hlen
  have ⟨out, hout, _⟩ := Aes.doFinal_length (filled (lib.getBytes content)) hlen
  have ⟨_, htransitionID, hkey⟩ := newJsonEncryptPack_parts hpack
  rw [htransitionID] at hkey
  have hbytes : lib.getBytes (units pack.key) = pack.key :=
    hlib.ascii _ (combinaDecryptokey_ascii hkey)
  refine ⟨crypto.base64 out, ?_, ?_⟩
  · rw [encrypt_filled, hout, Option.map_some]
  · rw [decipher, hlib.base64 _ hout, Option.bind_eq_bind, Option.bind_some, hbytes,
      hlib.cipher _ hout, Option.bind_some]

/-- The key is derived again, and the content comes back with the zeros behind it. -/
theorem decipher_encrypt (hpack : newJsonEncryptPack random = some pack) (content : JavaString)
    (hlib : lib.Inverts crypto pack.key (filled (lib.getBytes content))) :
    (∃ n, parseInt (units pack.MagicID) = some n ∧
      (⟨units pack.TransitionID, units pack.MagicID, some []⟩ : JsonDecryptPack).combinaDecryptokey
        n = some (units pack.key) ∧ (units pack.key).length = 16) ∧
    ∃ out, encrypt crypto (lib.getBytes content) pack.key = some out ∧
      decipher lib (units out) (units pack.key) =
        some (lib.newString (filled (lib.getBytes content))) ∧
      (lib.Represents content → decipher lib (units out) (units pack.key) =
        some (content ++ List.replicate (48 - (lib.getBytes content).length) 0)) := by
  have ⟨hlo, hhi⟩ := nmagicid_range random
  have ⟨hmagicID, _, hkey⟩ := newJsonEncryptPack_parts hpack
  have ⟨pack', hpack', hlen, _⟩ := newJsonEncryptPack_key random
  rw [← Option.some.inj (hpack.symm.trans hpack')] at hlen
  constructor
  · refine ⟨nmagicid random, ?_, ?_, ?_⟩
    · rw [hmagicID]
      exact parseInt_magicID hlo hhi
    · rw [combinaDecryptokey_units, hkey, Option.map_some]
    · rw [units, List.length_map, hlen]
  · have ⟨out, hout, hplain⟩ := decipher_filled hpack content hlib
    refine ⟨out, hout, hplain, fun hrepresents => ?_⟩
    rw [hplain]
    exact congrArg some (hrepresents _)

end Pack

theorem decipher_encrypt_braces : ∃ pack, newJsonEncryptPack 5 = some pack ∧
    ∃ out, encrypt standardCrypto [0x7B, 0x7D] pack.key = some out ∧
      decipher (latinLibrary pack.key (filled [0x7B, 0x7D])) (units out) (units pack.key) =
        some ([0x7B, 0x7D] ++ List.replicate 46 0) := by
  have ⟨pack, hpack, _⟩ := newJsonEncryptPack_key 5
  have ⟨_, out, hout, _, hplain⟩ := decipher_encrypt hpack [0x7B, 0x7D]
    (latinLibrary_inverts pack.key (filled [0x7B, 0x7D]))
  exact ⟨pack, hpack, out, hout, hplain (latinLibrary_braces _ _)⟩

/-- A content of two bytes comes back with forty-six zeros. -/
theorem short_content_filled : ¬∀ (lib : DecryptLibrary) (crypto : CryptoLibrary) (random : Int32)
    (pack : JsonEncryptPack) (content : JavaString), newJsonEncryptPack random = some pack →
      lib.Inverts crypto pack.key (filled (lib.getBytes content)) → lib.Represents content →
        ∀ out, encrypt crypto (lib.getBytes content) pack.key = some out →
          decipher lib (units out) (units pack.key) = some content := by
  intro h
  have ⟨pack, hpack, _⟩ := newJsonEncryptPack_key 5
  have hinverts := latinLibrary_inverts pack.key (filled [0x7B, 0x7D])
  have hrepresents := latinLibrary_braces pack.key (filled [0x7B, 0x7D])
  have ⟨out, hout, hplain⟩ := decipher_filled hpack [0x7B, 0x7D] hinverts
  have hcontent := h _ _ _ _ _ hpack hinverts hrepresents out hout
  have hzeros := hplain.symm.trans hcontent
  cases (hrepresents 46).symm.trans (Option.some.inj hzeros)

end VerifyServer.Client
