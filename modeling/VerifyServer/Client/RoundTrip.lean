import VerifyServer.Client.StreamCut

/-!
# RoundTrip — `pack_parse` on what `pack_prepare` made

In `pack_prepare` fastjson names the members of the encrypted pack after the getters, each with its
first letter small.  `pack_parse` looks for `TransitionID` and `MagicID` with a capital, does not find
them, and passes the pack on as it came.
-/

open VerifyServer.Reasoning VerifyServer.Socket

namespace VerifyServer.Client

/-! ## 1. The pack as a JSON object -/

/-- The `JsonEncryptPack` of a content, after `encrypt()`. -/
def encryptedContent (json : JsonLibrary) (crypto : CryptoLibrary) (random : Int32)
    (json_content : JsonObject) : Option JsonEncryptPack := do
  let pack ← newJsonEncryptPack random
  some { pack with Content := encrypt crypto (json.text (.object json_content)) pack.key }

def JsonEncryptPack.text (crypto : CryptoLibrary) (pack : JsonEncryptPack) : List UInt8 :=
  crypto.toJSONString pack.Content pack.MagicID pack.TransitionID

/-- The properties of the bean: `getContent`, `getMagicID`, `getTransitionID`; one that is `null` is
left out. -/
def JsonEncryptPack.properties (pack : JsonEncryptPack) : JsonObject :=
  (pack.Content.map fun content => (lit "content", Json.string (units content))).toList ++
    [(lit "magicID", .string (units pack.MagicID)),
      (lit "transitionID", .string (units pack.TransitionID))]

/-- What `org.json` reads from the text that fastjson wrote for the pack are the properties of the
pack, and `getString` throws for a name that is not there. -/
structure DecryptLibrary.ReadsBean (lib : DecryptLibrary) (crypto : CryptoLibrary)
    (pack : JsonEncryptPack) : Prop where
  reads : ∃ o, lib.newJSONObject (pack.text crypto) = some o ∧
    ∀ key, o.get key = pack.properties.get key
  missing : ∀ (o : JsonObject) (name : JavaString), o.get name = none → lib.getString o name = none

/-- A call of `pack_parse` returned one element, a JSON text with the content as it was. -/
def RoundTrips (lib : DecryptLibrary) (s : TcpStreamPack) (data : TcpData) (content : JsonObject) :
    Prop :=
  ∃ fuel r out o content', packParse lib fuel s data = some r ∧ r.thrown = none ∧
    r.pack_list = [out] ∧ lib.newJSONObject out = some o ∧
    o.get (lit "content") = some (.object content') ∧
      ∀ key, JsonObject.get content' key = content.get key

section Message

variable {json : JsonLibrary} {crypto : CryptoLibrary} {random : Int32} {in_buf : List UInt8}
  {o content : JsonObject}

theorem encryptedPack_eq (ho : json.parse in_buf = some o)
    (hcontent : o.get (lit "content") = some (.object content)) :
    encryptedPack json crypto random in_buf =
      (encryptedContent json crypto random content).map (JsonEncryptPack.text crypto) := by
  have ⟨pack, hpack, _⟩ := newJsonEncryptPack_key random
  simp only [encryptedPack, encryptedContent, ho, hcontent, hpack, bind, Option.bind_some,
    Option.map_some, JsonEncryptPack.text]

/-- `pack_prepare` frames the text of the pack. -/
theorem tcpPackPrepare_pack {out : List UInt8} (ho : json.parse in_buf = some o)
    (hcontent : o.get (lit "content") = some (.object content))
    (hout : tcpPackPrepare json crypto random in_buf = some out) :
    ∃ pack, encryptedContent json crypto random content = some pack ∧
      packPrepare (pack.text crypto) (pack.text crypto).length 50 = some out := by
  simp only [tcpPackPrepare, bind, Option.bind_eq_some_iff, encryptedPack_eq ho hcontent,
    Option.map_eq_some_iff] at hout
  have ⟨_, ⟨pack, hpack, heq⟩, hframe⟩ := hout
  subst heq
  exact ⟨pack, hpack, hframe⟩

end Message

/-! ## 2. `pack_parse` -/

variable {lib : DecryptLibrary} {crypto : CryptoLibrary} {pack : JsonEncryptPack}

theorem properties_capital (pack : JsonEncryptPack) :
    pack.properties.get (lit "TransitionID") = none := by
  obtain ⟨transitionID, magicID, content, key⟩ := pack
  cases content <;> rfl

/-- A pack is passed on without being deciphered. -/
theorem parsePayload_pack (h : lib.ReadsBean crypto pack) :
    parsePayload lib (pack.text crypto) = .ok (pack.text crypto) := by
  have ⟨o, ho, hget⟩ := h.reads
  have hmissing := h.missing o (lit "TransitionID") ((hget _).trans (properties_capital pack))
  simp only [parsePayload, ho, hmissing]

/-- The content of a pack is a string. -/
theorem pack_content_string (h : lib.ReadsBean crypto pack) {o v : JsonObject}
    (ho : lib.newJSONObject (pack.text crypto) = some o) :
    o.get (lit "content") ≠ some (.object v) := by
  have ⟨o', ho', hget⟩ := h.reads
  obtain rfl := Option.some.inj (ho.symm.trans ho')
  rw [hget]
  obtain ⟨transitionID, magicID, content, key⟩ := pack
  cases content with
  | none => exact nofun
  | some content => exact nofun

/-- Nothing to read ends a call. -/
theorem packParse_empty (fuel : Nat) (s : TcpStreamPack) (array : List UInt8) :
    packParse lib (fuel + 1) s ⟨array, 0⟩ = some ⟨s, [], [], none⟩ := rfl

/-- A new `TcpStreamPack` that gets the frame of a pack takes it in one round. -/
theorem packParse_round (h : lib.ReadsBean crypto pack) (fuel : Nat) {nBuffLen : Nat}
    {out : List UInt8} (stale : List UInt8) (hint : nBuffLen * 2 < 2 ^ 31)
    (hfits : out.length ≤ nBuffLen * 2)
    (hframe : packPrepare (pack.text crypto) (pack.text crypto).length 50 = some out) :
    ∃ s array, packParse lib (fuel + 1) (newTcpStreamPack nBuffLen) ⟨out ++ stale, out.length⟩ =
      (packParse lib fuel s ⟨array, 0⟩).map fun next => { next with
        packs := (out ++ [0]) :: next.packs, pack_list := pack.text crypto :: next.pack_list } := by
  have hlen : out.length = (pack.text crypto).length + 15 := by
    rw [packPrepare_bytes, Option.some.injEq] at hframe
    rw [← hframe]
    unfold frameHead
    simp only [List.length_append, leBytes_length, List.length_cons, List.length_nil]
    omega
  have ⟨f, hpayload, _, hf⟩ := packPrepare_frame (by unfold flagLen; omega) hframe
  subst hf
  have hrevbuf : (newTcpStreamPack nBuffLen).revbuf.length = nBuffLen * 2 := List.length_replicate
  have hdata : (⟨f.bytes ++ stale, f.bytes.length⟩ : TcpData).data = f.bytes ++ [] ++ stale := by
    rw [List.append_nil]
  have ⟨s, hsave⟩ : ∃ s, packSave (newTcpStreamPack nBuffLen) ⟨f.bytes ++ stale, f.bytes.length⟩ =
      ⟨s, ⟨f.bytes ++ stale, 0⟩, .ok (some (f.bytes ++ [0]))⟩ :=
    ⟨_, packSave_front hdata (by rw [List.append_nil]) (by rw [hrevbuf]; rfl)
      (by rw [List.append_nil, hrevbuf]; exact hfits) (by omega)⟩
  have hparse : parsePack lib (f.bytes ++ [0]) = .ok [pack.text crypto] := by
    rw [← packet, parsePack_packet, hpayload, parsePayload_pack h]
    rfl
  refine ⟨s, f.bytes ++ stale, ?_⟩
  rw [packParse, hsave]
  simp only [hparse]
  rfl

/-- The call returns the pack's text, in which the content is a string. -/
theorem pack_round_trip_fails (h : lib.ReadsBean crypto pack) {nBuffLen : Nat} {out : List UInt8}
    (stale : List UInt8) (hint : nBuffLen * 2 < 2 ^ 31) (hfits : out.length ≤ nBuffLen * 2)
    (hframe : packPrepare (pack.text crypto) (pack.text crypto).length 50 = some out)
    (content : JsonObject) :
    ¬ RoundTrips lib (newTcpStreamPack nBuffLen) ⟨out ++ stale, out.length⟩ content := by
  intro ⟨fuel, r, text, o, v, hr, _, hlist, hread, hv, _⟩
  have htext : text = pack.text crypto := by
    cases fuel with
    | zero => cases hr
    | succ fuel =>
      have ⟨s, array, hround⟩ := packParse_round h fuel stale hint hfits hframe
      rw [hround] at hr
      cases fuel with
      | zero => cases hr
      | succ fuel =>
        rw [packParse_empty, Option.map_some, Option.some.injEq] at hr
        rw [← hr] at hlist
        exact (List.singleton_inj.mp hlist).symm
  subst htext
  exact pack_content_string h hread hv

/-- **No content comes back.**  Whatever the message and the magic number, `pack_parse` does not
return the content that `pack_prepare` was given. -/
theorem round_trip_fails {json : JsonLibrary} {random : Int32} {in_buf out stale : List UInt8}
    {o content : JsonObject} {nBuffLen : Nat} (ho : json.parse in_buf = some o)
    (hcontent : o.get (lit "content") = some (.object content))
    (hbean : ∀ pack, encryptedContent json crypto random content = some pack →
      lib.ReadsBean crypto pack)
    (hout : tcpPackPrepare json crypto random in_buf = some out)
    (hint : nBuffLen * 2 < 2 ^ 31) (hfits : out.length ≤ nBuffLen * 2) :
    ¬ RoundTrips lib (newTcpStreamPack nBuffLen) ⟨out ++ stale, out.length⟩ content := by
  have ⟨pack, hpack, hframe⟩ := tcpPackPrepare_pack ho hcontent hout
  exact pack_round_trip_fails (hbean pack hpack) stale hint hfits hframe content

/-! ## 3. A message that fits -/

theorem base64_length_le (data : List UInt8) : (base64 data).length ≤ 2 * data.length + 4 := by
  fun_induction base64 data with
  | case1 data h =>
    rw [base64Line_length]
    omega
  | case2 data h ih =>
    simp only [List.length_append, base64Line_length, List.length_take, List.length_drop,
      List.length_singleton] at ih ⊢
    omega

/-- At most one character of a pack in two is an escape. -/
theorem packText_length_le (content magicID transitionID : List UInt8) :
    (packText (some content) magicID transitionID).length ≤
      2 * (content.length + magicID.length + transitionID.length) + 64 := by
  have hescape (value : List UInt8) :
      (value.flatMap fun c => if c = 0x0A then [0x5C, 0x6E] else [c]).length ≤
        2 * value.length := by
    induction value with
    | nil => exact Nat.le_refl 0
    | cons c value ih =>
      have hone : (if c = 0x0A then [(0x5C : UInt8), 0x6E] else [c]).length ≤ 2 := by
        split <;> simp
      rw [List.flatMap_cons, List.length_append, List.length_cons]
      omega
  have h₁ := hescape content
  have h₂ := hescape magicID
  have h₃ := hescape transitionID
  have hnames : (ascii "content").length = 7 ∧ (ascii "magicID").length = 7 ∧
    (ascii "transitionID").length = 12 := ⟨rfl, rfl, rfl⟩
  simp only [packText, Option.map_some, Option.getD_some, List.length_append, List.length_cons,
    List.length_nil, hnames]
  omega

/-- A library that reads the text of the one pack. -/
def beanReader (crypto : CryptoLibrary) (pack : JsonEncryptPack) : DecryptLibrary where
  newJSONObject text := if text = pack.text crypto then some pack.properties else none
  getString o name :=
    match o.get name with
    | some (.string s) => some s
    | _ => none
  isNull _ _ := false
  getBytes s := s.map UInt16.toUInt8
  newString := units
  decodeBuffer _ := none
  doFinal _ _ := none
  parseObject _ := none
  toJSONString _ _ _ := []

theorem beanReader_reads (crypto : CryptoLibrary) (pack : JsonEncryptPack) :
    (beanReader crypto pack).ReadsBean crypto pack where
  reads := ⟨pack.properties, if_pos rfl, fun _ => rfl⟩
  missing o name h := by
    show (match o.get name with | some (.string s) => some s | _ => none) = none
    rw [h]

/-- The message with an empty content. -/
def emptyMessage : JsonObject := [(lit "content", .object [])]

/-- A text of fewer than 48 bytes is encrypted into four blocks. -/
theorem encrypt_short (content : List UInt8) {key : List UInt8} (hshort : content.length < 48)
    (hkey : key.length = 16) :
    ∃ result, encrypt standardCrypto content key = some (base64 result) ∧ result.length = 64 := by
  have hpadded : (content ++ List.replicate (48 - content.length) (0 : UInt8)).length = 48 := by
    rw [List.length_append, List.length_replicate]
    omega
  have ⟨result, hresult, hlen⟩ := Aes.doFinal_length
    (content ++ List.replicate (48 - content.length) 0) hkey
  rw [hpadded] at hlen
  refine ⟨result, ?_, hlen⟩
  rw [encrypt, if_pos hshort, hresult]
  rfl

theorem asciiJson_parse (o : JsonObject) :
    (asciiJson o).parse (jsonText (.object o)) = some o := if_pos rfl

/-- Its pack has a frame that fits a kilobyte. -/
theorem emptyMessage_fits :
    ∃ pack out, encryptedContent (asciiJson emptyMessage) standardCrypto 0 [] = some pack ∧
      tcpPackPrepare (asciiJson emptyMessage) standardCrypto 0
        (jsonText (.object emptyMessage)) = some out ∧
      packPrepare (pack.text standardCrypto) (pack.text standardCrypto).length 50 = some out ∧
      out.length ≤ 1024 := by
  have ⟨new, hnew, hkey, htransition⟩ := newJsonEncryptPack_key 0
  have hmagic : new.MagicID.length = 1 := by
    have hone : (newJsonEncryptPack 0).map (·.MagicID.length) = some 1 := by decide +kernel
    rw [hnew] at hone
    exact Option.some.inj hone
  have ⟨result, hresult, hlen⟩ := encrypt_short [0x7B, 0x7D] (by decide) hkey
  have hpack : encryptedContent (asciiJson emptyMessage) standardCrypto 0 [] =
      some { new with Content := some (base64 result) } := by
    have htext : (asciiJson emptyMessage).text (.object []) = [0x7B, 0x7D] := rfl
    simp only [encryptedContent, hnew, htext, hresult, bind, Option.bind_some]
  refine ⟨_, _, hpack, ?_, packPrepare_bytes _ 50, ?_⟩
  · rw [tcpPackPrepare, encryptedPack_eq (asciiJson_parse emptyMessage) rfl, hpack]
    exact packPrepare_bytes _ 50
  · have htext : (JsonEncryptPack.text standardCrypto
        { new with Content := some (base64 result) }).length ≤ _ :=
      packText_length_le (base64 result) new.MagicID new.TransitionID
    have hbase64 := base64_length_le result
    simp only [List.length_append, leBytes_length, frameHead, List.length_cons, List.length_nil]
    omega

/-- The empty content does not come back. -/
theorem round_trip_fails_empty :
    ∃ pack out, encryptedContent (asciiJson emptyMessage) standardCrypto 0 [] = some pack ∧
      tcpPackPrepare (asciiJson emptyMessage) standardCrypto 0
        (jsonText (.object emptyMessage)) = some out ∧
      ¬ RoundTrips (beanReader standardCrypto pack) (newTcpStreamPack 1024)
        ⟨out ++ [], out.length⟩ [] := by
  have ⟨pack, out, hpack, hout, hframe, hlen⟩ := emptyMessage_fits
  refine ⟨pack, out, hpack, hout, round_trip_fails (asciiJson_parse emptyMessage) rfl
    (fun p hp => ?_) hout (by decide) (by omega)⟩
  rw [Option.some.inj (hpack.symm.trans hp)]
  exact beanReader_reads standardCrypto p

/-- The frame of a message with an empty content: the pack comes out as it went in. -/
theorem round_trip_not_identity :
    ¬ ∀ (pack : JsonEncryptPack) (out : List UInt8),
      encryptedContent (asciiJson emptyMessage) standardCrypto 0 [] = some pack →
        tcpPackPrepare (asciiJson emptyMessage) standardCrypto 0
          (jsonText (.object emptyMessage)) = some out →
        RoundTrips (beanReader standardCrypto pack) (newTcpStreamPack 1024)
          ⟨out ++ [], out.length⟩ [] := by
  intro hall
  have ⟨pack, out, hpack, hout, hframe, hlen⟩ := emptyMessage_fits
  exact pack_round_trip_fails (beanReader_reads _ pack) [] (by decide) (by omega) hframe []
    (hall pack out hpack hout)

end VerifyServer.Client
