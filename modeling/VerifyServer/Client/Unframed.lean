import VerifyServer.Client.JsonEncryptPack
import VerifyServer.Socket.Budget

/-!
# Unframed — what the server makes of a committed card message

`commit_regist` and `commit_verify` write the JSON text as it is; nothing on the way from
`prepare_data` to the stream builds a frame.  What `SaveData` delivers of it is fifteen bytes shorter
than what it received, or nothing, and so neither the message nor its encrypted pack.
-/

open VerifyServer.Reasoning VerifyServer.Socket

namespace VerifyServer.Client

/-! ## 1. The committed message -/

inductive CardInfo where
  | regist (info : CardRegistInfo)
  | verify (info : CardVerifyInfo)

def CardInfo.message : CardInfo → JsonObject
  | .regist info => registCardMessage (some info)
  | .verify info => verifyCardMessage (some info)

/-- The bytes that committing the information writes to the stream. -/
def CardInfo.written (json : JsonLibrary) (user : OnlineClientUser)
    (later : Option OnlineClientUser) : CardInfo → List UInt8
  | .regist info => user.commitRegist json later info
  | .verify info => user.commitVerify json later info

theorem written_prefix (json : JsonLibrary) (user : OnlineClientUser)
    (later : Option OnlineClientUser) (info : CardInfo) :
    info.written json user later <+: json.text (.object info.message) := by
  cases info with
  | regist info => exact commit_prefix user later _
  | verify info => exact commit_prefix user later _

/-- The three members of a message. -/
theorem message_eq (ctype : JavaString) (cvalue : JsonObject) :
    message ctype cvalue =
      [(lit "transitionid", .string []), (lit "magicid", .string []),
        (lit "content", .object [(lit "ctype", .string ctype), (lit "cvalue", .object cvalue)])] := by
  have h₁ : lit "ctype" ≠ lit "cvalue" := by decide
  have h₂ : lit "transitionid" ≠ lit "magicid" := by decide
  have h₃ : lit "transitionid" ≠ lit "content" := by decide
  have h₄ : lit "magicid" ≠ lit "content" := by decide
  simp [message, JsonObject.put, h₁, h₂, h₃, h₄]

/-- The text around the content takes 43 bytes. -/
theorem message_length {json : JsonLibrary} (hjson : json.Prints) (ctype : JavaString)
    (cvalue : JsonObject) :
    ∃ content, (message ctype cvalue).get (lit "content") = some (.object content) ∧
      (json.text (.object (message ctype cvalue))).length =
        (json.text (.object content)).length + 43 := by
  rw [message_eq]
  refine ⟨_, rfl, ?_⟩
  have hempty : (json.text (.string [])).length = 2 := hjson.name [] rfl
  have h₁ : (json.text (.string (lit "transitionid"))).length = 14 :=
    hjson.name _ (by decide)
  have h₂ : (json.text (.string (lit "magicid"))).length = 9 :=
    hjson.name _ (by decide)
  have h₃ : (json.text (.string (lit "content"))).length = 9 :=
    hjson.name _ (by decide)
  have hnodup : [lit "transitionid", lit "magicid", lit "content"].Nodup := by decide
  rw [hjson.object [(lit "transitionid", _), (lit "magicid", _), (lit "content", _)] hnodup]
  simp only [JsonLibrary.member, List.map_cons, List.map_nil, List.sum_cons, List.sum_nil,
    List.length_cons, List.length_nil, hempty, h₁, h₂, h₃]
  omega

theorem cardInfo_message (info : CardInfo) : ∃ ctype cvalue, info.message = message ctype cvalue := by
  cases info with
  | regist info => exact ⟨_, _, rfl⟩
  | verify info => exact ⟨_, _, rfl⟩

/-! ## 2. What the server delivers of it -/

/-- `SaveData` made one delivery, of the message, of its encrypted pack or of that pack's frame. -/
def DeliversMessage (json : JsonLibrary) (crypto : CryptoLibrary) (o : JsonObject) (r : Saved) :
    Prop :=
  ∃ rev, r.revs = [rev] ∧
    (rev.rev_buf = json.text (.object o) ++ [0] ∨
      ∃ random pack, (encryptedPack json crypto random (json.text (.object o)) = some pack ∨
        tcpPackPrepare json crypto random (json.text (.object o)) = some pack) ∧
        rev.rev_buf = pack ++ [0])

/-- The framed pack is longer than the pack. -/
theorem tcpPackPrepare_length {json : JsonLibrary} {crypto : CryptoLibrary} {random : Int32}
    {in_buf out : List UInt8} (h : tcpPackPrepare json crypto random in_buf = some out) :
    ∃ pack, encryptedPack json crypto random in_buf = some pack ∧ pack.length ≤ out.length := by
  simp only [tcpPackPrepare, bind, Option.bind_eq_some_iff] at h
  obtain ⟨pack, hpack, h⟩ := h
  refine ⟨pack, hpack, ?_⟩
  simp only [packPrepare, bind, Option.bind_eq_some_iff, Option.some.injEq] at h
  obtain ⟨-, -, rfl⟩ := h
  simp only [List.length_append, List.take_length]
  omega

/-- An encrypted pack is at most fourteen bytes shorter than the message it was made from. -/
theorem encryptedPack_message_length {json : JsonLibrary} {crypto : CryptoLibrary}
    (hjson : json.Prints) (hcrypto : crypto.Documented) (info : CardInfo)
    (hread : json.ReadsBack info.message) {random : Int32} {pack : List UInt8}
    (h : encryptedPack json crypto random (json.text (.object info.message)) = some pack) :
    (json.text (.object info.message)).length ≤ pack.length + 14 := by
  obtain ⟨o, content, ho, hcontent, hlen⟩ := encryptedPack_length hcrypto h
  obtain ⟨ctype, cvalue, hmessage⟩ := cardInfo_message info
  obtain ⟨content₀, hget, hlen₀⟩ := message_length hjson ctype cvalue
  rw [← hmessage] at hget hlen₀
  -- the content encrypted is the content sent, with the same text
  obtain ⟨o', ho', hmembers⟩ := hread
  obtain rfl := Option.some.inj (ho.symm.trans ho')
  obtain ⟨content', hcontent', htext⟩ := hmembers _ _ hget
  rw [hcontent, Option.some.injEq, Json.object.injEq] at hcontent'
  rw [hlen₀, ← htext, ← hcontent']
  omega

/-- No chunks of a first part of the message make `SaveData` deliver it. -/
theorem not_delivers {json : JsonLibrary} {crypto : CryptoLibrary} (hjson : json.Prints)
    (hcrypto : crypto.Documented) (env : SaveEnv) {pIo : IoContext} (hclean : pIo.Clean)
    (info : CardInfo) (hread : json.ReadsBack info.message) (chunks : List (List UInt8))
    (hcut : chunks.flatten <+: json.text (.object info.message)) :
    ¬ DeliversMessage json crypto info.message (saveChunks env pIo chunks) := by
  rintro ⟨rev, hrevs, hpayload⟩
  have hbudget := saveChunks_budget env chunks pIo (sized_of_clean hclean)
  rw [held_of_clean hclean, hrevs, cost_singleton, Nat.zero_add] at hbudget
  have hreceived := hcut.length_le
  rcases hpayload with hbuf | ⟨random, pack, hpack | hpack, hbuf⟩
  · rw [hbuf, List.length_append, List.length_singleton] at hbudget
    omega
  · have hlen := encryptedPack_message_length hjson hcrypto info hread hpack
    rw [hbuf, List.length_append, List.length_singleton] at hbudget
    omega
  · obtain ⟨inner, hinner, hle⟩ := tcpPackPrepare_length hpack
    have hlen := encryptedPack_message_length hjson hcrypto info hread hinner
    rw [hbuf, List.length_append, List.length_singleton] at hbudget
    omega

/-- **No commit arrives.**  Whatever the card information, the state of the client and the way its
bytes are cut, the server does not deliver the message or its encrypted pack. -/
theorem commit_never_arrives {json : JsonLibrary} {crypto : CryptoLibrary} (hjson : json.Prints)
    (hcrypto : crypto.Documented) (env : SaveEnv) {pIo : IoContext} (hclean : pIo.Clean)
    (user : OnlineClientUser) (later : Option OnlineClientUser) (info : CardInfo)
    (hread : json.ReadsBack info.message) (chunks : List (List UInt8))
    (hcut : chunks.flatten = info.written json user later) :
    ¬ DeliversMessage json crypto info.message (saveChunks env pIo chunks) :=
  not_delivers hjson hcrypto env hclean info hread chunks (hcut ▸ written_prefix json user later info)

/-- Card `1` with password `2`, on an open socket. -/
def cardOne : CardInfo := .verify ⟨some (lit "1"), some (lit "2")⟩

def openUser : OnlineClientUser := ⟨some ⟨true, 1024⟩, false⟩

theorem commit_never_arrives_one :
    ¬ DeliversMessage (asciiJson cardOne.message) standardCrypto cardOne.message
      (saveChunks ⟨true, fun bs => bs.length⟩ {}
        [cardOne.written (asciiJson cardOne.message) openUser none]) :=
  commit_never_arrives (asciiJson_prints _) standardCrypto_documented _ (by decide) openUser none
    cardOne (asciiJson_readsBack _) _ (List.append_nil _)

theorem message_not_delivered :
    ¬ ∀ (info : CardInfo) (user : OnlineClientUser) (later : Option OnlineClientUser)
      (chunks : List (List UInt8)),
      chunks.flatten = info.written (asciiJson info.message) user later →
        DeliversMessage (asciiJson info.message) standardCrypto info.message
          (saveChunks ⟨true, fun bs => bs.length⟩ {} chunks) := fun h =>
  not_delivers (asciiJson_prints _) standardCrypto_documented _ (by decide) cardOne
    (asciiJson_readsBack _) [cardOne.written _ openUser none]
    (by rw [List.flatten_singleton]; exact written_prefix _ _ _ _)
    (h cardOne openUser none _ (List.append_nil _))

end VerifyServer.Client
