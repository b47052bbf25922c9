import VerifyServer.Reasoning.JavaString
import VerifyServer.Reasoning.Md5
import VerifyServer.Reasoning.Utf8

/-!
# Md5Unit — passwords as they are sent and stored
-/

open VerifyServer.Reasoning

namespace VerifyServer.Client

/-- `String.getBytes()`; a surrogate without its partner becomes a question mark. -/
def getBytes (s : JavaString) : List UInt8 := utf8 [0x3F] s

def hexDigits : JavaString := lit "0123456789abcdef"

def getFormattedText (bytes : List UInt8) : JavaString :=
  bytes.flatMap fun b => [hexDigits.getD (b.toNat / 16) 0, hexDigits.getD (b.toNat % 16) 0]

def encodeToMd5String : Option JavaString → JavaString
  | none | some [] => lit "000000"
  | some string_dst => getFormattedText (Md5.md5 (getBytes string_dst))

def encodePasswordByCardnumber : Option JavaString → Option JavaString → JavaString
  | none, _ | some [], _ | _, none | _, some [] => lit "000000"
  | some cardnumber, some strpassword =>
    getFormattedText (Md5.md5 (getBytes (cardnumber ++ strpassword)))

theorem getFormattedText_length (bytes : List UInt8) :
    (getFormattedText bytes).length = 2 * bytes.length := by
  induction bytes with
  | nil => rfl
  | cons b bytes ih =>
    show (_ :: _ :: getFormattedText bytes).length = _
    rw [List.length_cons, List.length_cons, ih, List.length_cons]
    omega

/-- Made of digits, two for each byte. -/
def IsHex (s : JavaString) : Prop := ∀ c ∈ s, c ∈ hexDigits

theorem IsHex.all {s : JavaString} (hs : IsHex s) {p : UInt16 → Bool}
    (hp : hexDigits.all p = true) : ∀ c ∈ s, p c = true :=
  fun c hc => List.all_eq_true.mp hp c (hs c hc)

theorem hexDigits_getD_mem {i : Nat} (hi : i < 16) : hexDigits.getD i 0 ∈ hexDigits := by
  have hlen : i < hexDigits.length := hi
  rw [List.getD_eq_getElem _ _ hlen]
  exact List.getElem_mem hlen

theorem getFormattedText_isHex (bytes : List UInt8) : IsHex (getFormattedText bytes) := by
  intro c hc
  have ⟨b, _, hb⟩ := List.mem_flatMap.mp hc
  have hlt := b.toNat_lt
  rcases List.mem_cons.mp hb with rfl | hb
  · exact hexDigits_getD_mem (by omega)
  · rw [List.mem_singleton.mp hb]
    exact hexDigits_getD_mem (by omega)

theorem getFormattedText_injective {a b : List UInt8}
    (h : getFormattedText a = getFormattedText b) : a = b := by
  have hdigit : ∀ i < 16, ∀ j < 16, hexDigits.getD i 0 = hexDigits.getD j 0 → i = j := by
    decide +kernel
  induction a generalizing b with
  | nil =>
    cases b with
    | nil => rfl
    | cons y b => nomatch h
  | cons x a ih =>
    cases b with
    | nil => nomatch h
    | cons y b =>
      have hx := x.toNat_lt
      have hy := y.toNat_lt
      have hcons : hexDigits.getD (x.toNat / 16) 0 :: hexDigits.getD (x.toNat % 16) 0 ::
          getFormattedText a =
          hexDigits.getD (y.toNat / 16) 0 :: hexDigits.getD (y.toNat % 16) 0 ::
          getFormattedText b := h
      rw [List.cons.injEq, List.cons.injEq] at hcons
      have hhigh := hdigit _ (by omega) _ (by omega) hcons.1
      have hlow := hdigit _ (by omega) _ (by omega) hcons.2.1
      rw [ih hcons.2.2, UInt8.toNat_inj.mp (show x.toNat = y.toNat by omega)]

/-- The text that stands for no password is not the digest of any. -/
theorem encodeToMd5String_eq_none {s : Option JavaString} :
    encodeToMd5String s = encodeToMd5String none ↔ s = none ∨ s = some [] := by
  constructor
  · intro h
    match s with
    | none => exact .inl rfl
    | some [] => exact .inr rfl
    | some (c :: cs) =>
      have hlen :
          (getFormattedText (Md5.md5 (getBytes (c :: cs)))).length = (lit "000000").length :=
        congrArg List.length h
      rw [getFormattedText_length, Md5.md5_length] at hlen
      exact absurd hlen (by decide)
  · rintro (rfl | rfl) <;> rfl

theorem encodePasswordByCardnumber_eq {c p : JavaString} (hc : c ≠ []) (hp : p ≠ []) :
    encodePasswordByCardnumber (some c) (some p) =
      getFormattedText (Md5.md5 (getBytes (c ++ p))) := by
  cases c with
  | nil => exact absurd rfl hc
  | cons x c =>
    cases p with
    | nil => exact absurd rfl hp
    | cons y p => rfl

/-- For one card number, on bytes where `MD5` has no collisions. -/
theorem encodePasswordByCardnumber_injective {hashed : Set (List UInt8)}
    (hmd5 : Set.InjOn Md5.md5 hashed) {c p q : JavaString} (hc : c ≠ []) (hp : p ≠ [])
    (hq : q ≠ []) (hcpaired : paired c = true) (hppaired : paired p = true)
    (hqpaired : paired q = true) (hphashed : getBytes (c ++ p) ∈ hashed)
    (hqhashed : getBytes (c ++ q) ∈ hashed)
    (h : encodePasswordByCardnumber (some c) (some p) =
      encodePasswordByCardnumber (some c) (some q)) : p = q := by
  rw [encodePasswordByCardnumber_eq hc hp, encodePasswordByCardnumber_eq hc hq] at h
  have hbytes := hmd5 hphashed hqhashed (getFormattedText_injective h)
  exact List.append_cancel_left
    (utf8_injective (paired_append hcpaired hppaired) (paired_append hcpaired hqpaired) hbytes)

end VerifyServer.Client
