import VerifyServer.Client.StreamRounds

/-!
# StreamSafety — which exceptions a round of `pack_parse` throws

`pack_parse` declares `JSONException`.  The lengths, the magic id and the transition id are the
peer's; which of them make a round throw another exception is worked out from the round's data.  An
exception that `_pack_save` catches itself counts.
-/

open VerifyServer.Reasoning VerifyServer.Socket

namespace VerifyServer.Client

/-! ## 1. The ids -/

/-- An object whose ids are used has a number for its magic id, and both key parts that long. -/
def IdsRight (lib : DecryptLibrary) (out_buf : List UInt8) : Prop :=
  ∀ o transitionID magicID content, lib.newJSONObject out_buf = some o →
    lib.getString o (lit "TransitionID") = some transitionID →
      lib.getString o (lit "MagicID") = some magicID →
        ¬(lib.isNull o (lit "TransitionID") ∨ lib.isNull o (lit "MagicID")) →
          lib.getString o (lit "Content") = some content → transitionID ≠ [] → magicID ≠ [] →
            ∃ n, parseInt magicID = some n ∧ 0 ≤ n ∧ n ≤ 16 ∧ n ≤ transitionID.length

theorem substring_isSome {α : Type} {s : List α} {i j : Int} :
    (substring s i j).isSome ↔ 0 ≤ i ∧ i ≤ j ∧ j ≤ s.length := by
  unfold substring
  split
  · next h => exact iff_of_true rfl h
  · next h => exact iff_of_false nofun h

theorem combinaDecryptokey_isSome (pack : JsonDecryptPack) (n : Int) :
    (pack.combinaDecryptokey n).isSome ↔ 0 ≤ n ∧ n ≤ 16 ∧ n ≤ pack.TransitionID.length := by
  have hsrc : (lit "idverahs-opqlkjm").length = 16 := by decide
  have h1 := substring_isSome (s := lit "idverahs-opqlkjm") (i := n) (j := 16)
  have h2 := substring_isSome (s := pack.TransitionID) (i := 0) (j := n)
  rw [hsrc] at h1
  unfold JsonDecryptPack.combinaDecryptokey keyLen
  cases hs1 : substring (lit "idverahs-opqlkjm") n 16 with
  | none =>
    rw [hs1] at h1
    exact iff_of_false nofun fun h => nomatch h1.mpr ⟨h.1, h.2.1, by decide⟩
  | some s1 =>
    rw [hs1] at h1
    have hn := h1.mp rfl
    cases hs2 : substring pack.TransitionID 0 n with
    | none =>
      rw [hs2] at h2
      exact iff_of_false nofun fun h => nomatch h2.mpr ⟨by omega, h.1, h.2.2⟩
    | some s2 =>
      rw [hs2] at h2
      exact iff_of_true rfl ⟨hn.1, hn.2.1, (h2.mp rfl).2.2⟩

/-- `decrypt` throws nothing but `JSONException`. -/
theorem decrypt_declared (lib : DecryptLibrary) (pack : JsonDecryptPack) (str_in : JavaString) :
    (∀ e, pack.decrypt lib str_in = .error e → e = .json) ↔
      (pack.TransitionID ≠ [] → pack.MagicID ≠ [] → ∃ n, parseInt pack.MagicID = some n ∧
        0 ≤ n ∧ n ≤ 16 ∧ n ≤ pack.TransitionID.length) := by
  unfold JsonDecryptPack.decrypt
  split
  · next hids =>
    cases hparse : parseInt pack.MagicID with
    | none => exact iff_of_false (fun h => nomatch h _ rfl) fun h => nomatch h hids.1 hids.2
    | some n =>
      have hkey := combinaDecryptokey_isSome pack n
      dsimp only
      cases hcombine : pack.combinaDecryptokey n with
      | none =>
        rw [hcombine] at hkey
        refine iff_of_false (fun h => nomatch h _ rfl) fun h => ?_
        have ⟨m, hm, hrange⟩ := h hids.1 hids.2
        rw [← Option.some.inj hm] at hrange
        cases hkey.mpr hrange
      | some key =>
        rw [hcombine] at hkey
        refine iff_of_true (fun e he => ?_) fun _ _ => ⟨n, rfl, hkey.mp rfl⟩
        dsimp only at he
        split at he <;> cases he
        rfl
  · next hids =>
    exact iff_of_true nofun fun ht hm => absurd ⟨ht, hm⟩ hids

/-- An object whose ids are not used, or throws itself. -/
theorem idsRight_of_not {lib : DecryptLibrary} {out_buf : List UInt8}
    (h : ∀ o transitionID magicID content, lib.newJSONObject out_buf = some o →
      lib.getString o (lit "TransitionID") = some transitionID →
        lib.getString o (lit "MagicID") = some magicID →
          lib.getString o (lit "Content") = some content →
            lib.isNull o (lit "TransitionID") ∨ lib.isNull o (lit "MagicID")) :
    IdsRight lib out_buf :=
  fun o t m c ho ht hm hnull hc _ _ => absurd (h o t m c ho ht hm hc) hnull

theorem map_eq_error {ε α β : Type} {f : α → β} {x : Except ε α} {e : ε} :
    x.map f = .error e ↔ x = .error e := by
  cases x with
  | error e' =>
    exact ⟨fun h => congrArg _ (Except.error.inj h), fun h => congrArg _ (Except.error.inj h)⟩
  | ok a => exact iff_of_false nofun nofun

theorem parsePayload_declared (lib : DecryptLibrary) (out_buf : List UInt8) :
    (∀ e, parsePayload lib out_buf = .error e → e = .json) ↔ IdsRight lib out_buf := by
  unfold parsePayload
  cases ho : lib.newJSONObject out_buf with
  | none =>
    refine iff_of_true (fun e he => by cases he; rfl) (idsRight_of_not ?_)
    intro o t m c ho'
    cases ho.symm.trans ho'
  | some o =>
    dsimp only
    cases ht : lib.getString o (lit "TransitionID") with
    | none =>
      refine iff_of_true nofun (idsRight_of_not ?_)
      intro o' t m c ho' ht'
      rw [← Option.some.inj (ho.symm.trans ho')] at ht'
      cases ht.symm.trans ht'
    | some t =>
      cases hm : lib.getString o (lit "MagicID") with
      | none =>
        refine iff_of_true nofun (idsRight_of_not ?_)
        intro o' t m c ho' _ hm'
        rw [← Option.some.inj (ho.symm.trans ho')] at hm'
        cases hm.symm.trans hm'
      | some m =>
        dsimp only
        split
        · next hnull =>
          refine iff_of_true nofun (idsRight_of_not ?_)
          intro o' t m c ho' _ _ _
          rw [← Option.some.inj (ho.symm.trans ho')]
          exact hnull
        · next hnull =>
          cases hc : lib.getString o (lit "Content") with
          | none =>
            refine iff_of_true (fun e he => by cases he; rfl) (idsRight_of_not ?_)
            intro o' t m c ho' _ _ hc'
            rw [← Option.some.inj (ho.symm.trans ho')] at hc'
            cases hc.symm.trans hc'
          | some c =>
            have hdecrypt := decrypt_declared lib ⟨t, m, some []⟩ c
            have hids : IdsRight lib out_buf ↔ (t ≠ [] → m ≠ [] →
                ∃ n, parseInt m = some n ∧ 0 ≤ n ∧ n ≤ 16 ∧ n ≤ t.length) := by
              constructor
              · exact fun h => h o t m c ho ht hm hnull hc
              · intro h o' t' m' c' ho' ht' hm' _ _
                rw [← Option.some.inj (ho.symm.trans ho')] at ht' hm'
                rw [← Option.some.inj (ht.symm.trans ht'), ← Option.some.inj (hm.symm.trans hm')]
                exact h
            rw [hids, ← hdecrypt]
            exact forall_congr' fun e => imp_congr_left map_eq_error

/-! ## 2. The packet -/

/-- The payload of a packet of length `n` at the front of an array. -/
def payloadOf (buf : List UInt8) (n : Int) : List UInt8 := (buf.drop 10).take (n - 15).toNat

/-- A length too small for a header, or enough for a header and a trailer, with a payload that is
right. -/
def LengthRight (lib : DecryptLibrary) (buf : List UInt8) (n : Int) : Prop :=
  n ≤ 8 ∨ (15 ≤ n ∧ IdsRight lib (payloadOf buf n))

theorem getPackLen_some {buf : List UInt8} {len n : Int} (h : Client.getPackLen buf len = n)
    (hn : n ≠ noPacket) :
    10 ≤ len ∧ (buf.getD 0 0 = 0x53 ∧ buf.getD 1 0 = 0x3A) ∧ intOfDword (readLeWord buf 6) = n := by
  unfold Client.getPackLen at h
  split at h
  · exact absurd h.symm hn
  · next hlen =>
    split at h
    · next hhead => exact ⟨Int.not_lt.mp hlen, hhead, h⟩
    · exact absurd h.symm hn

/-- Of a nine the fourth byte is zero. -/
theorem getD_of_intOfDword {buf : List UInt8} (h : intOfDword (readLeWord buf 6) = 9) :
    buf.getD 9 0 = 0 := by
  have hint : (readLeWord buf 6).toInt32 = 9 := Int32.toInt_inj.mp h
  have hword : readLeWord buf 6 = 9 := congrArg Int32.toUInt32 hint
  have hbytes := leBytes_leWord (buf.getD 6 0) (buf.getD 7 0) (buf.getD 8 0) (buf.getD 9 0)
  rw [show leWord .. = 9 from hword, show leBytes 9 = [9, 0, 0, 0] by decide] at hbytes
  injection hbytes with _ h
  injection h with _ h
  injection h with _ h
  injection h with h _
  exact h.symm

theorem getD_copy {buf : List UInt8} {m i : Nat} (him : i < m) (hbuf : m ≤ buf.length) :
    (buf.take m ++ [0]).getD i 0 = buf.getD i 0 := by
  have hfront : (buf.take m).length = m := List.length_take_of_le hbuf
  conv_rhs => rw [← List.take_append_drop m buf]
  rw [List.getD_append _ _ _ _ (by omega), List.getD_append _ _ _ _ (by omega)]

/-- The copy of a packet names the same length, where it is long enough to name one. -/
theorem getPackLen_copy {buf : List UInt8} {len n : Int} (h : Client.getPackLen buf len = n)
    (hn : 9 ≤ n) (hbuf : n ≤ buf.length) :
    Client.getPackLen (buf.take n.toNat ++ [0]) (buf.take n.toNat ++ [0]).length = n := by
  have ⟨_, ⟨hS, hcolon⟩, hword⟩ := getPackLen_some h (by unfold noPacket; omega)
  have hfront : (buf.take n.toNat).length = n.toNat := List.length_take_of_le (by omega)
  have hlen : (buf.take n.toNat ++ [0]).length = n.toNat + 1 := by
    rw [List.length_append, hfront, List.length_singleton]
  have hcopy {i : Nat} (hi : i < 9) : (buf.take n.toNat ++ [0]).getD i 0 = buf.getD i 0 :=
    getD_copy (by omega) (by omega)
  have hlast : (buf.take n.toNat ++ [0]).getD 9 0 = buf.getD 9 0 := by
    by_cases hnine : n = 9
    · rw [List.getD_append_right _ _ _ _ (by omega), hfront, hnine,
        getD_of_intOfDword (hword.trans hnine)]
      rfl
    · exact getD_copy (by omega) (by omega)
  have hsame : readLeWord (buf.take n.toNat ++ [0]) 6 = readLeWord buf 6 := by
    rw [readLeWord, hcopy (by decide), hcopy (by decide), hcopy (by decide), hlast]
    rfl
  rw [Client.getPackLen, if_neg (by omega), if_pos ⟨(hcopy (by decide)).trans hS,
    (hcopy (by decide)).trans hcolon⟩, hsame]
  exact hword

/-- Fewer than ten bytes name no length. -/
theorem parsePack_short (lib : DecryptLibrary) {pack_buf : List UInt8} (h : pack_buf.length < 10) :
    parsePack lib pack_buf = .ok [] := by
  rw [parsePack, Client.getPackLen, if_pos (by omega)]

/-- The payload of a copied packet that names its own length. -/
theorem parsePack_copy (lib : DecryptLibrary) {buf : List UInt8} {len n : Int}
    (h : Client.getPackLen buf len = n) (hn : 15 ≤ n) (hbuf : n ≤ buf.length) (hint : n < 2 ^ 31) :
    parsePack lib (buf.take n.toNat ++ [0]) =
      (parsePayload lib (payloadOf buf n)).map fun out => [out] := by
  have hfront : (buf.take n.toNat).length = n.toNat := List.length_take_of_le (by omega)
  have hlen : (buf.take n.toNat ++ [0]).length = n.toNat + 1 := by
    rw [List.length_append, hfront, List.length_singleton]
  have hpayload : ((buf.take n.toNat ++ [0]).drop 10).take (n - 15).toNat = payloadOf buf n := by
    have hrest : (buf.drop 10).length = buf.length - 10 := List.length_drop
    rw [payloadOf, List.drop_append_of_le_length (by omega), List.drop_take,
      List.take_append_of_le_length (by rw [List.length_take]; omega), List.take_take,
      min_eq_left (by omega)]
  have hcount : (payloadOf buf n).length = (n - 15).toNat := by
    rw [payloadOf, List.length_take, List.length_drop]
    omega
  have hcopy : arraycopy (buf.take n.toNat ++ [0]) 10 (List.replicate (n - 15).toNat 0) 0
      (n - 15) = some (payloadOf buf n) := by
    have hblit : blit (List.replicate (n - 15).toNat 0) 0 (payloadOf buf n) =
        some (payloadOf buf n) := by
      rw [blit_eq_some (by rw [List.length_replicate]; omega), List.take_zero, List.nil_append,
        List.drop_eq_nil_of_le (by rw [List.length_replicate]; omega), List.append_nil]
    rw [arraycopy, if_pos (by omega)]
    rw [← hpayload] at hblit ⊢
    exact hblit
  rw [parsePack, getPackLen_copy h (by omega) hbuf, if_neg (by unfold noPacket; omega),
    newByte_some (by omega) (by omega)]
  dsimp only
  rw [hcopy]

theorem parsePack_declared (lib : DecryptLibrary) {buf : List UInt8} {len n : Int}
    (h : Client.getPackLen buf len = n) (hn : 0 ≤ n) (hbuf : n ≤ buf.length) (hint : n < 2 ^ 31) :
    (∀ e, parsePack lib (buf.take n.toNat ++ [0]) = .error e → e = .json) ↔
      LengthRight lib buf n := by
  have hfront : (buf.take n.toNat ++ [0]).length = n.toNat + 1 := by
    rw [List.length_append, List.length_take_of_le (by omega), List.length_singleton]
  by_cases hshort : n ≤ 8
  · rw [parsePack_short lib (by omega)]
    exact iff_of_true nofun (.inl hshort)
  · by_cases hlong : 15 ≤ n
    · rw [parsePack_copy lib h hlong hbuf hint]
      have hright : LengthRight lib buf n ↔ IdsRight lib (payloadOf buf n) :=
        ⟨fun hr => (hr.resolve_left hshort).2, fun hids => .inr ⟨hlong, hids⟩⟩
      rw [hright, ← parsePayload_declared]
      exact forall_congr' fun e => imp_congr_left map_eq_error
    · refine iff_of_false (fun hdeclared => ?_) fun hr => ?_
      · have hthrown : parsePack lib (buf.take n.toNat ++ [0]) = .error .negativeArraySize := by
          rw [parsePack, getPackLen_copy h (by omega) hbuf, if_neg (by unfold noPacket; omega),
            newByte_none (.inl (by omega))]
        cases hdeclared _ hthrown
      · cases hr with
        | inl hle => exact hshort hle
        | inr hge => exact hlong hge.1

/-! ## 3. The handler -/

/-- The data are put behind bytes held. -/
def Joining (s : TcpStreamPack) (data : TcpData) : Prop :=
  0 < data.nlen ∧ headLen data = noPacket ∧ 0 < s.nNoFullPackLen

instance (s : TcpStreamPack) (data : TcpData) : Decidable (Joining s data) :=
  inferInstanceAs (Decidable (_ ∧ _ ∧ _))

/-- The copies of a join from `ret_byte` on. -/
def joinCopies (s : TcpStreamPack) (data : TcpData) (revNoFullPack ret_byte : List UInt8)
    (pack_len : Int) : Option (List UInt8) := do
  let _ ← arraycopy revNoFullPack 0 ret_byte 0 pack_len
  let zeroed ← byteArrayZero data.data data.nlen
  let _ ← arraycopy revNoFullPack pack_len zeroed 0 (data.nlen + s.nNoFullPackLen - pack_len)
  byteArrayZero revNoFullPack s.nMaxRevNoFullPackLen

/-- What the `try` of `_pack_save` catches. -/
def caught (s : TcpStreamPack) (data : TcpData) : Option JavaException :=
  if Joining s data then
    match joined s data with
    | none => some .arrayIndexOutOfBounds
    | some revNoFullPack =>
      let pack_len := joinedLen s data revNoFullPack
      if pack_len = noPacket then none
      else
        match newByte (pack_len + 1) with
        -- not caught
        | none => none
        | some ret_byte =>
          match joinCopies s data revNoFullPack ret_byte pack_len with
          | none => some .arrayIndexOutOfBounds
          | some _ => none
  else none

section Caught

variable {s : TcpStreamPack} {data : TcpData}

theorem joined_isSome (hs : Sized s) (hd : Content data) (hpending : 0 ≤ s.nNoFullPackLen) :
    (∃ j, joined s data = some j) ↔ s.nNoFullPackLen + data.nlen ≤ 2048 := by
  have hsize := hs.revNoFullPack
  constructor
  · intro ⟨j, hj⟩
    have ⟨_, _, _, _, hfits, _⟩ := arraycopy_fits hj
    omega
  · intro hfits
    have ⟨j, hj, _⟩ : ∃ j, joined s data = some j ∧ _ :=
      arraycopy_eq_some (by omega) hpending hd.pos (by have := hd.len; omega) (by omega)
    exact ⟨j, hj⟩

theorem joinCopies_isSome (hs : Sized s) (hd : Content data) {j : List UInt8} {n : Int}
    (hj : j.length = 2048) (hn : 0 ≤ n) (hfits : data.nlen + s.nNoFullPackLen ≤ 2048) :
    (∃ out, joinCopies s data j (List.replicate (n + 1).toNat 0) n = some out) ↔
      n ≤ data.nlen + s.nNoFullPackLen ∧
        data.nlen + s.nNoFullPackLen - n ≤ data.data.length := by
  have hmax := hs.maxRevNoFullPack
  have ⟨zeroed, hzeroed, hzlen⟩ : ∃ out, byteArrayZero data.data data.nlen = some out ∧
      out.length = data.data.length := byteArrayZero_eq_some hd.pos hd.len
  constructor
  · intro ⟨out, hout⟩
    have ⟨_, _, hout⟩ := Option.bind_eq_some_iff.mp hout
    rw [hzeroed, Option.bind_eq_bind, Option.bind_some] at hout
    have ⟨_, hrest, _⟩ := Option.bind_eq_some_iff.mp hout
    have hin := arraycopy_fits hrest
    omega
  · intro ⟨hle, hrest⟩
    have ⟨in_buf, hin, _⟩ : ∃ out, arraycopy j n zeroed 0 (data.nlen + s.nNoFullPackLen - n) =
        some out ∧ out.length = zeroed.length :=
      arraycopy_eq_some hn (by omega) (by omega) (by omega) (by omega)
    have ⟨cleared, hcleared, _⟩ : ∃ out, byteArrayZero j s.nMaxRevNoFullPackLen = some out ∧
        out.length = j.length := byteArrayZero_eq_some (by omega) (by omega)
    refine ⟨cleared, ?_⟩
    rw [joinCopies, arraycopy_new hn (by omega), Option.bind_eq_bind, Option.bind_some, hzeroed,
      Option.bind_some, hin, Option.bind_some, hcleared]

/-- `caught` and `joinPack` go the same way: where nothing is caught, the bytes held are given up, or
there is no packet in them yet, or an exception leaves the call. -/
theorem caught_iff_joinPack (hjoining : Joining s data) :
    caught s data = none ↔ (joinPack s data).pack.nNoFullPackLen = 0 ∨
      (∃ j, joined s data = some j ∧ joinedLen s data j = noPacket) ∨
        (joinPack s data).ret = .error .negativeArraySize := by
  have hpending : ¬ s.nNoFullPackLen = 0 := by
    have := hjoining.2.2
    omega
  rw [caught, if_pos hjoining]
  cases hj : joined s data with
  | none =>
    rw [joinPack_full hj]
    simp [hpending]
  | some j =>
    rw [joinPack, show arraycopy .. = some j from hj]
    dsimp only
    rw [show Client.getPackLen j (data.nlen + s.nNoFullPackLen) = joinedLen s data j from rfl]
    by_cases hnone : joinedLen s data j = noPacket
    · rw [if_pos hnone, if_pos hnone]
      simp [hnone]
    · rw [if_neg hnone, if_neg hnone]
      cases newByte (joinedLen s data j + 1) with
      | none => simp
      | some zeros =>
        dsimp only
        rw [joinCopies]
        -- the copies of both, one after another
        cases arraycopy j 0 zeros 0 (joinedLen s data j) with
        | none => simp [hpending, hnone]
        | some ret_byte =>
          cases byteArrayZero data.data data.nlen with
          | none => simp [hpending, hnone]
          | some zeroed =>
            dsimp only [Option.bind_eq_bind, Option.bind_some]
            cases arraycopy j (joinedLen s data j) zeroed 0
                (data.nlen + s.nNoFullPackLen - joinedLen s data j) with
            | none => simp [hpending, hnone]
            | some in_buf =>
              dsimp only [Option.bind_some]
              cases byteArrayZero j s.nMaxRevNoFullPackLen with
              | none => simp [hpending, hnone]
              | some cleared => simp

theorem caught_eq_none (hs : Sized s) (hd : Content data) :
    caught s data = none ↔ (Joining s data → s.nNoFullPackLen + data.nlen ≤ 2048) ∧
      ∀ j, Joins s data j → 0 ≤ joinedLen s data j → joinedLen s data j + 1 < 2 ^ 31 →
        joinedLen s data j ≤ data.nlen + s.nNoFullPackLen ∧
          data.nlen + s.nNoFullPackLen - joinedLen s data j ≤ data.data.length := by
  unfold caught
  split
  · next hjoining =>
    have ⟨hpos, hhead, hpending⟩ := hjoining
    -- the first copies of the join succeed just when what is held and the chunk fit
    have hfits := joined_isSome hs hd (Int.le_of_lt hpending)
    cases hj : joined s data with
    | none =>
      rw [hj] at hfits
      refine iff_of_false nofun fun h => ?_
      have ⟨_, hnone⟩ := hfits.mpr (h.1 hjoining)
      cases hnone
    | some j =>
      have hroom := hfits.mp ⟨j, hj⟩
      have hlength := (hs.joined hj).revNoFullPack
      have honly : ∀ j', Joins s data j' → j' = j :=
        fun j' hj' => Option.some.inj (hj'.2.2.2.1.symm.trans hj)
      dsimp only
      split
      · next hnone =>
        refine iff_of_true rfl ⟨fun _ => hroom, fun j' hj' => ?_⟩
        have hne := hj'.2.2.2.2
        rw [honly j' hj'] at hne
        exact absurd hnone hne
      · next hne =>
        have hjoins : Joins s data j := ⟨hpos, hhead, hpending, hj, hne⟩
        -- outside of these bounds `new byte[]` throws, which is not caught
        by_cases hint : 0 ≤ joinedLen s data j ∧ joinedLen s data j + 1 < 2 ^ 31
        · have hcopies := joinCopies_isSome hs hd hlength hint.1 (by omega)
          rw [newByte_some (by omega) hint.2]
          dsimp only
          cases hcopy : joinCopies s data j (List.replicate (joinedLen s data j + 1).toNat 0)
              (joinedLen s data j) with
          -- a copy into the packet, or of the rest, throws and is caught
          | none =>
            rw [hcopy] at hcopies
            refine iff_of_false nofun fun h => ?_
            have ⟨_, hnone⟩ := hcopies.mpr (h.2 j hjoins hint.1 hint.2)
            cases hnone
          | some out =>
            refine iff_of_true rfl ⟨fun _ => hroom, fun j' hj' _ _ => ?_⟩
            rw [honly j' hj']
            exact hcopies.mp ⟨out, hcopy⟩
        · unfold noPacket at hne
          rw [newByte_none (by omega)]
          refine iff_of_true rfl ⟨fun _ => hroom, fun j' hj' hn hint' => ?_⟩
          rw [honly j' hj'] at hn hint'
          exact absurd ⟨hn, hint'⟩ hint
  · next hjoining =>
    exact iff_of_true rfl ⟨fun h => absurd h hjoining,
      fun j hj => absurd ⟨hj.1, hj.2.1, hj.2.2.1⟩ hjoining⟩

end Caught

/-! ## 4. Rounds -/

/-- Nothing but `JSONException` is thrown: by the call of `_pack_save`, whether it catches it or
not, or by what the loop does with the packet. -/
structure RoundSafe (lib : DecryptLibrary) (s : TcpStreamPack) (data : TcpData) : Prop where
  save : ∀ e, (packSave s data).ret = .error e → e = .json
  quiet : caught s data = none
  parse : ∀ pack_buf, (packSave s data).ret = .ok (some pack_buf) →
    ∀ e, parsePack lib pack_buf = .error e → e = .json

/-- The lengths that the peer's headers name are right for where they are used. -/
structure WellHeaded (lib : DecryptLibrary) (s : TcpStreamPack) (data : TcpData) : Prop where
  head : Heads data → 0 ≤ headLen data ∧ LengthRight lib data.data (headLen data)
  room : Joining s data → s.nNoFullPackLen + data.nlen ≤ 2048
  join : ∀ j, Joins s data j → 0 ≤ joinedLen s data j ∧
    joinedLen s data j ≤ data.nlen + s.nNoFullPackLen ∧
      data.nlen + s.nNoFullPackLen - joinedLen s data j ≤ data.data.length ∧
        LengthRight lib j (joinedLen s data j)

section Round

variable {lib : DecryptLibrary} {s : TcpStreamPack} {data : TcpData}

theorem Heads.not_joining (h : Heads data) : ¬Joining s data := fun hjoining => h.2.1 hjoining.2.1

theorem Joins.room (hs : Sized s) (hd : Content data) {j : List UInt8} (h : Joins s data j) :
    s.nNoFullPackLen + data.nlen ≤ 2048 :=
  (joined_isSome hs hd (Int.le_of_lt h.2.2.1)).mp ⟨j, h.2.2.2.1⟩

/-- Where a packet is returned and nothing was caught, it decides. -/
theorem roundSafe_iff_parse {pack_buf : List UInt8}
    (hret : (packSave s data).ret = .ok (some pack_buf)) (hquiet : caught s data = none) :
    RoundSafe lib s data ↔ ∀ e, parsePack lib pack_buf = .error e → e = .json := by
  constructor
  · exact fun h => h.parse pack_buf hret
  · intro h
    refine ⟨fun e he => (nomatch hret.symm.trans he), hquiet, fun p hp => ?_⟩
    rw [← Option.some.inj (Except.ok.inj (hret.symm.trans hp))]
    exact h

theorem roundSafe_iff (hs : Sized s) (hd : Content data) (hpending : 0 ≤ s.nNoFullPackLen) :
    RoundSafe lib s data ↔ WellHeaded lib s data := by
  have hsize := hd.size
  have hlen := hd.len
  have hcaught := caught_eq_none hs hd
  generalize hr : packSave s data = r
  have houtcome := packSave_outcome hs hd
  rw [hr] at houtcome
  cases houtcome with
  -- the chunk begins with a head and has the whole packet: no join, and its length decides
  | took hheads hn hrevbuf hin =>
    have hjoins : ∀ j, ¬Joins s data j := fun j h => h.not_heads hheads
    have hquiet := hcaught.mpr ⟨fun h => absurd h hheads.not_joining,
      fun j hj => absurd hj (hjoins j)⟩
    have hle := hheads.2.2
    have hparse := parsePack_declared lib (show Client.getPackLen _ _ = headLen data from rfl) hn
      (by omega) (by omega)
    rw [roundSafe_iff_parse (congrArg PackSave.ret hr) hquiet, hparse]
    exact ⟨fun h => ⟨fun _ => ⟨hn, h⟩, fun h => absurd h hheads.not_joining,
      fun j hj => absurd hj (hjoins j)⟩, fun h => (h.head hheads).2⟩
  -- the join completes the packet that is held, whose length decides
  | @whole j in_buf cleared hjoins hn hle hrest hcleared hin =>
    have hroom := hjoins.room hs hd
    have hjlen := (hs.joined hjoins.2.2.2.1).revNoFullPack
    have hquiet := hcaught.mpr ⟨fun _ => hroom, fun j' hj' _ _ => hjoins.unique hj' ▸ ⟨hle, hrest⟩⟩
    dsimp only at hjlen
    have hparse := parsePack_declared lib (show Client.getPackLen _ _ = joinedLen s data j from rfl)
      hn (by omega) (by omega)
    rw [roundSafe_iff_parse (congrArg PackSave.ret hr) hquiet, hparse]
    refine ⟨fun h => ⟨fun hheads => absurd hheads hjoins.not_heads, fun _ => hroom,
      fun j' hj' => ?_⟩, fun h => (h.join j hjoins).2.2.2⟩
    rw [hjoins.unique hj']
    exact ⟨hn, hle, hrest, h⟩
  -- `_pack_save` catches what the copies of the join throw, so no condition can hold here
  | failed hjoins hn hint hbad hin =>
    refine iff_of_false (fun h => ?_) (fun h => ?_)
    · have := (hcaught.mp h.quiet).2 _ hjoins hn hint
      omega
    · have := h.join _ hjoins
      omega
  -- the length in a header is negative and the exception leaves `_pack_save`
  | negative hret hsized hsame hwhy =>
    refine iff_of_false (fun h => ?_) (fun h => ?_)
    · cases h.save _ (hr ▸ hret)
    · rcases hwhy with ⟨hheads, hneg⟩ | ⟨j, hjoins, hout⟩
      · have := (h.head hheads).1
        omega
      · have := h.join j hjoins
        have := hjoins.room hs hd
        omega
  -- no packet, of which there is nothing to parse
  | quiet hret hsized hok hheads hjoins =>
    have hnull : (packSave s data).ret = .ok none := hr ▸ (hok hpending).1
    constructor
    · intro h
      exact ⟨fun hh => absurd hh hheads, (hcaught.mp h.quiet).1, fun j hj => absurd hj (hjoins j)⟩
    · intro h
      refine ⟨fun e he => (nomatch hnull.symm.trans he), ?_,
        fun p hp => (nomatch hnull.symm.trans hp)⟩
      exact hcaught.mpr ⟨h.room, fun j hj => absurd hj (hjoins j)⟩

theorem packSave_pending (hs : Sized s) (hd : Content data) (hpending : 0 ≤ s.nNoFullPackLen) :
    0 ≤ (packSave s data).pack.nNoFullPackLen := by
  have houtcome := packSave_outcome hs hd
  generalize packSave s data = r at houtcome
  cases houtcome with
  | took hheads hn hrevbuf hin => exact hpending
  | whole hjoins hn hle hrest hcleared hin => exact Int.le_refl 0
  | failed hjoins hn hint hbad hin => exact hpending
  | negative hret hsized hsame hwhy => exact hsame ▸ hpending
  | quiet hret hsized hok hheads hjoins => exact (hok hpending).2

end Round

/-! ## 5. Runs -/

/-- What holds of the object between two calls and in one. -/
structure Intact (s : Parsing) : Prop where
  receiving : Receiving s
  pending : 0 ≤ s.pack.nNoFullPackLen

theorem intact_new : Intact ⟨newTcpStreamPack 1024, none⟩ :=
  ⟨⟨sized_new, nofun⟩, Int.le_refl 0⟩

theorem stepParse_intact {lib : DecryptLibrary} {s t : Parsing} {step : ParseStep}
    (hs : Intact s) (ht : stepParse lib s step = some t) : Intact t := by
  refine ⟨stepParse_receiving hs.receiving ht, ?_⟩
  cases step with
  | read array len =>
    rw [stepParse] at ht
    split at ht
    · rw [← Option.some.inj ht]
      exact hs.pending
    · cases ht
  | round =>
    rw [stepParse] at ht
    obtain ⟨data, hdata, heq⟩ := Option.map_eq_some_iff.mp ht
    rw [← heq]
    exact packSave_pending hs.receiving.pack (hs.receiving.data data hdata) hs.pending

/-- Whatever is read, the rounds throw nothing but `JSONException` just when the headers are
right. -/
theorem run_safe_iff (lib : DecryptLibrary) (steps : List ParseStep) :
    RunMeets (stepParse lib) (OnRound (RoundSafe lib)) ⟨newTcpStreamPack 1024, none⟩ steps ↔
      RunMeets (stepParse lib) (OnRound (WellHeaded lib)) ⟨newTcpStreamPack 1024, none⟩ steps := by
  apply runMeets_congr_of_invariant (I := Intact)
  · exact fun s step t hs _ ht => stepParse_intact hs ht
  · intro s step hs
    cases step with
    | read array len => exact Iff.rfl
    | round =>
      exact forall₂_congr fun data hdata =>
        roundSafe_iff hs.receiving.pack (hs.receiving.data data hdata) hs.pending
  · exact intact_new

/-- Eleven bytes whose header names the length minus two. -/
theorem run_not_safe : ¬∀ (lib : DecryptLibrary) (steps : List ParseStep),
    RunMeets (stepParse lib) (OnRound (RoundSafe lib)) ⟨newTcpStreamPack 1024, none⟩ steps := by
  intro h
  have hrun := h plainJson
    [.read [0x53, 0x3A, 50, 0, 0, 0, 0xFE, 0xFF, 0xFF, 0xFF, 0] 11, .round]
  have hround := ((hrun.2 _ rfl).1 _ rfl).save .negativeArraySize rfl
  cases hround

end VerifyServer.Client
