import VerifyServer.Protocol.JsonPrint

/-!
# JsonSafety — what `cJSON_Parse` reads and writes

The first loop of `parse_string` passes a backslash and one unit behind it, the second one passes four
units more for `\u`, whatever they are.  Where each escape is complete the two loops agree, and the
parser stays in its blocks; where the digits of an escape are cut off by the quote, the second loop
runs on behind it.
-/

open VerifyServer.Reasoning

namespace VerifyServer.Protocol

/-! ## 1. Complete escapes -/

/-- Four units which neither end a string nor begin an escape. -/
def FourClean (t : List UInt16) : Prop :=
  4 ≤ t.length ∧ ∀ c ∈ t.take 4, c ≠ quoteMark ∧ c ≠ backslash

/-- Each escape of the text is complete; the text begins inside of a string or not. -/
def Complete : Bool → List UInt16 → Prop
  | _, [] => True
  | false, c :: t => Complete (decide (c = quoteMark)) t
  | true, [c] => c ≠ backslash
  | true, c :: d :: t =>
    if c = quoteMark then Complete false (d :: t)
    else if c = backslash then (d = letterU → FourClean t) ∧ Complete true t
    else Complete true (d :: t)

theorem complete_quote {t : List UInt16} (h : Complete true (quoteMark :: t)) :
    Complete false t := by
  cases t with
  | nil => trivial
  | cons d t => exact h

theorem complete_plain {c : UInt16} {t : List UInt16} (hquote : c ≠ quoteMark)
    (hback : c ≠ backslash) (h : Complete true (c :: t)) : Complete true t := by
  cases t with
  | nil => trivial
  | cons d t =>
    rw [Complete, if_neg hquote, if_neg hback] at h
    exact h

theorem complete_escape {d : UInt16} {t : List UInt16} (h : Complete true (backslash :: d :: t)) :
    (d = letterU → FourClean t) ∧ Complete true t := by
  rw [Complete, if_neg (by decide), if_pos rfl] at h
  exact h

theorem complete_outside {c : UInt16} {t : List UInt16} (hquote : c ≠ quoteMark)
    (h : Complete false (c :: t)) : Complete false t := by
  rw [Complete, decide_eq_false hquote] at h
  exact h

theorem Complete.drop {used rest : List UInt16} (hused : quoteMark ∉ used)
    (h : Complete false (used ++ rest)) : Complete false rest := by
  induction used with
  | nil => exact h
  | cons c used ih =>
    rw [List.mem_cons, not_or] at hused
    exact ih hused.2 (complete_outside (Ne.symm hused.1) h)

theorem FourClean.split {t : List UInt16} (h : FourClean t) (hcomplete : Complete true t) :
    ∃ a b c d t', t = a :: b :: c :: d :: t' ∧ Complete true t' ∧
      scanString (backslash :: letterU :: t) = (· + 5) <$> scanString t' := by
  match t, h with
  | a :: b :: c :: d :: t', h =>
    have hclean := h.2
    change ∀ e ∈ [a, b, c, d], _ at hclean
    have ha := hclean a (by simp)
    have hb := hclean b (by simp)
    have hc := hclean c (by simp)
    have hd := hclean d (by simp)
    refine ⟨a, b, c, d, t', rfl, ?_, ?_⟩
    · exact complete_plain hd.1 hd.2 (complete_plain hc.1 hc.2
        (complete_plain hb.1 hb.2 (complete_plain ha.1 ha.2 hcomplete)))
    · rw [scanString_escape, scanString_plain ha.1 ha.2, scanString_plain hb.1 hb.2,
        scanString_plain hc.1 hc.2, scanString_plain hd.1 hd.2]
      cases scanString t' <;> rfl

/-! ## 2. Strings -/

theorem length_transcode_le (uc : Nat) : (transcode uc).length ≤ 4 := by
  rw [transcode]
  split
  · exact (by decide : 1 ≤ 4)
  · split
    · exact (by decide : 2 ≤ 4)
    · split
      · exact (by decide : 3 ≤ 4)
      · exact (by decide : 4 ≤ 4)

/-- What an escape writes fits in what the first loop counts for it. -/
def Fits (text ptr : List UInt16) (r : Result (List UInt16 × List UInt16)) : Prop :=
  ∃ written rest count, r = .ok (written, rest) ∧ written.length ≤ count ∧ Complete true rest ∧
    rest <:+ ptr ∧ scanString text = (· + count) <$> scanString rest

theorem map_add_map (m n : Nat) (r : Except ParseFault Nat) :
    (· + m) <$> (· + n) <$> r = (· + (n + m)) <$> r := by
  cases r with
  | error e => rfl
  | ok len =>
    change Except.ok (len + n + m) = Except.ok (len + (n + m))
    rw [Nat.add_assoc]

theorem decodeHex_fits {t : List UInt16} (hclean : FourClean t) (h : Complete true t) :
    Fits (backslash :: letterU :: t) t (decodeHex t) := by
  obtain ⟨a, b, c, d, t', ht, hcomplete, hscan⟩ := hclean.split h
  subst ht
  have hsuffix : t' <:+ a :: b :: c :: d :: t' := ⟨[a, b, c, d], rfl⟩
  have hnone : Fits (backslash :: letterU :: a :: b :: c :: d :: t') (a :: b :: c :: d :: t')
      (.ok ([], t')) := ⟨[], t', 5, rfl, Nat.zero_le 5, hcomplete, hsuffix, hscan⟩
  rw [decodeHex, advance_four]
  change Fits _ _ (if _ then _ else _)
  split
  · exact hnone
  · split
    · rcases t' with _ | ⟨x, _ | ⟨y, low⟩⟩
      · exact hnone
      · exact hnone
      · change Fits _ _ (if _ then _ else _)
        split
        · next hpair =>
          obtain ⟨rfl, rfl⟩ := hpair
          obtain ⟨hfour, hlow⟩ := complete_escape hcomplete
          obtain ⟨e, f, g, i, low', hlow', hcomplete', hscan'⟩ := (hfour rfl).split hlow
          subst hlow'
          have hsuffix' : low' <:+
              a :: b :: c :: d :: backslash :: letterU :: e :: f :: g :: i :: low' :=
            ⟨[a, b, c, d, backslash, letterU, e, f, g, i], rfl⟩
          rw [hscan', map_add_map] at hscan
          rw [advance_four]
          change Fits _ _ (if _ then _ else _)
          split
          · exact ⟨[], low', 10, rfl, Nat.zero_le 10, hcomplete', hsuffix', hscan⟩
          · exact ⟨_, low', 10, rfl, Nat.le_trans (length_transcode_le _) (by decide), hcomplete',
              hsuffix', hscan⟩
        · exact hnone
    · exact ⟨_, t', 5, rfl, Nat.le_trans (length_transcode_le _) (by decide), hcomplete, hsuffix,
        hscan⟩

theorem decodeEscape_fits {e : UInt16} {t : List UInt16} (h : Complete true (backslash :: e :: t)) :
    Fits (backslash :: e :: t) (e :: t) (decodeEscape (e :: t)) := by
  obtain ⟨hclean, hcomplete⟩ := complete_escape h
  have hone : ∀ c : UInt16, Fits (backslash :: e :: t) (e :: t) (.ok ([c], t)) := fun c =>
    ⟨[c], t, 1, rfl, Nat.le_refl 1, hcomplete, List.suffix_cons e t, scanString_escape⟩
  rw [decodeEscape]
  -- other escapes are counted once and write one unit; `\u` is counted five times, or ten in a pair
  by_cases hu : e = letterU
  · subst hu
    obtain ⟨written, rest, count, hdecode, hle, hrest, hsuffix, hscan⟩ :=
      decodeHex_fits (hclean rfl) hcomplete
    change Fits _ _ (decodeHex t)
    exact ⟨written, rest, count, hdecode, hle, hrest, hsuffix.trans (List.suffix_cons _ _), hscan⟩
  · rw [if_neg hu]
    split
    · exact hone _
    · split
      · exact hone _
      · split
        · exact hone _
        · split
          · exact hone _
          · split
            · exact hone _
            · exact hone _

/-- The two loops agree on a string whose escapes are complete. -/
theorem decodeString_fits (n : Nat) : ∀ ptr : List UInt16, ptr.length ≤ n → Complete true ptr →
    ∃ len out rest, scanString ptr = .ok len ∧ out.length ≤ len ∧
      (∀ k, ptr.length ≤ k → decodeString k ptr = .ok (out, rest)) ∧
      (rest = [] ∨ rest.head? = some quoteMark) ∧ Complete true rest ∧ rest <:+ ptr := by
  induction n with
  | zero =>
    intro ptr hptr _
    obtain rfl := List.length_eq_zero_iff.mp (Nat.le_zero.mp hptr)
    exact ⟨0, [], [], rfl, Nat.le_refl 0, fun k _ => by cases k <;> rfl, .inl rfl, trivial,
      List.suffix_rfl⟩
  | succ n ih =>
    intro ptr hptr hcomplete
    cases ptr with
    | nil =>
      exact ⟨0, [], [], rfl, Nat.le_refl 0, fun k _ => by cases k <;> rfl, .inl rfl, trivial,
        List.suffix_rfl⟩
    | cons c t =>
      rw [List.length_cons] at hptr
      by_cases hquote : c = quoteMark
      · subst hquote
        refine ⟨0, [], quoteMark :: t, scanString_quote, Nat.le_refl 0, ?_, .inr rfl, hcomplete,
          List.suffix_rfl⟩
        intro k hk
        cases k with
        | zero => cases hk
        | succ k => exact decodeString_quote
      · by_cases hback : c = backslash
        · subst hback
          cases t with
          | nil => exact absurd rfl hcomplete
          | cons e t =>
            -- an escape is counted with no less than it writes
            obtain ⟨written, rest, count, hescape, hcount, hrest, hsuffix, hscan⟩ :=
              decodeEscape_fits hcomplete
            have hlength := hsuffix.length_le
            rw [List.length_cons] at hlength hptr
            obtain ⟨len, out, end_, hlen, hle, hdecode, hend, hcend, hsend⟩ :=
              ih rest (by omega) hrest
            refine ⟨len + count, written ++ out, end_, ?_, ?_, ?_, hend, hcend, ?_⟩
            · rw [hscan, hlen]
              rfl
            · rw [List.length_append]
              omega
            · intro k hk
              rw [List.length_cons, List.length_cons] at hk
              cases k with
              | zero => cases hk
              | succ k =>
                rw [decodeString_escape, hescape]
                change (decodeString k rest >>= _) = _
                rw [hdecode k (by omega)]
                rfl
            · exact hsend.trans (hsuffix.trans (List.suffix_cons _ _))
        · obtain ⟨len, out, end_, hlen, hle, hdecode, hend, hcend, hsend⟩ :=
            ih t (by omega) (complete_plain hquote hback hcomplete)
          refine ⟨len + 1, c :: out, end_, ?_, Nat.succ_le_succ hle, ?_, hend, hcend,
            hsend.trans (List.suffix_cons _ _)⟩
          · rw [scanString_plain hquote hback, hlen]
            rfl
          · intro k hk
            rw [List.length_cons] at hk
            cases k with
            | zero => cases hk
            | succ k =>
              rw [decodeString_plain hquote hback, hdecode k (by omega)]
              rfl

/-! ## 3. Texts of every kind -/

/-- A loop may read behind the NUL, but it comes to an end. -/
def Ends (ptr : List UInt16) (r : Result (List UInt16 × List UInt16)) : Prop :=
  (∃ written rest, r = .ok (written, rest) ∧ rest <:+ ptr) ∨ r = .error .overread

theorem advance_ends (n : Nat) (ptr : List UInt16) :
    advance n ptr = .ok (ptr.drop n) ∨ advance n ptr = .error .overread := by
  rw [advance]
  split
  · exact .inl rfl
  · exact .inr rfl

theorem decodeHex_ends (ptr : List UInt16) : Ends ptr (decodeHex ptr) := by
  rw [decodeHex]
  rcases advance_ends 4 ptr with hfour | hfour
  · have hdrop : ptr.drop 4 <:+ ptr := List.drop_suffix 4 ptr
    rw [hfour]
    change Ends ptr (if _ then _ else _)
    split
    · exact .inl ⟨_, _, rfl, hdrop⟩
    · split
      · split
        · next b u low hlow =>
          have hpair : b :: u :: low <:+ ptr := hlow ▸ hdrop
          split
          · rcases advance_ends 4 low with hlow' | hlow'
            · have hsuffix : low.drop 4 <:+ ptr := (List.drop_suffix 4 low).trans
                ((List.suffix_cons u low).trans ((List.suffix_cons b _).trans hpair))
              rw [hlow']
              change Ends ptr (if _ then _ else _)
              split
              · exact .inl ⟨_, _, rfl, hsuffix⟩
              · exact .inl ⟨_, _, rfl, hsuffix⟩
            · rw [hlow']
              exact .inr rfl
          · exact .inl ⟨_, _, rfl, hdrop⟩
        · exact .inl ⟨_, _, rfl, hdrop⟩
      · exact .inl ⟨_, _, rfl, hdrop⟩
  · rw [hfour]
    exact .inr rfl

theorem decodeEscape_ends (ptr : List UInt16) : Ends ptr (decodeEscape ptr) := by
  cases ptr with
  | nil => exact .inr rfl
  | cons e t =>
    have hone : ∀ c : UInt16, Ends (e :: t) (.ok ([c], t)) := fun c =>
      .inl ⟨[c], t, rfl, List.suffix_cons e t⟩
    rw [decodeEscape]
    split
    · exact hone _
    · split
      · exact hone _
      · split
        · exact hone _
        · split
          · exact hone _
          · split
            · exact hone _
            · split
              · rcases decodeHex_ends t with ⟨written, rest, hdecode, hsuffix⟩ | hover
                · exact .inl ⟨written, rest, hdecode, hsuffix.trans (List.suffix_cons e t)⟩
                · exact .inr hover
              · exact hone _

theorem decodeString_ends (k : Nat) : ∀ ptr : List UInt16, ptr.length ≤ k →
    Ends ptr (decodeString k ptr) := by
  induction k with
  | zero =>
    intro ptr hptr
    obtain rfl := List.length_eq_zero_iff.mp (Nat.le_zero.mp hptr)
    exact .inl ⟨[], [], rfl, List.suffix_rfl⟩
  | succ k ih =>
    intro ptr hptr
    cases ptr with
    | nil => exact .inl ⟨[], [], rfl, List.suffix_rfl⟩
    | cons c t =>
      rw [List.length_cons] at hptr
      have hcons := List.suffix_cons c t
      by_cases hquote : c = quoteMark
      · subst hquote
        rw [decodeString, if_pos rfl]
        exact .inl ⟨[], _, rfl, List.suffix_rfl⟩
      · by_cases hback : c = backslash
        · subst hback
          rw [decodeString_escape]
          rcases decodeEscape_ends t with ⟨written, rest, hescape, hsuffix⟩ | hover
          · have hlength := hsuffix.length_le
            rw [hescape]
            change Ends _ (decodeString k rest >>= _)
            rcases ih rest (by omega) with ⟨out, end_, hdecode, hend⟩ | hover
            · rw [hdecode]
              exact .inl ⟨_, _, rfl, hend.trans (hsuffix.trans hcons)⟩
            · rw [hover]
              exact .inr rfl
          · rw [hover]
            exact .inr rfl
        · rw [decodeString_plain hquote hback]
          rcases ih t (by omega) with ⟨out, end_, hdecode, hend⟩ | hover
          · rw [hdecode]
            exact .inl ⟨_, _, rfl, hend.trans hcons⟩
          · rw [hover]
            exact .inr rfl

theorem scanString_ends (n : Nat) : ∀ ptr : List UInt16, ptr.length ≤ n →
    (∃ len, scanString ptr = .ok len) ∨ scanString ptr = .error .overread := by
  induction n with
  | zero =>
    intro ptr hptr
    obtain rfl := List.length_eq_zero_iff.mp (Nat.le_zero.mp hptr)
    exact .inl ⟨0, rfl⟩
  | succ n ih =>
    intro ptr hptr
    have hmap : ∀ t : List UInt16, t.length ≤ n →
        (∃ len, (· + 1) <$> scanString t = .ok len) ∨
          (· + 1) <$> scanString t = .error .overread := by
      intro t ht
      rcases ih t ht with ⟨len, hlen⟩ | hover
      · rw [hlen]
        exact .inl ⟨len + 1, rfl⟩
      · rw [hover]
        exact .inr rfl
    match ptr with
    | [] => exact .inl ⟨0, rfl⟩
    | [c] =>
      rw [scanString]
      split
      · exact .inl ⟨0, rfl⟩
      · split
        · exact .inr rfl
        · exact .inl ⟨1, rfl⟩
    | c :: d :: t =>
      rw [List.length_cons, List.length_cons] at hptr
      rw [scanString]
      split
      · exact .inl ⟨0, rfl⟩
      · split
        · exact hmap t (by omega)
        · exact hmap (d :: t) (by rw [List.length_cons]; omega)

/-! ## 4. Values -/

section Safe

variable {α β : Type} {D : Type} {A : Doubles D} {clean : Prop}

/-- What may come of a call on a text, where the escapes of the text are complete if `clean`. -/
def Safe (clean : Prop) (text : List UInt16) : Result (α × List UInt16) → Prop
  | .ok (_, rest) => (clean → Complete false rest) ∧ rest <:+ text
  | .error (.failed ep) => ep <:+ text
  | .error .endless => False
  | .error _ => ¬ clean

theorem Safe.weaken {text text' : List UInt16} {r : Result (α × List UInt16)}
    (h : Safe clean text r) (hsuffix : text <:+ text') : Safe clean text' r := by
  match r, h with
  | .ok (_, rest), h => exact ⟨h.1, h.2.trans hsuffix⟩
  | .error (.failed ep), h => exact List.IsSuffix.trans h hsuffix
  | .error .overread, h => exact h
  | .error .overwrite, h => exact h

theorem Safe.bind {text : List UInt16} {r : Result (α × List UInt16)}
    {f : α × List UInt16 → Result (β × List UInt16)} (h : Safe clean text r)
    (hf : ∀ a rest, (clean → Complete false rest) → rest <:+ text → Safe clean text (f (a, rest))) :
    Safe clean text (r >>= f) := by
  match r, h with
  | .ok (a, rest), h => exact hf a rest h.1 h.2
  | .error (.failed ep), h => exact h
  | .error .overread, h => exact h
  | .error .overwrite, h => exact h

theorem parseString_safe (str : List UInt16) (h : clean → Complete false str) :
    Safe clean str (parseString str) := by
  cases str with
  | nil => exact List.suffix_rfl
  | cons c ptr =>
    have hcons := List.suffix_cons c ptr
    rw [parseString]
    by_cases hquote : c = quoteMark
    · subst hquote
      rw [if_pos rfl]
      by_cases hclean : clean
      · obtain ⟨len, out, rest, hlen, hle, hdecode, hrest, hcomplete, hsuffix⟩ :=
          decodeString_fits ptr.length ptr (Nat.le_refl _) (h hclean)
        rw [hlen]
        change Safe clean _ (decodeString ptr.length ptr >>= _)
        rw [hdecode _ (Nat.le_refl _)]
        change Safe clean _ (if len < out.length then _ else _)
        rw [if_neg (Nat.not_lt.mpr hle)]
        cases rest with
        | nil => exact ⟨fun _ => trivial, List.nil_suffix⟩
        | cons d rest =>
          have hd : some d = some quoteMark := hrest.resolve_left (List.cons_ne_nil d rest)
          obtain rfl := Option.some.inj hd
          exact ⟨fun _ => complete_quote hcomplete,
            (List.suffix_cons _ rest).trans (hsuffix.trans hcons)⟩
      · rcases scanString_ends ptr.length ptr (Nat.le_refl _) with ⟨len, hlen⟩ | hover
        · rw [hlen]
          change Safe clean _ (decodeString ptr.length ptr >>= _)
          rcases decodeString_ends ptr.length ptr (Nat.le_refl _) with
            ⟨out, rest, hdecode, hsuffix⟩ | hover
          · rw [hdecode]
            change Safe clean _ (if len < out.length then _ else _)
            split
            · exact hclean
            · refine ⟨fun hs => absurd hs hclean, ?_⟩
              split
              · exact (List.tail_suffix rest).trans (hsuffix.trans hcons)
              · exact hsuffix.trans hcons
          · rw [hover]
            exact hclean
        · rw [hover]
          exact hclean
    · rw [if_neg hquote]
      exact List.suffix_rfl

/-- What is passed holds no quote. -/
def Passes (num rest : List UInt16) : Prop := ∃ used, num = used ++ rest ∧ quoteMark ∉ used

theorem passes_refl (num : List UInt16) : Passes num num := ⟨[], rfl, List.not_mem_nil⟩

theorem Passes.trans {a b c : List UInt16} (hab : Passes a b) (hbc : Passes b c) :
    Passes a c := by
  have ⟨u, hu, hqu⟩ := hab
  have ⟨v, hv, hqv⟩ := hbc
  refine ⟨u ++ v, by rw [hu, hv, List.append_assoc], ?_⟩
  rw [List.mem_append, not_or]
  exact ⟨hqu, hqv⟩

theorem passes_cons {c : UInt16} {t : List UInt16} (hc : c ≠ quoteMark) : Passes (c :: t) t :=
  ⟨[c], rfl, by rw [List.mem_singleton]; exact hc.symm⟩

theorem Passes.rest {text rest : List UInt16} (h : Passes text rest)
    (hcomplete : clean → Complete false text) : (clean → Complete false rest) ∧ rest <:+ text := by
  have ⟨used, hused, hquote⟩ := h
  subst hused
  exact ⟨fun hs => (hcomplete hs).drop hquote, List.suffix_append used rest⟩

theorem Passes.length_le {text rest : List UInt16} (h : Passes text rest) :
    rest.length ≤ text.length := by
  have ⟨used, hused, _⟩ := h
  rw [hused, List.length_append]
  exact Nat.le_add_left _ _

theorem passes_tail {c : UInt16} {t : List UInt16} (hc : c ≠ quoteMark) (h : t.head? = some c) :
    Passes t t.tail := by
  cases t with
  | nil => exact passes_refl []
  | cons d t => exact passes_cons (Option.some.inj h ▸ hc)

theorem passes_dropWhile {p : UInt16 → Bool} (hp : p quoteMark = false) (t : List UInt16) :
    Passes t (t.dropWhile p) := by
  refine ⟨t.takeWhile p, List.takeWhile_append_dropWhile.symm, fun hmem => ?_⟩
  have hquote := List.mem_takeWhile_imp hmem
  rw [hp] at hquote
  cases hquote

theorem passes_skip (t : List UInt16) : Passes t (skip t) := passes_dropWhile rfl t

theorem readSign_passes (num : List UInt16) : Passes num (readSign A num).2 := by
  cases num with
  | nil => exact passes_refl []
  | cons c num =>
    rw [readSign]
    split
    · next h => exact passes_cons (h ▸ by decide)
    · exact passes_refl _

theorem readInteger_passes (num : List UInt16) : Passes num (readInteger A num).2 := by
  have hzero : Passes num (if num.head? = some 0x30 then num.tail else num) := by
    split
    · next h =>
      cases num with
      | nil => exact passes_refl []
      | cons c num => exact passes_cons (Option.some.inj h ▸ by decide)
    · exact passes_refl num
  rw [readInteger]
  refine hzero.trans ?_
  generalize (if num.head? = some 0x30 then num.tail else num) = rest
  cases rest with
  | nil => exact passes_refl []
  | cons c rest =>
    change Passes _ (if _ then _ else _ : D × List UInt16).2
    split
    · exact passes_dropWhile rfl _
    · exact passes_refl _

theorem readFraction_passes (n : D) (num : List UInt16) : Passes num (readFraction A n num).2 := by
  match num with
  | [] => exact passes_refl []
  | [c] => exact passes_refl [c]
  | c :: d :: rest =>
    rw [readFraction]
    split
    · next h =>
      rw [Bool.and_eq_true_iff, decide_eq_true_iff] at h
      exact (passes_cons (h.1 ▸ by decide)).trans (passes_dropWhile rfl _)
    · exact passes_refl _

theorem readExponentSign_passes (num : List UInt16) : Passes num (readExponentSign num).2 := by
  cases num with
  | nil => exact passes_refl []
  | cons c num =>
    rw [readExponentSign]
    split
    · next h => exact passes_cons (h ▸ by decide)
    · split
      · next h => exact passes_cons (h ▸ by decide)
      · exact passes_refl _

theorem readExponent_passes (num : List UInt16) : Passes num (readExponent num).2 := by
  cases num with
  | nil => exact passes_refl []
  | cons c num =>
    rw [readExponent]
    split
    · next h =>
      rw [Bool.or_eq_true, decide_eq_true_iff, decide_eq_true_iff] at h
      have hc : c ≠ quoteMark := by
        rcases h with rfl | rfl <;> decide
      exact (passes_cons hc).trans
        ((readExponentSign_passes num).trans (passes_dropWhile rfl _))
    · exact passes_refl _

theorem parseNumber_passes (num : List UInt16) : Passes num (parseNumber A num).2 :=
  (readSign_passes num).trans ((readInteger_passes _).trans
    ((readFraction_passes _ _).trans (readExponent_passes _)))

theorem passes_word {word value : List UInt16} (hword : quoteMark ∉ word)
    (h : word.isPrefixOf value = true) : Passes value (value.drop word.length) := by
  have ⟨rest, hrest⟩ := List.isPrefixOf_iff_prefix.mp h
  refine ⟨word, ?_, hword⟩
  rw [← hrest, List.drop_left]

mutual

theorem parseValue_safe : ∀ (k : Nat) (value : List UInt16), (clean → Complete false value) →
    2 * value.length < k → Safe clean value (parseValue A k value)
  | 0, _, _, hk => absurd hk (Nat.not_lt_zero _)
  | k + 1, [], _, _ => List.suffix_rfl
  | k + 1, c :: rest, h, hk => by
    rw [List.length_cons] at hk
    rw [parseValue]
    split
    · next hword => exact (passes_word (by decide) hword).rest h
    · split
      · next hword => exact (passes_word (by decide) hword).rest h
      · split
        · next hword => exact (passes_word (by decide) hword).rest h
        · change Safe clean _ (if _ then _ else _)
          split
          · exact (parseString_safe _ h).bind fun _ _ hrest hsuffix => ⟨hrest, hsuffix⟩
          · next hquote =>
            have hpasses := (passes_cons hquote).trans (passes_skip rest)
            have hskip := hpasses.rest h
            have hlength := (passes_skip rest).length_le
            split
            · exact (parseNumber_passes _).rest h
            · split
              · split
                · next hclose => exact (hpasses.trans (passes_tail (by decide) hclose)).rest h
                · have hchild := parseElements_safe k (skip rest) hskip.1 (by omega)
                  exact (hchild.weaken hskip.2).bind fun _ _ hrest hsuffix => ⟨hrest, hsuffix⟩
              · split
                · split
                  · next hclose => exact (hpasses.trans (passes_tail (by decide) hclose)).rest h
                  · have hchild := parseMembers_safe k (skip rest) hskip.1 (by omega)
                    exact (hchild.weaken hskip.2).bind fun _ _ hrest hsuffix => ⟨hrest, hsuffix⟩
                · exact List.suffix_rfl

theorem parseElements_safe : ∀ (k : Nat) (value : List UInt16), (clean → Complete false value) →
    2 * value.length + 1 < k → Safe clean value (parseElements A k value)
  | 0, _, _, hk => absurd hk (Nat.not_lt_zero _)
  | k + 1, value, h, hk => by
    have hskip := (passes_skip value).rest h
    have hlength := hskip.2.length_le
    rw [parseElements]
    refine ((parseValue_safe k (skip value) hskip.1 (by omega)).weaken hskip.2).bind
      fun child rest hrest hsuffix => ?_
    have hpasses := passes_skip rest
    have hend := hpasses.rest hrest
    cases htext : skip rest with
    | nil =>
      simp only [htext]
      exact List.nil_suffix
    | cons c more =>
      rw [htext] at hpasses hend
      simp only [htext]
      have hlast := hend.2.trans hsuffix
      change Safe clean _ (if _ then _ else if _ then _ else _)
      split
      · next hcomma =>
        have hmore := (hpasses.trans (passes_cons (hcomma ▸ by decide))).rest hrest
        have hshort := hlast.length_le
        rw [List.length_cons] at hshort
        exact ((parseElements_safe k more hmore.1 (by omega)).weaken
          (hmore.2.trans hsuffix)).bind fun _ _ hrest hsuffix => ⟨hrest, hsuffix⟩
      · split
        · next hclose =>
          have hmore := (hpasses.trans (passes_cons (hclose ▸ by decide))).rest hrest
          exact ⟨hmore.1, hmore.2.trans hsuffix⟩
        · exact hlast

theorem parseMembers_safe : ∀ (k : Nat) (value : List UInt16), (clean → Complete false value) →
    2 * value.length + 1 < k → Safe clean value (parseMembers A k value)
  | 0, _, _, hk => absurd hk (Nat.not_lt_zero _)
  | k + 1, value, h, hk => by
    rw [parseMembers]
    refine (parseMember_safe k value h (by omega)).bind fun child rest hrest hsuffix => ?_
    have hpasses := passes_skip rest
    have hend := hpasses.rest hrest
    cases htext : skip rest with
    | nil =>
      simp only [htext]
      exact List.nil_suffix
    | cons c more =>
      rw [htext] at hpasses hend
      simp only [htext]
      have hlast := hend.2.trans hsuffix
      change Safe clean _ (if _ then _ else if _ then _ else _)
      split
      · next hcomma =>
        have hmore := (hpasses.trans (passes_cons (hcomma ▸ by decide))).rest hrest
        have hshort := hlast.length_le
        rw [List.length_cons] at hshort
        exact ((parseMembers_safe k more hmore.1 (by omega)).weaken
          (hmore.2.trans hsuffix)).bind fun _ _ hrest hsuffix => ⟨hrest, hsuffix⟩
      · split
        · next hclose =>
          have hmore := (hpasses.trans (passes_cons (hclose ▸ by decide))).rest hrest
          exact ⟨hmore.1, hmore.2.trans hsuffix⟩
        · exact hlast

theorem parseMember_safe : ∀ (k : Nat) (value : List UInt16), (clean → Complete false value) →
    2 * value.length < k → Safe clean value (parseMember A k value)
  | 0, _, _, hk => absurd hk (Nat.not_lt_zero _)
  | k + 1, value, h, hk => by
    have hskip := (passes_skip value).rest h
    rw [parseMember]
    refine ((parseString_safe (skip value) hskip.1).weaken hskip.2).bind
      fun string rest hrest hsuffix => ?_
    have hpasses := passes_skip rest
    have hend := hpasses.rest hrest
    cases htext : skip rest with
    | nil =>
      simp only [htext]
      exact List.nil_suffix
    | cons c more =>
      rw [htext] at hpasses hend
      simp only [htext]
      have hlast := hend.2.trans hsuffix
      change Safe clean _ (if _ then _ else _)
      split
      · next hcolon =>
        have hmore := ((hpasses.trans (passes_cons (hcolon ▸ by decide))).trans
          (passes_skip more)).rest hrest
        have hshort := hlast.length_le
        have hlength := (passes_skip more).length_le
        rw [List.length_cons] at hshort
        exact ((parseValue_safe k (skip more) hmore.1 (by omega)).weaken
          (hmore.2.trans hsuffix)).bind fun _ _ hrest hsuffix => ⟨hrest, hsuffix⟩
      · exact hlast

end

/-- What a text may come to. -/
theorem parseWithOpts_safe (value : TText) (require_null_terminated : Bool)
    (h : clean → Complete false value.units) :
    Safe clean value.units (parseWithOpts A value require_null_terminated) := by
  have hskip := (passes_skip value.units).rest h
  have hlength := (passes_skip value.units).length_le
  rw [parseWithOpts]
  refine ((parseValue_safe _ (skip value.units) hskip.1 (by omega)).weaken hskip.2).bind
    fun c end_ hend hsuffix => ?_
  have hrest := (passes_skip end_).rest hend
  cases require_null_terminated with
  | true =>
    change Safe clean _ (if skip end_ = [] then _ else _)
    split
    · exact ⟨fun _ => trivial, List.nil_suffix⟩
    · exact hrest.2.trans hsuffix
  | false => exact ⟨hend, hsuffix⟩

end Safe

/-- Where each escape is complete, `cJSON_ParseWithOpts` comes to an end and stays in the text and in
its blocks; the pointer that it sets, behind the item or `ep`, is one into the text. -/
theorem parseWithOpts_outcome {D : Type} (A : Doubles D) (value : TText)
    (require_null_terminated : Bool) (h : Complete false value.units) :
    (∃ c end_, parseWithOpts A value require_null_terminated = .ok (c, end_) ∧
      end_ <:+ value.units) ∨
    ∃ ep, parseWithOpts A value require_null_terminated = .error (.failed ep) ∧
      ep <:+ value.units := by
  have hsafe : Safe True value.units (parseWithOpts A value require_null_terminated) :=
    parseWithOpts_safe value require_null_terminated fun _ => h
  generalize parseWithOpts A value require_null_terminated = r at hsafe
  match r, hsafe with
  | .ok (c, end_), hsafe => exact .inl ⟨c, end_, rfl, hsafe.2⟩
  | .error (.failed ep), hsafe => exact .inr ⟨ep, rfl, hsafe⟩
  | .error .overread, hsafe => exact absurd trivial hsafe
  | .error .overwrite, hsafe => exact absurd trivial hsafe

theorem parseWithOpts_outcome_open :
    (∃ c end_, parseWithOpts integers (cStr (lit "[\"a\\n\", 1")) true = .ok (c, end_) ∧
      end_ <:+ (cStr (lit "[\"a\\n\", 1")).units) ∨
    ∃ ep, parseWithOpts integers (cStr (lit "[\"a\\n\", 1")) true = .error (.failed ep) ∧
      ep <:+ (cStr (lit "[\"a\\n\", 1")).units :=
  parseWithOpts_outcome integers _ true (by
    refine ⟨fun h => absurd h (by decide), ?_⟩
    trivial)

/-! ## 5. Digits cut off by the quote -/

theorem decodeString_body {body : List UInt16}
    (hbody : ∀ c ∈ body, c ≠ quoteMark ∧ c ≠ backslash) {rest : List UInt16}
    (hrest : rest = [] ∨ rest.head? = some quoteMark) {k : Nat}
    (hk : (body ++ rest).length ≤ k) : decodeString k (body ++ rest) = .ok (body, rest) := by
  induction body generalizing k with
  | nil =>
    cases rest with
    | nil => cases k <;> rfl
    | cons c rest =>
      have hc : some c = some quoteMark := hrest.resolve_left (List.cons_ne_nil c rest)
      obtain rfl := Option.some.inj hc
      cases k with
      | zero => cases hk
      | succ k =>
        exact decodeString_quote
  | cons c body ih =>
    have hc := hbody c List.mem_cons_self
    rw [List.cons_append, List.length_cons] at hk
    cases k with
    | zero => cases hk
    | succ k =>
      rw [List.cons_append, decodeString_plain hc.1 hc.2,
        ih (fun d hd => hbody d (List.mem_cons_of_mem c hd)) (by omega)]
      rfl

theorem parseString_short {tail : List UInt16} (hshort : tail.length < 3) :
    parseString (quoteMark :: backslash :: letterU :: quoteMark :: tail) = .error .overread := by
  have hscan : scanString (backslash :: letterU :: quoteMark :: tail) = .ok 1 := by
    rw [scanString_escape, scanString_quote]
    rfl
  have hescape : decodeEscape (letterU :: quoteMark :: tail) = .error .overread := by
    change decodeHex (quoteMark :: tail) = _
    rw [decodeHex, advance, if_neg (by rw [List.length_cons]; omega)]
    rfl
  rw [parseString, if_pos rfl, hscan]
  change (decodeString _ _ >>= _) = _
  rw [List.length_cons, decodeString_escape, hescape]
  rfl

/-- The quote of `"\u"` is passed as a digit, and what stands behind it is copied up to the next
quote or the NUL, into a block of two units. -/
theorem parseString_cut {a b c : UInt16} {body rest : List UInt16}
    (hbody : ∀ c ∈ body, c ≠ quoteMark ∧ c ≠ backslash)
    (hrest : rest = [] ∨ rest.head? = some quoteMark) :
    parseString (quoteMark :: backslash :: letterU :: quoteMark :: a :: b :: c :: (body ++ rest)) =
      if 1 < body.length then .error .overwrite
      else .ok (cStr body, if rest.head? = some quoteMark then rest.tail else rest) := by
  have hscan : scanString (backslash :: letterU :: quoteMark :: a :: b :: c :: (body ++ rest)) =
      .ok 1 := by
    rw [scanString_escape, scanString_quote]
    rfl
  have hescape : decodeEscape (letterU :: quoteMark :: a :: b :: c :: (body ++ rest)) =
      .ok ([], body ++ rest) := by
    change decodeHex (quoteMark :: a :: b :: c :: (body ++ rest)) = _
    rw [decodeHex, advance_four]
    rfl
  have hdecode : decodeString
      (backslash :: letterU :: quoteMark :: a :: b :: c :: (body ++ rest)).length
      (backslash :: letterU :: quoteMark :: a :: b :: c :: (body ++ rest)) =
        .ok (body, rest) := by
    rw [List.length_cons, decodeString_escape, hescape]
    change (decodeString _ (body ++ rest) >>= _) = _
    rw [decodeString_body hbody hrest (by simp only [List.length_cons]; omega)]
    rfl
  rw [parseString, if_pos rfl, hscan]
  change (decodeString _ _ >>= _) = _
  rw [hdecode]
  rfl

theorem three_behind {tail : List UInt16} (hlong : 3 ≤ tail.length) :
    ∃ a b c rest, tail = a :: b :: c :: rest := by
  cases tail with
  | nil => cases hlong
  | cons a tail =>
    cases tail with
    | nil => exact absurd hlong (by rw [List.length_singleton]; decide)
    | cons b tail =>
      cases tail with
      | nil => exact absurd hlong (by rw [List.length_cons, List.length_singleton]; decide)
      | cons c rest => exact ⟨a, b, c, rest, rfl⟩

theorem dropWhile_quote (rest : List UInt16) :
    rest.dropWhile (· ≠ quoteMark) = [] ∨
      (rest.dropWhile (· ≠ quoteMark)).head? = some quoteMark := by
  have hnot := List.head?_dropWhile_not (· ≠ quoteMark) rest
  cases hdrop : rest.dropWhile (· ≠ quoteMark) with
  | nil => exact .inl rfl
  | cons d ds =>
    rw [hdrop] at hnot
    have hd : d = quoteMark := by simpa using hnot
    exact .inr (congrArg some hd)

/-- A text that begins with `"\u"`.  With fewer than three units behind it, the pointer leaves the
text.  Else what is copied is a string, unless it has two units or more, which leave the block. -/
theorem parse_cut {D : Type} (A : Doubles D) {tail : List UInt16} {value : TText}
    (hvalue : value.units = quoteMark :: backslash :: letterU :: quoteMark :: tail) :
    let copied := (tail.drop 3).takeWhile (· ≠ quoteMark)
    (tail.length < 3 → parse A value = .error .overread) ∧
      (3 ≤ tail.length → backslash ∉ copied → parse A value =
        if 1 < copied.length then .error .overwrite else .ok (.string (cStr copied))) := by
  intro copied
  have hskip : skip value.units = value.units := by
    rw [hvalue]
    rfl
  rw [parse, parseWithOpts, hskip, hvalue, parseValue_string]
  constructor
  · intro hshort
    rw [parseString_short hshort]
    rfl
  · intro hlong hback
    have hcopied : copied = (tail.drop 3).takeWhile (· ≠ quoteMark) := rfl
    clear_value copied
    obtain ⟨a, b, c, rest, rfl⟩ := three_behind hlong
    rw [List.drop_succ_cons, List.drop_succ_cons, List.drop_succ_cons, List.drop_zero] at hcopied
    have hsplit : rest = copied ++ rest.dropWhile (· ≠ quoteMark) := by
      rw [hcopied, List.takeWhile_append_dropWhile]
    have hbody : ∀ c ∈ copied, c ≠ quoteMark ∧ c ≠ backslash := by
      intro c hc
      have hkept : decide (c ≠ quoteMark) = true :=
        List.mem_takeWhile_imp (p := (· ≠ quoteMark)) (hcopied ▸ hc)
      exact ⟨of_decide_eq_true hkept, fun heq => hback (heq ▸ hc)⟩
    rw [hsplit, parseString_cut hbody (dropWhile_quote rest)]
    split
    · rfl
    · rfl

theorem parse_cut_digits :
    let copied := ((lit "abcdefg").drop 3).takeWhile (· ≠ quoteMark)
    ((lit "abcdefg").length < 3 →
        parse integers (cStr (lit "\"\\u\"abcdefg")) = .error .overread) ∧
      (3 ≤ (lit "abcdefg").length → backslash ∉ copied →
        parse integers (cStr (lit "\"\\u\"abcdefg")) =
          if 1 < copied.length then .error .overwrite else .ok (.string (cStr copied))) :=
  parse_cut integers (by decide)

end VerifyServer.Protocol
