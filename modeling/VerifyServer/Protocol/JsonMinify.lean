import VerifyServer.Protocol.JsonPrint

/-!
# JsonMinify — `cJSON_Minify`

The text is written over itself, never in front of what is still to be read.  Without a result
something behind the NUL is read.
-/

open VerifyServer.Reasoning

namespace VerifyServer.Protocol

def slash : UInt16 := 0x2F
def star : UInt16 := 0x2A

/-! ## 1. The function -/

/-- The loops of the function. -/
inductive MinifyLoop where
  | outside
  | line
  | comment
  | inside
  deriving DecidableEq

/-- What is written from here on. -/
def minifyFrom : MinifyLoop → List UInt16 → Option (List UInt16)
  | .outside, [] => some []
  | .outside, c :: t =>
    if isBlank c then minifyFrom .outside t
    else if c = slash ∧ t.head? = some slash then minifyFrom .line t
    else if c = slash ∧ t.head? = some star then minifyFrom .comment t
    else if c = quoteMark then (minifyFrom .inside t).map (c :: ·)
    else (minifyFrom .outside t).map (c :: ·)
  | .line, [] => some []
  | .line, c :: t =>
    -- the newline itself is a blank
    if c = newline then minifyFrom .outside t else minifyFrom .line t
  | .comment, [] => none
  | .comment, [_] => none
  | .comment, c :: d :: t =>
    if c = star ∧ d = slash then minifyFrom .outside t else minifyFrom .comment (d :: t)
  | .inside, [] => none
  | .inside, [c] => if c = quoteMark then some [c] else none
  | .inside, c :: d :: t =>
    if c = quoteMark then (minifyFrom .outside (d :: t)).map (c :: ·)
    else if c = backslash then (minifyFrom .inside t).map fun out => c :: d :: out
    else (minifyFrom .inside (d :: t)).map (c :: ·)

def minify (json : List UInt16) : Option (List UInt16) := minifyFrom .outside json

/-! ## 2. What is kept -/

/-- `text` is written as `kept`, and the function goes on outside of it. -/
def Keeps (text kept : List UInt16) : Prop :=
  ∀ rest, minifyFrom .outside (text ++ rest) = (minifyFrom .outside rest).map (kept ++ ·)

theorem keeps_nil : Keeps [] [] := by
  intro rest
  change minifyFrom .outside rest = (minifyFrom .outside rest).map id
  rw [Option.map_id, id]

theorem Keeps.append {a b ka kb : List UInt16} (ha : Keeps a ka) (hb : Keeps b kb) :
    Keeps (a ++ b) (ka ++ kb) := by
  intro rest
  rw [List.append_assoc, ha, hb, Option.map_map]
  congr 1
  funext out
  exact (List.append_assoc ka kb out).symm

/-- A unit that is copied outside of strings. -/
def Copied (c : UInt16) : Prop := isBlank c = false ∧ c ≠ slash ∧ c ≠ quoteMark

theorem Copied.keeps {c : UInt16} (hc : Copied c) : Keeps [c] [c] := by
  intro rest
  change minifyFrom .outside (c :: rest) = _
  rw [minifyFrom, hc.1, if_neg Bool.false_ne_true, if_neg fun h => hc.2.1 h.1,
    if_neg fun h => hc.2.1 h.1, if_neg hc.2.2]
  rfl

theorem keeps_copied {word : List UInt16} (hword : ∀ c ∈ word, Copied c) : Keeps word word := by
  induction word with
  | nil => exact keeps_nil
  | cons c word ih =>
    have hrest := ih fun d hd => hword d (List.mem_cons_of_mem c hd)
    exact (hword c List.mem_cons_self).keeps.append hrest

theorem copied_of_plain {c : UInt16} (h : 32 < c.toNat ∧ c ≠ quoteMark ∧ c ≠ slash) :
    Copied c := by
  refine ⟨?_, h.2.2, h.2.1⟩
  cases hblank : isBlank c with
  | false => rfl
  | true =>
    have hle := UInt16.le_iff_toNat_le.mp (isBlank_le hblank)
    change c.toNat ≤ 32 at hle
    omega

theorem inside_plain {c : UInt16} {t : List UInt16} (hquote : c ≠ quoteMark)
    (hback : c ≠ backslash) :
    minifyFrom .inside (c :: t) = (minifyFrom .inside t).map (c :: ·) := by
  cases t with
  | nil =>
    change (if c = quoteMark then _ else none) = none
    rw [if_neg hquote]
  | cons d t => rw [minifyFrom, if_neg hquote, if_neg hback]

theorem inside_quote {t : List UInt16} :
    minifyFrom .inside (quoteMark :: t) = (minifyFrom .outside t).map (quoteMark :: ·) := by
  cases t with
  | nil => rfl
  | cons d t => rfl

theorem inside_escape {d : UInt16} {t : List UInt16} :
    minifyFrom .inside (backslash :: d :: t) =
      (minifyFrom .inside t).map fun out => backslash :: d :: out := by
  rw [minifyFrom, if_neg (by decide), if_pos rfl]

theorem SpellsUnits.minify {t s : List UInt16} (h : SpellsUnits t s) (rest : List UInt16) :
    minifyFrom .inside (t ++ quoteMark :: rest) =
      (minifyFrom .outside rest).map fun out => t ++ quoteMark :: out := by
  induction h with
  | nil => exact inside_quote
  | plain hquote hback h ih =>
    rw [List.cons_append, inside_plain hquote hback, ih, Option.map_map]
    rfl
  | short he h ih =>
    rw [List.cons_append, List.cons_append, inside_escape, ih, Option.map_map]
    rfl
  | hex hu hpos hascii h ih =>
    have ⟨w, x, y, z, ha, hb, hc, hd⟩ := parseHex4_digits (hu ▸ Nat.pos_iff_ne_zero.mp hpos)
    simp only [List.cons_append]
    rw [inside_escape, inside_plain (hexDigit_plain ha).1 (hexDigit_plain ha).2,
      inside_plain (hexDigit_plain hb).1 (hexDigit_plain hb).2,
      inside_plain (hexDigit_plain hc).1 (hexDigit_plain hc).2,
      inside_plain (hexDigit_plain hd).1 (hexDigit_plain hd).2, ih]
    simp only [Option.map_map]
    rfl

/-- A string is kept as it is. -/
theorem SpellsUnits.keeps {t s : List UInt16} (h : SpellsUnits t s) :
    Keeps (quoteMark :: (t ++ [quoteMark])) (quoteMark :: (t ++ [quoteMark])) := by
  intro rest
  have hopen : minifyFrom .outside (quoteMark :: (t ++ quoteMark :: rest)) =
      (minifyFrom .inside (t ++ quoteMark :: rest)).map (quoteMark :: ·) := by
    rw [minifyFrom, if_neg (by decide), if_neg fun hc => absurd hc.1 (by decide),
      if_neg fun hc => absurd hc.1 (by decide), if_pos rfl]
  rw [List.cons_append, List.append_assoc]
  change minifyFrom .outside (quoteMark :: (t ++ quoteMark :: rest)) = _
  rw [hopen, h.minify, Option.map_map]
  congr 1
  funext out
  change quoteMark :: (t ++ quoteMark :: out) = quoteMark :: (t ++ [quoteMark] ++ out)
  rw [List.append_assoc]
  rfl

theorem keeps_number {n : NumberText} (hn : n.WellFormed) : Keeps n.text n.text := by
  refine keeps_copied fun c hc => ?_
  rcases hn.units c hc with h | rfl | rfl | rfl | rfl | rfl
  · refine copied_of_plain ⟨Nat.lt_of_lt_of_le (by decide) (isDigit_le h).1, isDigit_ne h rfl,
      isDigit_ne h rfl⟩
  · exact ⟨rfl, by decide, by decide⟩
  · exact ⟨rfl, by decide, by decide⟩
  · exact ⟨rfl, by decide, by decide⟩
  · exact ⟨rfl, by decide, by decide⟩
  · exact ⟨rfl, by decide, by decide⟩

/-! ## 3. What is left out -/

theorem keeps_blank {c : UInt16} (hc : isBlank c = true) : Keeps [c] [] := by
  intro rest
  change minifyFrom .outside (c :: rest) = _
  rw [minifyFrom, if_pos hc]
  exact (keeps_nil rest)

theorem keeps_blanks {g : List UInt16} (hg : Blanks g) : Keeps g [] := by
  induction g with
  | nil => exact keeps_nil
  | cons c g ih =>
    rw [Blanks, List.all_cons, Bool.and_eq_true] at hg
    exact (keeps_blank hg.1).append (ih hg.2)

/-- Blanks and comments.  A comment of more than one line ends at the first `*/` behind its `/*`; one
whose text begins with a slash is left out, since the function ends it there. -/
inductive Ignored : List UInt16 → Prop where
  | nil : Ignored []
  | blank {c : UInt16} {g : List UInt16} (hc : isBlank c = true) (hg : Ignored g) :
      Ignored (c :: g)
  | line {text g : List UInt16} (htext : newline ∉ text) (hg : Ignored g) :
      Ignored (slash :: slash :: (text ++ newline :: g))
  | comment {text g : List UInt16} (hslash : text.head? ≠ some slash)
      (htext : ∀ pre post, text ++ [star] ≠ pre ++ star :: slash :: post) (hg : Ignored g) :
      Ignored (slash :: star :: (text ++ star :: slash :: g))

/-- What may stand behind the last token: there the end of the text ends a comment of one line. -/
def IgnoredLast (g : List UInt16) : Prop :=
  Ignored g ∨ ∃ g' text, Ignored g' ∧ newline ∉ text ∧ g = g' ++ slash :: slash :: text

theorem line_text {text : List UInt16} (htext : newline ∉ text) (rest : List UInt16) :
    minifyFrom .line (text ++ newline :: rest) = minifyFrom .outside rest := by
  induction text with
  | nil => rfl
  | cons c text ih =>
    rw [List.mem_cons, not_or] at htext
    rw [List.cons_append, minifyFrom, if_neg (Ne.symm htext.1), ih htext.2]

theorem line_last {text : List UInt16} (htext : newline ∉ text) :
    minifyFrom .line text = some [] := by
  induction text with
  | nil => rfl
  | cons c text ih =>
    rw [List.mem_cons, not_or] at htext
    rw [minifyFrom, if_neg (Ne.symm htext.1), ih htext.2]

theorem comment_text {text : List UInt16}
    (htext : ∀ pre post, text ++ [star] ≠ pre ++ star :: slash :: post) (rest : List UInt16) :
    minifyFrom .comment (text ++ star :: slash :: rest) = minifyFrom .outside rest := by
  induction text with
  | nil => rfl
  | cons c text ih =>
    have hrest : ∀ pre post, text ++ [star] ≠ pre ++ star :: slash :: post := fun pre post heq =>
      htext (c :: pre) post (congrArg (c :: ·) heq)
    rw [← ih hrest]
    cases text with
    | nil =>
      change (if c = star ∧ star = slash then _ else _) = _
      rw [if_neg fun h => absurd h.2 (by decide)]
      rfl
    | cons d text =>
      change (if c = star ∧ d = slash then _ else _) = _
      rw [if_neg]
      · rfl
      · intro h
        obtain ⟨rfl, rfl⟩ := h
        exact htext [] (text ++ [star]) rfl

theorem Ignored.keeps {g : List UInt16} (hg : Ignored g) : Keeps g [] := by
  induction hg with
  | nil => exact keeps_nil
  | blank hc hg ih => exact (keeps_blank hc).append ih
  | @line text g htext hg ih =>
    intro rest
    have hline : minifyFrom .outside (slash :: slash :: (text ++ newline :: (g ++ rest))) =
        minifyFrom .line (slash :: (text ++ newline :: (g ++ rest))) := rfl
    have hslash : newline ∉ slash :: text := by
      rw [List.mem_cons, not_or]
      exact ⟨by decide, htext⟩
    have hskip := line_text hslash (g ++ rest)
    rw [← ih rest, ← hskip, List.cons_append, List.cons_append, List.append_assoc]
    exact hline
  | @comment text g hslash htext hg ih =>
    intro rest
    have hstar : ∀ pre post, star :: (text ++ [star]) ≠ pre ++ star :: slash :: post := by
      intro pre post heq
      cases pre with
      | cons c pre => exact htext pre post (List.cons.inj heq).2
      | nil =>
        have hhead := congrArg List.head? (List.cons.inj heq).2
        cases text with
        | nil => cases hhead
        | cons c text => exact hslash hhead
    have hskip := @comment_text (star :: text) hstar (g ++ rest)
    rw [← ih rest, ← hskip, List.cons_append, List.cons_append, List.append_assoc]
    rfl

theorem IgnoredLast.minify {g : List UInt16} (hg : IgnoredLast g) :
    minifyFrom .outside g = some [] := by
  rcases hg with hg | ⟨g', text, hg', htext, rfl⟩
  · have hkeeps := hg.keeps []
    rwa [List.append_nil] at hkeeps
  · have hslash : newline ∉ slash :: text := by
      rw [List.mem_cons, not_or]
      exact ⟨by decide, htext⟩
    have hline : minifyFrom .outside (slash :: slash :: text) = minifyFrom .line (slash :: text) :=
      rfl
    rw [hg'.keeps, hline, line_last hslash]
    rfl

/-- The slash that begins the text of a comment ends it. -/
theorem keeps_comment_slash : Keeps [slash, star, slash] [] := fun rest => keeps_nil rest

-- the text of the comment is left, without what opened it
example : minify (lit "[/*/a*/1]") = some (lit "[a*/1]") := by decide

theorem keeps_colon : Keeps [colon] [colon] := Copied.keeps ⟨rfl, by decide, by decide⟩

theorem keeps_comma : Keeps [comma] [comma] := Copied.keeps ⟨rfl, by decide, by decide⟩

theorem keeps_openBracket : Keeps [openBracket] [openBracket] :=
  Copied.keeps ⟨rfl, by decide, by decide⟩

theorem keeps_closeBracket : Keeps [closeBracket] [closeBracket] :=
  Copied.keeps ⟨rfl, by decide, by decide⟩

theorem keeps_openBrace : Keeps [openBrace] [openBrace] :=
  Copied.keeps ⟨rfl, by decide, by decide⟩

theorem keeps_closeBrace : Keeps [closeBrace] [closeBrace] :=
  Copied.keeps ⟨rfl, by decide, by decide⟩

theorem keeps_null : Keeps (lit "null") (lit "null") :=
  keeps_copied (by simp [lit, Copied, isBlank, slash, quoteMark])

theorem keeps_false : Keeps (lit "false") (lit "false") :=
  keeps_copied (by simp [lit, Copied, isBlank, slash, quoteMark])

theorem keeps_true : Keeps (lit "true") (lit "true") :=
  keeps_copied (by simp [lit, Copied, isBlank, slash, quoteMark])

/-! ## 4. Texts with comments -/

variable {D : Type} {A : Doubles D} {Number : NumberText → D → Prop}

mutual

/-- What is left of a text of the grammar spells the same item. -/
theorem Spells.minify {v : JsonTree D} {t : List UInt16} (h : Spells A Number Ignored v t) :
    ∃ kept, Spells A Number Nothing v kept ∧ Keeps t kept := by
  match h with
  | .null => exact ⟨_, .null, keeps_null⟩
  | .false => exact ⟨_, .false, keeps_false⟩
  | .true => exact ⟨_, .true, keeps_true⟩
  | .number hn hd => exact ⟨_, .number hn hd, keeps_number hn⟩
  | .string h => exact ⟨_, .string h, h.keeps⟩
  | .emptyArray hg =>
    exact ⟨_, .emptyArray rfl, keeps_openBracket.append (hg.keeps.append keeps_closeBracket)⟩
  | .array h =>
    have ⟨kept, hkept, hkeeps⟩ := h.minify
    exact ⟨_, .array hkept, keeps_openBracket.append hkeeps⟩
  | .emptyObject hg =>
    exact ⟨_, .emptyObject rfl, keeps_openBrace.append (hg.keeps.append keeps_closeBrace)⟩
  | .object h =>
    have ⟨kept, hkept, hkeeps⟩ := h.minify
    exact ⟨_, .object hkept, keeps_openBrace.append hkeeps⟩

theorem SpellsElements.minify {vs : List (JsonTree D)} {t : List UInt16}
    (h : SpellsElements A Number Ignored vs t) :
    ∃ kept, SpellsElements A Number Nothing vs kept ∧ Keeps t kept := by
  match h with
  | .last hg h hg' =>
    have ⟨kept, hkept, hkeeps⟩ := h.minify
    exact ⟨_, .last rfl hkept rfl,
      hg.keeps.append (hkeeps.append (hg'.keeps.append keeps_closeBracket))⟩
  | .more hg h hg' hs =>
    have ⟨kept, hkept, hkeeps⟩ := h.minify
    have ⟨more, hmore, hkeeps'⟩ := hs.minify
    exact ⟨_, .more rfl hkept rfl hmore,
      hg.keeps.append (hkeeps.append (hg'.keeps.append (keeps_comma.append hkeeps')))⟩

theorem SpellsMembers.minify {ms : List (TText × JsonTree D)} {t : List UInt16}
    (h : SpellsMembers A Number Ignored ms t) :
    ∃ kept, SpellsMembers A Number Nothing ms kept ∧ Keeps t kept := by
  match h with
  | .last h hg' =>
    have ⟨kept, hkept, hkeeps⟩ := h.minify
    exact ⟨_, .last hkept rfl, hkeeps.append (hg'.keeps.append keeps_closeBrace)⟩
  | .more h hg' hs =>
    have ⟨kept, hkept, hkeeps⟩ := h.minify
    have ⟨more, hmore, hkeeps'⟩ := hs.minify
    exact ⟨_, .more hkept rfl hmore,
      hkeeps.append (hg'.keeps.append (keeps_comma.append hkeeps'))⟩

theorem SpellsMember.minify {m : TText × JsonTree D} {t : List UInt16}
    (h : SpellsMember A Number Ignored m t) :
    ∃ kept, SpellsMember A Number Nothing m kept ∧ Keeps t kept := by
  match h with
  | @SpellsMember.mk _ _ _ _ string v g k g₁ g₂ t hg hk hg₁ hg₂ h =>
    have ⟨kept, hkept, hkeeps⟩ := h.minify
    have hname := hk.keeps.append (hg₁.keeps.append (keeps_colon.append (hg₂.keeps.append hkeeps)))
    have hall := hg.keeps.append hname
    refine ⟨_, .mk rfl hk rfl rfl hkept, ?_⟩
    simpa only [List.append_assoc, List.cons_append, List.nil_append] using hall

end

/-! ## 5. Texts that were printed -/

mutual

theorem keeps_render (hprints : A.Prints) (depth : Nat) :
    ∀ v : JsonTree D, Keeps (render A true depth v) (render A false depth v)
  | .null => keeps_null
  | .false => keeps_false
  | .true => keeps_true
  | .number i d => keeps_copied fun c hc => copied_of_plain (numberText_plain hprints i d c hc)
  | .string s => (spells_escape s.no_nul).keeps
  | .array child => keeps_openBracket.append
      ((keeps_renderElements hprints (depth + 1) child).append keeps_closeBracket)
  | .object [] =>
    keeps_openBrace.append ((keeps_blanks (blanks_tabs (depth - 1))).append keeps_closeBrace)
  | .object (m :: ms) => by
    have hmembers := keeps_renderMembers hprints (depth + 1) (m :: ms)
    have hnewline := keeps_blank (c := newline) rfl
    have hend := (keeps_blanks (blanks_tabs depth)).append keeps_closeBrace
    rw [render_object, render_object]
    exact keeps_openBrace.append (hnewline.append (hmembers.append hend))

theorem keeps_renderElements (hprints : A.Prints) (depth : Nat) :
    ∀ vs : List (JsonTree D), Keeps (arrayPieces true (renderElements A true depth vs)).flatten
      (arrayPieces false (renderElements A false depth vs)).flatten
  | [] => keeps_nil
  | [v] => (keeps_render hprints depth v).append keeps_nil
  | v :: v' :: vs => by
    have hrest := keeps_renderElements hprints depth (v' :: vs)
    have hcomma := keeps_comma.append (keeps_blank (c := blank) rfl)
    exact (keeps_render hprints depth v).append (hcomma.append hrest)

theorem keeps_renderMembers (hprints : A.Prints) (depth : Nat) :
    ∀ ms : List (TText × JsonTree D),
      Keeps (objectPieces true depth (renderMembers A true depth ms)).flatten
        (objectPieces false depth (renderMembers A false depth ms)).flatten
  | [] => keeps_nil
  | (string, v) :: ms => by
    have hrest := keeps_renderMembers hprints depth ms
    have hname := (spells_escape string.no_nul).keeps
    have hmember := (keeps_blanks (blanks_tabs depth)).append (hname.append (keeps_colon.append
      ((keeps_blank (c := tab) rfl).append (keeps_render hprints depth v))))
    have hnewline := keeps_blank (c := newline) rfl
    rw [renderMembers, renderMembers, flatten_objectPieces_cons, flatten_objectPieces_cons]
    cases ms with
    | nil =>
      rw [if_pos (show renderMembers A true depth [] = [] from rfl),
        if_pos (show renderMembers A false depth [] = [] from rfl)]
      have hall := hmember.append (hnewline.append hrest)
      simpa only [List.append_assoc, List.cons_append, List.nil_append, if_true, renderString,
        Bool.false_eq_true, if_false] using hall
    | cons m ms =>
      rw [if_neg (renderMembers_ne_nil depth m ms), if_neg (renderMembers_ne_nil depth m ms)]
      have hall := hmember.append (keeps_comma.append (hnewline.append hrest))
      simpa only [List.append_assoc, List.cons_append, List.nil_append, if_true, renderString,
        Bool.false_eq_true, if_false] using hall

end

/-- `cJSON_Minify` makes the text of `cJSON_PrintUnformatted` of that of `cJSON_Print`. -/
theorem minify_print (hprints : A.Prints) (item : JsonTree D) :
    (print A item).bind minify = printUnformatted A item := by
  have hkeeps := keeps_render hprints 0 item []
  rw [List.append_nil] at hkeeps
  rw [print, printUnformatted, printValue_eq hprints, printValue_eq hprints]
  change minifyFrom .outside (render A true 0 item) = _
  rw [hkeeps]
  exact congrArg some (List.append_nil _)

theorem minify_print_member : (print integers (.object [(cStr (lit "a"), .null)])).bind minify =
    printUnformatted integers (.object [(cStr (lit "a"), .null)]) :=
  minify_print integers_prints (.object [(cStr (lit "a"), .null)])

end VerifyServer.Protocol
