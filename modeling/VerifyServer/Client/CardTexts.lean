import VerifyServer.Client.OfflineClientUser

/-!
# CardTexts — the statements of the card operations, read back

With strings that hold no quote mark, each text is read as the statement its format spells.  What
`Select` takes out of the text of `commit_verify` is its condition, for card numbers that none of
the patterns of `Select` take for something else.
-/

open VerifyServer.Reasoning VerifyServer.Reasoning.Sql

namespace VerifyServer.Client.Offline

/-! ## 1. The texts the formats give -/

def insertHead : JavaString :=
  lit "INSERT INTO tlVeriryCardUser ( " ++ (indent ++ lit "CardNumber") ++
    (nextLine ++ lit "CardUserPassword") ++ (nextLine ++ lit "CardPasswordEncrypt") ++
    (nextLine ++ lit "CarUserFirname") ++ (nextLine ++ lit "Describe") ++
    (nextLine ++ lit "CardRegistOwnUser") ++ (nextLine ++ lit "CardRegistUserPhone") ++
    (nextLine ++ lit "CardRegistUserSex") ++ (nextLine ++ lit "CardRegistTime") ++
    (nextLine ++ lit "ExtraText) VALUES (") ++ indent

-- `sex` in the digits of the locale
def insertText (card password encrypt firstName phone sex : JavaString) : JavaString :=
  insertHead ++
  (quoted card ++ (lit ", " ++ (quoted password ++ ((lit "," ++ indent) ++ (quoted encrypt ++
  (nextLine ++ (quoted firstName ++ (nextLine ++
  (quoted (lit "no describe") ++ (nextLine ++ (quoted (lit "unline user") ++
  (nextLine ++ (quoted phone ++ (nextLine ++ (sex ++
  ((nextLine ++ lit "DATE('NOW')" ++ nextLine) ++ (quoted (lit "no extra text") ++
  lit ");")))))))))))))))))

def deleteHead : JavaString := lit "DELETE FROM tlVeriryCardUser WHERE CardNumber="

def deleteText (card : JavaString) : JavaString := deleteHead ++ (quoted card ++ lit ";")

-- the blanks between the two conditions
def andPassword : JavaString :=
  lit "   " ++ lit "\t\t\t\t\t\t\t\t\t\t\t   and CardPasswordEncrypt="

def selectHead : JavaString := lit "SELECT * FROM tlVeriryCardUser WHERE CardNumber="

def selectText (card encrypt : JavaString) : JavaString :=
  selectHead ++
    (quoted card ++ (andPassword ++ (quoted encrypt ++ lit ";")))

/-- The formats, cut at their conversions. -/
theorem format_conversions :
    conversions deleteCarduserData =
      ([(deleteHead ++ [quoteMark], 0x73)], quoteMark :: lit ";") ∧
    conversions selectCardInfoNamePassEncrypt =
      ([(selectHead ++ [quoteMark], 0x73),
        (quoteMark :: (andPassword ++ [quoteMark]), 0x73)], quoteMark :: lit ";") ∧
    conversions insertCarduserData =
      ([(insertHead ++ [quoteMark], 0x73),
        (quoteMark :: (lit ", " ++ [quoteMark]), 0x73),
        (quoteMark :: ((lit "," ++ indent) ++ [quoteMark]), 0x73),
        (quoteMark :: (nextLine ++ [quoteMark]), 0x73),
        (quoteMark :: (nextLine ++ [quoteMark]), 0x73),
        (quoteMark :: (nextLine ++ [quoteMark]), 0x73),
        (quoteMark :: (nextLine ++ [quoteMark]), 0x73),
        (quoteMark :: nextLine, 0x64),
        ((nextLine ++ lit "DATE('NOW')" ++ nextLine) ++ [quoteMark], 0x73)],
        quoteMark :: lit ");") := by
  decide +kernel

theorem format_delete (zero : UInt16) (card : JavaString) :
    format zero deleteCarduserData [.string card] = some (deleteText card) := by
  rw [format, format_conversions.1]
  show some ((deleteHead ++ [quoteMark]) ++ (card ++ quoteMark :: lit ";")) = _
  simp only [deleteText, quoted, List.append_assoc, List.cons_append, List.nil_append]

theorem format_select (zero : UInt16) (card encrypt : JavaString) :
    format zero selectCardInfoNamePassEncrypt [.string card, .string encrypt] =
      some (selectText card encrypt) := by
  rw [format, format_conversions.2.1]
  show some ((selectHead ++ [quoteMark]) ++ (card ++ ((quoteMark :: (andPassword ++ [quoteMark])) ++
    (encrypt ++ quoteMark :: lit ";")))) = _
  simp only [selectText, quoted, List.append_assoc, List.cons_append, List.nil_append]

theorem format_insert (zero : UInt16) (card password encrypt firstName phone : JavaString)
    (sex : Int) :
    format zero insertCarduserData [.string card, .string password, .string encrypt,
      .string firstName, .string (lit "no describe"), .string (lit "unline user"), .string phone,
      .int sex, .string (lit "no extra text")] =
    some (insertText card password encrypt firstName phone (localized zero (decimal sex))) := by
  have hletter : (0x64 : UInt16) ≠ 0x73 := by decide
  rw [format, format_conversions.2.2]
  simp only [fill, Arg.convert, ↓reduceIte, if_neg hletter, Option.bind_some, Option.map_some,
    insertText, quoted, List.append_assoc, List.cons_append, List.nil_append]

/-! ## 2. What the database reads in them -/

section

variable {card password encrypt firstName phone : JavaString}

-- the columns of the insert, in its order
def insertColumns : List JavaString :=
  [cardNumber, lit "CardUserPassword", cardPasswordEncrypt, lit "CarUserFirname", lit "Describe",
    lit "CardRegistOwnUser", lit "CardRegistUserPhone", lit "CardRegistUserSex",
    lit "CardRegistTime", lit "ExtraText"]

def numberValue : Int → Value
  | .ofNat n => .number false (digits n)
  | .negSucc n => .number true (digits (n + 1))

def insertValues (card password encrypt firstName phone : JavaString) (sex : Int) : List Value :=
  [.text card, .text password, .text encrypt, .text firstName, .text (lit "no describe"),
    .text (lit "unline user"), .text phone, numberValue sex, .call (lit "DATE") (lit "NOW"),
    .text (lit "no extra text")]

def comma : Token := .symbol 0x2C

def insertHeadTokens : List Token :=
  [.word (lit "INSERT"), .word (lit "INTO"), .word tlVeriryCardUser, .symbol 0x28,
    .word cardNumber, comma, .word (lit "CardUserPassword"), comma, .word cardPasswordEncrypt,
    comma, .word (lit "CarUserFirname"), comma, .word (lit "Describe"), comma,
    .word (lit "CardRegistOwnUser"), comma, .word (lit "CardRegistUserPhone"), comma,
    .word (lit "CardRegistUserSex"), comma, .word (lit "CardRegistTime"), comma,
    .word (lit "ExtraText"), .symbol 0x29, .word (lit "VALUES"), .symbol 0x28]

def insertTokens (card password encrypt firstName phone : JavaString) (sex : Int) : List Token :=
  insertHeadTokens ++ (.text card :: comma :: .text password :: comma :: .text encrypt :: comma ::
    .text firstName :: comma :: .text (lit "no describe") :: comma ::
    .text (lit "unline user") :: comma :: .text phone :: comma :: (numberTokens sex ++
    [comma, .word (lit "DATE"), .symbol 0x28, .text (lit "NOW"), .symbol 0x29, comma,
      .text (lit "no extra text"), .symbol 0x29, .symbol 0x3B]))

/-- The tokens of the pieces around the strings. -/
theorem pieces_read :
    Reads insertHead insertHeadTokens ∧ Reads (lit ", ") [comma] ∧
    Reads (lit "," ++ indent) [comma] ∧ Reads nextLine [comma] ∧
    Reads (nextLine ++ lit "DATE('NOW')" ++ nextLine)
      [comma, .word (lit "DATE"), .symbol 0x28, .text (lit "NOW"), .symbol 0x29, comma] ∧
    Reads (lit ");") [.symbol 0x29, .symbol 0x3B] ∧
    Reads deleteHead [.word (lit "DELETE"), .word (lit "FROM"), .word tlVeriryCardUser,
      .word (lit "WHERE"), .word cardNumber, .symbol 0x3D] ∧
    Reads (lit ";") [.symbol 0x3B] ∧
    Reads (lit "CardNumber=") [.word cardNumber, .symbol 0x3D] ∧
    Reads andPassword [.word (lit "and"), .word cardPasswordEncrypt, .symbol 0x3D] := by
  decide +kernel

theorem deleteText_reads (hcard : Quotable card) :
    Reads (deleteText card) [.word (lit "DELETE"), .word (lit "FROM"), .word tlVeriryCardUser,
      .word (lit "WHERE"), .word cardNumber, .symbol 0x3D, .text card, .symbol 0x3B] := by
  have ⟨_, _, _, _, _, _, hhead, hend, _⟩ := pieces_read
  exact hhead.append (Reads.quoted_append hcard rfl hend)

theorem parse_deleteText (hcard : Quotable card) :
    parse (deleteText card) = some (.delete tlVeriryCardUser [(cardNumber, card)]) := by
  rw [parse, (deleteText_reads hcard).lex_eq]
  rfl

theorem insertText_reads (hcard : Quotable card) (hpassword : Quotable password)
    (hencrypt : Quotable encrypt) (hfirst : Quotable firstName) (hphone : Quotable phone)
    (sex : Int) :
    Reads (insertText card password encrypt firstName phone (decimal sex))
      (insertTokens card password encrypt firstName phone sex) := by
  have ⟨hhead, hblank, hindent, hcomma, hdate, hend, _⟩ := pieces_read
  have hextra := hdate.append (Reads.quoted_append (s := lit "no extra text") (by decide) rfl hend)
  have hsex := hcomma.append (Reads.decimal_append sex rfl hextra)
  have hphone := Reads.quoted_append hphone rfl hsex
  have howner := Reads.quoted_append (s := lit "unline user") (by decide) rfl (hcomma.append hphone)
  have hdescribe :=
    Reads.quoted_append (s := lit "no describe") (by decide) rfl (hcomma.append howner)
  have hfirst := Reads.quoted_append hfirst rfl (hcomma.append hdescribe)
  have hencrypt := Reads.quoted_append hencrypt rfl (hcomma.append hfirst)
  have hpassword := Reads.quoted_append hpassword rfl (hindent.append hencrypt)
  exact hhead.append (Reads.quoted_append hcard rfl (hblank.append hpassword))

theorem parse_insertText (hcard : Quotable card) (hpassword : Quotable password)
    (hencrypt : Quotable encrypt) (hfirst : Quotable firstName) (hphone : Quotable phone)
    (sex : Int) :
    parse (insertText card password encrypt firstName phone (decimal sex)) =
      some (.insert tlVeriryCardUser insertColumns
        (insertValues card password encrypt firstName phone sex)) := by
  rw [parse, (insertText_reads hcard hpassword hencrypt hfirst hphone sex).lex_eq]
  cases sex with
  | ofNat n => rfl
  | negSucc n => rfl

end

/-! ## 3. What `Select` makes of the text of `commit_verify` -/

variable (classes : CharClasses)

/-- A card number that leaves the text of `commit_verify` as `Select` expects it. -/
structure Selectable (card : JavaString) : Prop where
  quotable : Quotable card
  one_line : ∀ c ∈ card, classes.isLineTerminator c = false
  no_semicolon : 0x3B ∉ card
  no_where : whereWord.find card = none
  no_having : havingWord.find card = none
  no_groupBy : (groupByWords classes).find card = none
  no_orderBy : (orderByWords classes).find card = none

/-- A digit is none of the characters that the texts and patterns treat apart. -/
theorem hexDigits_plain : hexDigits.all (fun c => c ≠ quoteMark && isPrintable c &&
    c ≠ 0x3B && lower c ≠ 0x77 && lower c ≠ 0x68 && lower c ≠ 0x67 && lower c ≠ 0x6F) = true := by
  decide +kernel

structure IsPlain (c : UInt16) : Prop where
  ne_quote : c ≠ quoteMark
  printable : isPrintable c = true
  ne_semicolon : c ≠ 0x3B
  no_initial : ∀ i ∈ ([0x77, 0x68, 0x67, 0x6F] : JavaString), lower c ≠ i

theorem isPlain_hex {s : JavaString} (hs : IsHex s) {c : UInt16} (hc : c ∈ s) : IsPlain c := by
  have hall := hs.all hexDigits_plain c hc
  simp only [Bool.and_eq_true, decide_eq_true_eq] at hall
  have ⟨⟨⟨⟨⟨⟨hquote, hprintable⟩, hsemicolon⟩, hw⟩, hh⟩, hg⟩, ho⟩ := hall
  refine ⟨hquote, hprintable, hsemicolon, ?_⟩
  simp only [List.forall_mem_cons, List.not_mem_nil]
  exact ⟨hw, hh, hg, ho, fun _ h => h.elim⟩

theorem IsPlain.ascii {c : UInt16} (h : IsPlain c) : c ≠ 0 ∧ c < 0xD800 := by
  have hc := isPrintable_of_forall (p := fun c => c ≠ 0 && c < 0xD800) (by decide) h.printable
  simpa using hc

theorem IsPlain.one_line {c : UInt16} (h : IsPlain c) : classes.isLineTerminator c = false :=
  classes.isLineTerminator_inline (by rw [isInline, h.printable]; rfl)

theorem quotable_hex {s : JavaString} (hs : IsHex s) : Quotable s where
  no_quote h := (isPlain_hex hs h).ne_quote rfl
  no_nul h := (isPlain_hex hs h).ascii.1 rfl
  paired := paired_of_ascii fun _ hc => (isPlain_hex hs hc).ascii.2

/-- No digit begins the word. -/
theorem find_literal_hex {s : JavaString} (hs : IsHex s) {w : String} {c : UInt16}
    {cs : JavaString} (hw : (lit w).map lower = c :: cs)
    (hc : c ∈ ([0x77, 0x68, 0x67, 0x6F] : JavaString)) : (literal w).find s = none := by
  rw [literal, hw]
  apply Regex.find_seq_none
  apply Regex.find_one_none
  intro d hd
  exact decide_eq_false ((isPlain_hex hs hd).no_initial c hc)

/-- A pattern that finds nothing in the pieces of the format. -/
def sparesFormat (r : Regex UInt16) : Bool :=
  r.Avoids quoteMark && r.find selectHead = none && r.find andPassword = none &&
    r.find (lit ";") = none

theorem clauses_spare_format :
    sparesFormat havingWord = true ∧ sparesFormat (literal "group") = true ∧
      sparesFormat (literal "order") = true ∧ (literal "by").Avoids quoteMark ∧
      (lit "having").map lower = [0x68, 0x61, 0x76, 0x69, 0x6E, 0x67] ∧
      (lit "group").map lower = [0x67, 0x72, 0x6F, 0x75, 0x70] ∧
      (lit "order").map lower = [0x6F, 0x72, 0x64, 0x65, 0x72] := by
  decide +kernel

/-- Where the first of two words is not, neither are both. -/
theorem sparesFormat_words {w : String} (hw : sparesFormat (literal w) = true) :
    sparesFormat (.seq (literal w) (.seq (.plus classes.isSpace) (literal "by"))) = true := by
  have ⟨_, _, _, hby, _⟩ := clauses_spare_format
  have hspace : classes.isSpace quoteMark = false := classes.isSpace_printable rfl (by decide)
  simp only [sparesFormat, Bool.and_eq_true, decide_eq_true_eq] at hw ⊢
  have ⟨⟨⟨havoids, hhead⟩, hand⟩, hend⟩ := hw
  exact ⟨⟨⟨⟨havoids, ⟨hspace, hspace⟩, hby⟩, Regex.find_seq_none hhead⟩,
    Regex.find_seq_none hand⟩, Regex.find_seq_none hend⟩

/-- What `FROM(.*)WHERE` and `where(.*)` meet in the format. -/
theorem where_in_format :
    whereWord.Avoids quoteMark ∧ (literal "FROM").Avoids quoteMark ∧
    whereWord.find selectHead = some ⟨none, lit " CardNumber="⟩ ∧
    (literal "FROM").find selectHead =
      some ⟨none, lit " tlVeriryCardUser " ++ 0x57 :: lit "HERE CardNumber="⟩ ∧
    whereWord.find (lit "HERE CardNumber=") = none ∧
    whereWord.successes (0x57 :: lit "HERE CardNumber=") = [⟨none, lit " CardNumber="⟩] ∧
    whereWord.find andPassword = none ∧ whereWord.find (lit ";") = none ∧
    (lit " tlVeriryCardUser ").all isInline = true ∧
    trim (lit " tlVeriryCardUser ") = tlVeriryCardUser ∧
    (lit "WHERE").map lower = [0x77, 0x68, 0x65, 0x72, 0x65] ∧
    (lit "where").map lower = [0x77, 0x68, 0x65, 0x72, 0x65] := by
  decide +kernel

/-- The pieces after `WHERE`, as the replacing of semicolons and the trimming leave them. -/
theorem condition_in_format :
    (lit " CardNumber=").all isInline = true ∧ andPassword.all isInline = true ∧
    (lit ";").all isInline = true ∧
    replace 0x3B 0 (lit " CardNumber=") = 0x20 :: lit "CardNumber=" ∧
    replace 0x3B 0 andPassword = andPassword ∧ replace 0x3B 0 (lit ";") = [0] ∧
    lit "CardNumber=" = 0x43 :: lit "ardNumber=" ∧
    selectHead = lit "SELECT" ++ lit " * FROM tlVeriryCardUser WHERE CardNumber=" ∧
    (lit "SELECT").map lower = (lit "select").map lower := by
  decide +kernel

theorem selectText_eq (card encrypt : JavaString) :
    selectText card encrypt = selectHead ++ quoteMark :: (card ++ quoteMark ::
      (andPassword ++ quoteMark :: (encrypt ++ quoteMark :: lit ";"))) := by
  simp only [selectText, quoted, List.append_assoc, List.cons_append, List.nil_append]

section

variable {classes} {card encrypt : JavaString} {r : Regex UInt16}

theorem find_after_head (hr : r.Avoids quoteMark) (hcard : r.find card = none)
    (hand : r.find andPassword = none) (hencrypt : r.find encrypt = none)
    (hend : r.find (lit ";") = none) :
    r.find (card ++ quoteMark :: (andPassword ++ quoteMark :: (encrypt ++ quoteMark :: lit ";"))) =
      none := by
  rw [Regex.find_append_none hr hcard, Regex.find_append_none hr hand,
    Regex.find_append_none hr hencrypt, hend]

theorem find_selectText_none (hr : sparesFormat r = true) (hcard : r.find card = none)
    (hencrypt : r.find encrypt = none) : r.find (selectText card encrypt) = none := by
  simp only [sparesFormat, Bool.and_eq_true, decide_eq_true_eq] at hr
  have ⟨⟨⟨havoids, hhead⟩, hand⟩, hend⟩ := hr
  rw [selectText_eq, Regex.find_append_none havoids hhead]
  exact find_after_head havoids hcard hand hencrypt hend

theorem selectText_no_having (hcard : Selectable classes card) (hencrypt : IsHex encrypt) :
    clause classes havingWord (selectText card encrypt) = none := by
  have ⟨hspares, _, _, _, hword, _⟩ := clauses_spare_format
  apply clause_none
  apply find_selectText_none hspares hcard.no_having
  exact find_literal_hex hencrypt hword (by decide)

theorem selectText_no_groupBy (hcard : Selectable classes card) (hencrypt : IsHex encrypt) :
    clause classes (groupByWords classes) (selectText card encrypt) = none := by
  have ⟨_, hspares, _, _, _, hword, _⟩ := clauses_spare_format
  apply clause_none
  apply find_selectText_none (sparesFormat_words classes hspares) hcard.no_groupBy
  exact Regex.find_seq_none (find_literal_hex hencrypt hword (by decide))

theorem selectText_no_orderBy (hcard : Selectable classes card) (hencrypt : IsHex encrypt) :
    clause classes (orderByWords classes) (selectText card encrypt) = none := by
  have ⟨_, _, hspares, _, _, _, hword⟩ := clauses_spare_format
  apply clause_none
  apply find_selectText_none (sparesFormat_words classes hspares) hcard.no_orderBy
  exact Regex.find_seq_none (find_literal_hex hencrypt hword (by decide))

-- what follows the format's own `WHERE`
def afterWhere (card encrypt : JavaString) : JavaString :=
  lit " CardNumber=" ++ quoteMark :: (card ++ quoteMark ::
    (andPassword ++ quoteMark :: (encrypt ++ quoteMark :: lit ";")))

theorem find_where (card encrypt : JavaString) :
    whereWord.find (selectText card encrypt) = some ⟨none, afterWhere card encrypt⟩ := by
  have ⟨havoids, _, hhead, _⟩ := where_in_format
  rw [selectText_eq, Regex.find_append_some havoids hhead]
  rfl

/-- The greedy group ends at the last `WHERE`, which is the format's own. -/
theorem selectText_table (hcard : Selectable classes card) (hencrypt : IsHex encrypt) :
    (captured (tableRegex classes) (selectText card encrypt)).map trim = some tlVeriryCardUser := by
  have ⟨havoids, hfromAvoids, _, hfrom, hhere, hclosed, hand, hend, hline, htrim, hupper, hlower⟩ :=
    where_in_format
  have hword : literal "WHERE" = whereWord := by
    unfold whereWord literal
    rw [hupper, hlower]
  rw [captured, tableRegex, line, hword, selectText_eq]
  generalize htail : card ++ quoteMark :: (andPassword ++ quoteMark ::
    (encrypt ++ quoteMark :: lit ";")) = tail
  have hlast : whereWord.find (lit "HERE CardNumber=" ++ quoteMark :: tail) = none := by
    rw [Regex.find_append_none havoids hhere, ← htail]
    exact find_after_head havoids hcard.no_where hand
      (find_literal_hex hencrypt hlower (by decide)) hend
  have hwhere : (whereWord.successes
      (0x57 :: (lit "HERE CardNumber=" ++ quoteMark :: tail))).head? =
        some ⟨none, lit " CardNumber=" ++ quoteMark :: tail⟩ := by
    rw [← List.cons_append, Regex.successes_append havoids, hclosed]
    rfl
  have hgroup := Regex.group_many_last (all_isDot classes hline) hlast hwhere
  rw [← List.cons_append, ← List.append_assoc] at hgroup
  have hfound := Regex.find_append_some hfromAvoids hfrom tail
  rw [Regex.find_seq hfound hgroup, ← htrim]
  rfl

/-- The condition of `commit_verify`, as `Select` hands it on. -/
def whereText (card encrypt : JavaString) : JavaString :=
  lit "CardNumber=" ++ (quoted card ++ (andPassword ++ quoted encrypt))

theorem afterWhere_one_line (hcard : Selectable classes card) (hencrypt : IsHex encrypt) :
    ∀ c ∈ afterWhere card encrypt, classes.isLineTerminator c = false := by
  have hclosed : ∀ {s : JavaString}, s.all isInline = true →
      ∀ c ∈ s, classes.isLineTerminator c = false :=
    fun hs c hc => isDot_iff.mp (all_isDot classes hs c hc)
  have ⟨hhead, hand, hend, _⟩ := condition_in_format
  have hquote : classes.isLineTerminator quoteMark = false := classes.isLineTerminator_inline rfl
  unfold afterWhere
  simp only [List.forall_mem_append, List.forall_mem_cons]
  exact ⟨hclosed hhead, hquote, hcard.one_line, hquote, hclosed hand, hquote,
    fun c hc => (isPlain_hex hencrypt hc).one_line classes, hquote, hclosed hend⟩

theorem replace_afterWhere (hcard : Selectable classes card) (hencrypt : IsHex encrypt) :
    replace 0x3B 0 (afterWhere card encrypt) = 0x20 :: (whereText card encrypt ++ [0]) := by
  have hhex : 0x3B ∉ encrypt := fun h => (isPlain_hex hencrypt h).ne_semicolon rfl
  have ⟨_, _, _, hhead, hand, hend, _⟩ := condition_in_format
  have hquote : ∀ s, replace 0x3B 0 (quoteMark :: s) = quoteMark :: replace 0x3B 0 s :=
    fun s => rfl
  rw [afterWhere, replace_append, hhead, hquote, replace_append,
    replace_of_not_mem hcard.no_semicolon, hquote, replace_append, hand, hquote, replace_append,
    replace_of_not_mem hhex, hquote, hend]
  simp only [whereText, quoted, List.append_assoc, List.cons_append, List.nil_append]

theorem selectText_selection (hcard : Selectable classes card) (hencrypt : IsHex encrypt) :
    clause classes whereWord (selectText card encrypt) = some (whereText card encrypt) := by
  rw [clause_eq (find_where card encrypt) (afterWhere_one_line hcard hencrypt),
    replace_afterWhere hcard hencrypt]
  have ⟨_, _, _, _, _, _, hhead, _⟩ := condition_in_format
  have htext : whereText card encrypt = 0x43 :: ((lit "ardNumber=" ++
      (quoted card ++ (andPassword ++ quoteMark :: encrypt))) ++ [quoteMark]) := by
    simp only [whereText, hhead, quoted, List.append_assoc, List.cons_append, List.nil_append]
  have hshape : 0x20 :: (whereText card encrypt ++ [0]) = [0x20] ++ (0x43 ::
      ((lit "ardNumber=" ++ (quoted card ++ (andPassword ++ quoteMark :: encrypt))) ++
        quoteMark :: [0])) := by
    rw [htext]
    simp only [List.append_assoc, List.cons_append, List.nil_append]
  have hblank : ∀ c ∈ [(0x20 : UInt16)], isTrimmed c = true := List.forall_mem_singleton.mpr rfl
  have hnul : ∀ c ∈ [(0 : UInt16)], isTrimmed c = true := List.forall_mem_singleton.mpr rfl
  rw [hshape, trim_eq hblank hnul rfl rfl, htext]

theorem whereText_paired (hcard : Quotable card) (hencrypt : Quotable encrypt) :
    paired (whereText card encrypt) = true := by
  have ⟨_, _, _, _, _, _, _, _, hhead, hand⟩ := pieces_read
  exact paired_append hhead.paired (paired_append hcard.quoted_paired
    (paired_append hand.paired hencrypt.quoted_paired))

theorem parse_whereText (hcard : Quotable card) (hencrypt : Quotable encrypt) :
    parseWhere (whereText card encrypt) =
      some [(cardNumber, card), (cardPasswordEncrypt, encrypt)] := by
  have ⟨_, _, _, _, _, _, _, _, hhead, hand⟩ := pieces_read
  have hreads := hhead.append (Reads.quoted_append hcard rfl hand)
  have hlex := hreads.lex_quoted hencrypt
  rw [parseWhere, show whereText card encrypt =
    (lit "CardNumber=" ++ (quoted card ++ andPassword)) ++ quoted encrypt by
      simp only [whereText, List.append_assoc], hlex]
  rfl

/-- What `Select` asks the database. -/
theorem select_selectText {δ : Type} (db : SQLiteDatabase δ) (d : δ)
    (hcard : Selectable classes card) (hencrypt : IsHex encrypt) :
    select classes db (some d) (selectText card encrypt) =
      (db.query d tlVeriryCardUser (columnList classes (selectText card encrypt))
        (some (whereText card encrypt)) none none none none).map Cursor.strings := by
  have hstart : startsWithIgnoringCase (selectText card encrypt) (lit "select") = true := by
    have ⟨_, _, _, _, _, _, _, hhead, hword⟩ := condition_in_format
    rw [selectText, hhead, List.append_assoc]
    exact startsWithIgnoringCase_append hword _
  rw [select]
  simp only
  rw [if_pos hstart, selectText_table hcard hencrypt, selectText_selection hcard hencrypt,
    selectText_no_groupBy hcard hencrypt, selectText_no_having hcard hencrypt,
    selectText_no_orderBy hcard hencrypt]
  rfl

end

end VerifyServer.Client.Offline
