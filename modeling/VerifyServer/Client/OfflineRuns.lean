import VerifyServer.Client.CardTexts
import VerifyServer.Reasoning.Run

/-!
# OfflineRuns — the card database over whole runs

What the operations are for is a register of cards and their passwords.  Texts that carry each
string unchanged make the table of cards represent that register after any operations.
-/

open VerifyServer.Reasoning VerifyServer.Reasoning.Sql

namespace VerifyServer.Client.Offline

/-! ## 1. Operations -/

abbrev NonemptyString := {s : JavaString // s ≠ []}

inductive Operation where
  | regist (card password : NonemptyString) (phone firstName : Option JavaString) (sex : Int32)
  | verify (card password : NonemptyString)
  | verifyAfterDo (card : NonemptyString) (password : Option JavaString)

/-- The operator an operation posts where `zero` is the first digit of the default locale. -/
def Operation.post (zero : UInt16) : Operation → Option DoOperator
  | regist card password phone firstName sex =>
    commitRegist zero ⟨some card.1, phone, some password.1, sex, firstName⟩
  | verify card password => commitVerify zero ⟨some card.1, some password.1⟩
  | verifyAfterDo card password => commitVerifyAfterDo zero ⟨some card.1, password⟩

/-- The password each registered card was registered with. -/
abbrev Register := JavaString → Option JavaString

def Register.apply (register : Register) : Operation → Register
  | .regist card password _ _ _ =>
    if register card.1 = none then
      fun c => if c = card.1 then some password.1 else register c
    else register
  | .verify _ _ => register
  | .verifyAfterDo card _ => fun c => if c = card.1 then none else register c

/-- The database, and the register the operations so far amount to. -/
structure CardState (δ : Type) where
  mdb : Option δ
  register : Register

variable (classes : CharClasses) (zero : UInt16) {δ : Type} (db : SQLiteDatabase δ)

def step (s : CardState δ) (op : Operation) : Option (CardState δ) :=
  (op.post zero).map fun operator =>
    ⟨(operator.toDoOperate classes db s.mdb).2.2, s.register.apply op⟩

/-- `commit_verify(card, password)` reports success. -/
def verifies (mdb : Option δ) (card password : NonemptyString) : Bool :=
  match (Operation.verify card password).post zero with
  | none => false
  | some operator =>
    (operator.toDoOperate classes db mdb).2.1.any fun m => m.what = keyCardUserVerifySuc

/-- The row of a registration. -/
structure IsRegistration (r : Row) (card password : JavaString) : Prop where
  card_eq : r cardNumber = some card
  password_eq : r (lit "CardUserPassword") = some password
  encrypt_eq : r cardPasswordEncrypt =
    some (encodePasswordByCardnumber (some card) (some password))

/-- The table of cards has a row for each registered card, with its password, and no other row. -/
structure Stored (rows : δ → List Row) (d : δ) (register : Register) : Prop where
  row_of_registered {card password : JavaString} (h : register card = some password) :
    ∃ r ∈ rows d, IsRegistration r card password
  registered_of_row {r : Row} (h : r ∈ rows d) :
    ∃ card password, register card = some password ∧ IsRegistration r card password

/-- What is right before an operation: the open database has stored the register, and a
verification reports success exactly for a registered card and its password. -/
structure Right (rows : δ → List Row) (s : CardState δ) (op : Operation) : Prop where
  stored : ∃ d, s.mdb = some d ∧ Stored rows d s.register
  reported {card password : NonemptyString} (h : op = .verify card password) :
    verifies classes zero db s.mdb card password = true ↔ s.register card.1 = some password.1

/-- The strings of an operation reach the database unchanged, and so does a number: its digits are
ASCII. -/
def Operation.Carried : Operation → Prop
  | regist card password phone firstName _ =>
    zero = 0x30 ∧ Quotable card.1 ∧ Quotable password.1 ∧ Quotable (phone.getD (lit "null")) ∧
      Quotable (firstName.getD (lit "null"))
  | verify card password => Selectable classes card.1 ∧ paired password.1 = true
  | verifyAfterDo card _ => Quotable card.1

/-- The bytes an operation hashes. -/
def Operation.hashed : Operation → List (List UInt8)
  | regist card password _ _ _ => [getBytes (card.1 ++ password.1)]
  | verify card password => [getBytes (card.1 ++ password.1)]
  | verifyAfterDo _ _ => []

/-! ## 2. What each operation does -/

theorem post_regist (card password : NonemptyString) (phone firstName : Option JavaString)
    (sex : Int32) :
    (Operation.regist card password phone firstName sex).post zero =
      some (.execSql (insertText card.1 password.1
        (encodePasswordByCardnumber (some card.1) (some password.1))
        (firstName.getD (lit "null")) (phone.getD (lit "null"))
        (localized zero (decimal sex.toInt)))
        keyCardUserRegistSuc keyCardUserRegistFail) := by
  rw [Operation.post, commitRegist]
  simp only [formatted, Option.getD_some]
  rw [format_insert, Option.map_some]

theorem post_verify (card password : NonemptyString) :
    (Operation.verify card password).post zero =
      some (.selectSqlDo (selectText card.1
        (encodePasswordByCardnumber (some card.1) (some password.1)))
        keyCardUserVerifySuc keyCardUserVerifyFail) := by
  rw [Operation.post, commitVerify]
  simp only [formatted, Option.getD_some]
  rw [format_select, Option.map_some]

theorem post_verifyAfterDo (card : NonemptyString) (password : Option JavaString) :
    (Operation.verifyAfterDo card password).post zero =
      some (.deleteSqlDo (deleteText card.1) keyCardUserVerifyDeletetSuc
        keyCardUserVerifyDeleteFail) := by
  rw [Operation.post, commitVerifyAfterDo]
  simp only [formatted, Option.getD_some]
  rw [format_delete, Option.map_some]

theorem encode_isHex {c p : JavaString} (hc : c ≠ []) (hp : p ≠ []) :
    IsHex (encodePasswordByCardnumber (some c) (some p)) := by
  rw [encodePasswordByCardnumber_eq hc hp]
  exact getFormattedText_isHex _

theorem insert_fits (card password encrypt firstName phone : JavaString) (sex : Int) :
    FitsTable insertColumns (insertValues card password encrypt firstName phone sex) where
  nodup := by decide +kernel
  columns_mem column hcolumn := by
    have hall : insertColumns.all (fun column => column ∈ givenColumns) = true := by
      decide +kernel
    exact of_decide_eq_true (List.all_eq_true.mp hall column hcolumn)
  length_eq := rfl
  storable := by
    have hsex : isStorable (numberValue sex) = true := by cases sex <;> rfl
    have hdate : isStorable (.call (lit "DATE") (lit "NOW")) = true := by decide +kernel
    simp only [insertValues, List.forall_mem_cons, List.not_mem_nil, hsex, hdate]
    exact ⟨rfl, rfl, rfl, rfl, rfl, rfl, rfl, trivial, trivial, rfl, fun _ h => h.elim⟩

theorem insert_given (card password encrypt firstName phone : JavaString) (sex : Int) :
    let given := givenText insertColumns
      (insertValues card password encrypt firstName phone sex)
    given cardNumber = some card ∧ given (lit "CardUserPassword") = some password ∧
      given cardPasswordEncrypt = some encrypt :=
  ⟨rfl, rfl, rfl⟩

/-- A registration that is carried unchanged inserts its row, unless the card has one. -/
theorem execSql_regist {rows : δ → List Row} (hdb : Executes db rows) {d : δ}
    {card password : NonemptyString} {phone firstName : Option JavaString} {sex : Int32}
    (hcarried : (Operation.regist card password phone firstName sex).Carried classes zero) :
    let sql := insertText card.1 password.1
      (encodePasswordByCardnumber (some card.1) (some password.1))
      (firstName.getD (lit "null")) (phone.getD (lit "null")) (localized zero (decimal sex.toInt))
    ((∃ r ∈ rows d, r cardNumber = some card.1) → db.execSQL d sql = none) ∧
      ((∀ r ∈ rows d, r cardNumber ≠ some card.1) → ∃ d' r, db.execSQL d sql = some d' ∧
        rows d' = rows d ++ [r] ∧ IsRegistration r card.1 password.1) := by
  have ⟨hascii, hcard, hpassword, hphone, hfirst⟩ := hcarried
  rw [hascii, localized_ascii]
  intro sql
  have hencrypt := quotable_hex (encode_isHex card.2 password.2)
  have hreads := insertText_reads hcard hpassword hencrypt hfirst hphone sex.toInt
  have hparse := parse_insertText hcard hpassword hencrypt hfirst hphone sex.toInt
  have hfits := insert_fits card.1 password.1
    (encodePasswordByCardnumber (some card.1) (some password.1))
    (firstName.getD (lit "null")) (phone.getD (lit "null")) sex.toInt
  have hgiven := insert_given card.1 password.1
    (encodePasswordByCardnumber (some card.1) (some password.1))
    (firstName.getD (lit "null")) (phone.getD (lit "null")) sex.toInt
  constructor
  · intro hstored
    exact hdb.insert_stored hreads.paired hparse hfits hgiven.1 hstored
  · intro hnew
    have ⟨d', r, hexec, hrows, htexts⟩ :=
      hdb.insert_new hreads.paired hparse hfits hgiven.1 hnew
    have hcolumn : ∀ i : Fin 3, [cardNumber, lit "CardUserPassword", cardPasswordEncrypt].get i ∈
        textColumns := by
      decide +kernel
    exact ⟨d', r, hexec, hrows, htexts _ (hcolumn 0) _ hgiven.1, htexts _ (hcolumn 1) _ hgiven.2.1,
      htexts _ (hcolumn 2) _ hgiven.2.2⟩

theorem execSql_verifyAfterDo {rows : δ → List Row} (hdb : Executes db rows) (d : δ)
    {card : JavaString} (hcard : Quotable card) :
    ∃ d', db.execSQL d (deleteText card) = some d' ∧
      ∀ r, r ∈ rows d' ↔ r ∈ rows d ∧ r cardNumber ≠ some card := by
  have hcolumn : textColumns.contains cardNumber = true := by decide +kernel
  have ⟨d', hexec, hrows⟩ := hdb.delete (d := d) (deleteText_reads hcard).paired
    (parse_deleteText hcard) (List.forall_mem_singleton.mpr (List.contains_iff_mem.mp hcolumn))
  refine ⟨d', hexec, fun r => ?_⟩
  rw [hrows, List.mem_filter, Condition.holds, List.all_cons, List.all_nil, Bool.and_true,
    Bool.not_eq_true', decide_eq_false_iff_not]

/-- `commit_verify` of a card number that `Select` does not misread succeeds if a row has the card
number and the digest. -/
theorem select_verify {rows : δ → List Row} (hdb : Executes db rows) (d : δ)
    {card encrypt : JavaString} (hcard : Selectable classes card) (hencrypt : IsHex encrypt) :
    (∃ strings, select classes db (some d) (selectText card encrypt) = some strings ∧
      (strings.isSome = true ↔
        ∃ r ∈ rows d, r cardNumber = some card ∧ r cardPasswordEncrypt = some encrypt)) := by
  have hcolumns : ([cardNumber, cardPasswordEncrypt].all fun c => textColumns.contains c) =
      true := by
    decide +kernel
  have hmem : ∀ x ∈ [(cardNumber, card), (cardPasswordEncrypt, encrypt)], x.1 ∈ textColumns := by
    intro x hx
    have hcolumn : x.1 ∈ [cardNumber, cardPasswordEncrypt] :=
      List.mem_map_of_mem (f := Prod.fst) hx
    exact List.contains_iff_mem.mp (List.all_eq_true.mp hcolumns x.1 hcolumn)
  have ⟨cursor, hquery, hlen⟩ := hdb.query (d := d)
    (columnList_all classes (selectText card encrypt))
    (whereText_paired hcard.quotable (quotable_hex hencrypt))
    (parse_whereText hcard.quotable (quotable_hex hencrypt)) hmem
  refine ⟨cursor.strings, ?_, ?_⟩
  · rw [select_selectText db d hcard hencrypt, hquery]
    rfl
  · have hsome : cursor.strings.isSome = true ↔ cursor.rows ≠ [] := by
      unfold Cursor.strings
      split
      case isTrue h => simp [h]
      case isFalse h => simp [h]
    rw [hsome, ← List.length_pos_iff, hlen, List.length_pos_iff_exists_mem]
    constructor
    · rintro ⟨r, hr⟩
      have ⟨hrow, hholds⟩ := List.mem_filter.mp hr
      simp only [Condition.holds, List.all_cons, List.all_nil, Bool.and_true, Bool.and_eq_true,
        decide_eq_true_eq] at hholds
      exact ⟨r, hrow, hholds⟩
    · rintro ⟨r, hrow, hholds⟩
      refine ⟨r, List.mem_filter.mpr ⟨hrow, ?_⟩⟩
      simp only [Condition.holds, List.all_cons, List.all_nil, Bool.and_true, Bool.and_eq_true,
        decide_eq_true_eq]
      exact hholds

/-! ## 3. Runs -/

/-- The invariant of a run: what is registered is stored, and its passwords are among the texts
hashed. -/
structure Represents (rows : δ → List Row) (hashed : Set (List UInt8)) (s : CardState δ) :
    Prop where
  stored : ∃ d, s.mdb = some d ∧ Stored rows d s.register
  known {card password : JavaString} (h : s.register card = some password) :
    password ≠ [] ∧ paired password = true ∧ getBytes (card ++ password) ∈ hashed

theorem Stored.unregistered {rows : δ → List Row} {d : δ} {register : Register}
    (h : Stored rows d register) {card : JavaString} :
    register card = none ↔ ∀ r ∈ rows d, r cardNumber ≠ some card := by
  constructor
  · intro hnone r hr heq
    have ⟨c, p, hreg, hrow⟩ := h.registered_of_row hr
    rw [hrow.card_eq, Option.some.injEq] at heq
    rw [heq, hnone] at hreg
    exact Option.some_ne_none p hreg.symm
  · intro hrows
    by_contra hsome
    have ⟨p, hp⟩ := Option.ne_none_iff_exists'.mp hsome
    have ⟨r, hr, hrow⟩ := h.row_of_registered hp
    exact hrows r hr hrow.card_eq

theorem Stored.regist {rows : δ → List Row} {d d' : δ} {register : Register}
    (h : Stored rows d register) {card password : JavaString} (hcard : register card = none)
    {r : Row} (hrows : rows d' = rows d ++ [r]) (hrow : IsRegistration r card password) :
    Stored rows d' (fun c => if c = card then some password else register c) where
  row_of_registered {c p} hp := by
    rw [hrows]
    split at hp
    case isTrue hc =>
      rw [hc, ← Option.some.inj hp]
      exact ⟨r, List.mem_append_right _ (List.mem_singleton_self r), hrow⟩
    case isFalse hc =>
      have ⟨r', hr', hrow'⟩ := h.row_of_registered hp
      exact ⟨r', List.mem_append_left _ hr', hrow'⟩
  registered_of_row {r'} hr' := by
    rw [hrows, List.mem_append, List.mem_singleton] at hr'
    rcases hr' with hr' | rfl
    · have ⟨c, p, hreg, hrow'⟩ := h.registered_of_row hr'
      have hc : c ≠ card := by
        rintro rfl
        rw [hreg] at hcard
        exact Option.some_ne_none p hcard
      exact ⟨c, p, (if_neg hc).trans hreg, hrow'⟩
    · exact ⟨card, password, if_pos rfl, hrow⟩

theorem Stored.remove {rows : δ → List Row} {d d' : δ} {register : Register}
    (h : Stored rows d register) {card : JavaString}
    (hrows : ∀ r, r ∈ rows d' ↔ r ∈ rows d ∧ r cardNumber ≠ some card) :
    Stored rows d' (fun c => if c = card then none else register c) where
  row_of_registered {c p} hp := by
    split at hp
    case isTrue hc => exact absurd hp.symm (Option.some_ne_none p)
    case isFalse hc =>
      have ⟨r, hr, hrow⟩ := h.row_of_registered hp
      have hne : r cardNumber ≠ some card := by
        rw [hrow.card_eq, Ne, Option.some.injEq]
        exact hc
      exact ⟨r, (hrows r).mpr ⟨hr, hne⟩, hrow⟩
  registered_of_row {r} hr := by
    have ⟨hr, hne⟩ := (hrows r).mp hr
    have ⟨c, p, hreg, hrow⟩ := h.registered_of_row hr
    have hc : c ≠ card := fun hc => hne (by rw [hrow.card_eq, hc])
    exact ⟨c, p, (if_neg hc).trans hreg, hrow⟩

theorem step_regist {rows : δ → List Row} (hdb : Executes db rows) {hashed : Set (List UInt8)}
    {s : CardState δ} (hs : Represents rows hashed s) {card password : NonemptyString}
    {phone firstName : Option JavaString} {sex : Int32}
    (hcarried : (Operation.regist card password phone firstName sex).Carried classes zero)
    (hhashed : getBytes (card.1 ++ password.1) ∈ hashed) :
    ∃ t, step classes zero db s (.regist card password phone firstName sex) = some t ∧
      Represents rows hashed t := by
  have ⟨d, hd, hstored⟩ := hs.stored
  have ⟨hold, hnew⟩ := execSql_regist classes zero db hdb (d := d) hcarried
  rw [step, post_regist, Option.map_some, hd]
  refine ⟨_, rfl, ?_⟩
  simp only [DoOperator.toDoOperate, execSql, Register.apply]
  by_cases hcard : s.register card.1 = none
  · have ⟨d', r, hexec, hrows, hrow⟩ := hnew (hstored.unregistered.mp hcard)
    rw [hexec, if_pos hcard]
    show Represents rows hashed
      ⟨some d', fun c => if c = card.1 then some password.1 else s.register c⟩
    refine ⟨⟨d', rfl, hstored.regist hcard hrows hrow⟩, ?_⟩
    intro c p hp
    change (if c = card.1 then some password.1 else s.register c) = some p at hp
    split at hp
    case isTrue hc =>
      rw [hc, ← Option.some.inj hp]
      exact ⟨password.2, hcarried.2.2.1.paired, hhashed⟩
    case isFalse hc => exact hs.known hp
  · have ⟨p, hp⟩ := Option.ne_none_iff_exists'.mp hcard
    have ⟨r, hr, hrow⟩ := hstored.row_of_registered hp
    rw [hold ⟨r, hr, hrow.card_eq⟩, if_neg hcard]
    show Represents rows hashed ⟨some d, s.register⟩
    exact ⟨⟨d, rfl, hstored⟩, hs.known⟩

theorem step_verifyAfterDo {rows : δ → List Row} (hdb : Executes db rows)
    {hashed : Set (List UInt8)} {s : CardState δ} (hs : Represents rows hashed s)
    {card : NonemptyString} {password : Option JavaString}
    (hcarried : (Operation.verifyAfterDo card password).Carried classes zero) :
    ∃ t, step classes zero db s (.verifyAfterDo card password) = some t ∧
      Represents rows hashed t := by
  have ⟨d, hd, hstored⟩ := hs.stored
  have ⟨d', hexec, hrows⟩ := execSql_verifyAfterDo db hdb d hcarried
  rw [step, post_verifyAfterDo, Option.map_some, hd]
  refine ⟨_, rfl, ?_⟩
  simp only [DoOperator.toDoOperate, execSql, Register.apply]
  rw [hexec]
  show Represents rows hashed ⟨some d', fun c => if c = card.1 then none else s.register c⟩
  refine ⟨⟨d', rfl, hstored.remove hrows⟩, ?_⟩
  intro c p hp
  change (if c = card.1 then none else s.register c) = some p at hp
  split at hp
  case isTrue hc => exact absurd hp.symm (Option.some_ne_none p)
  case isFalse hc => exact hs.known hp

/-- A verification reads the password back through its digest. -/
theorem verifies_iff {rows : δ → List Row} (hdb : Executes db rows) {hashed : Set (List UInt8)}
    (hmd5 : Set.InjOn Md5.md5 hashed) {s : CardState δ} (hs : Represents rows hashed s)
    {card password : NonemptyString}
    (hcarried : (Operation.verify card password).Carried classes zero)
    (hhashed : getBytes (card.1 ++ password.1) ∈ hashed) :
    verifies classes zero db s.mdb card password = true ↔ s.register card.1 = some password.1 := by
  have ⟨d, hd, hstored⟩ := hs.stored
  have ⟨hcard, hpaired⟩ := hcarried
  have ⟨strings, hselect, hsome⟩ :=
    select_verify classes db hdb d hcard (encode_isHex card.2 password.2)
  have hverifies : verifies classes zero db s.mdb card password = strings.isSome := by
    rw [verifies, post_verify, hd]
    simp only [DoOperator.toDoOperate, hselect]
    cases strings <;> rfl
  rw [hverifies, hsome]
  constructor
  · rintro ⟨r, hr, hrcard, hrencrypt⟩
    have ⟨c, p, hreg, hrow⟩ := hstored.registered_of_row hr
    rw [hrow.card_eq, Option.some.injEq] at hrcard
    rw [hrcard] at hreg hrow
    have ⟨hp, hppaired, hphashed⟩ := hs.known hreg
    rw [hrow.encrypt_eq, Option.some.injEq] at hrencrypt
    rw [hreg, encodePasswordByCardnumber_injective hmd5 card.2 hp password.2
      hcard.quotable.paired hppaired hpaired hphashed hhashed hrencrypt]
  · intro hreg
    have ⟨r, hr, hrow⟩ := hstored.row_of_registered hreg
    exact ⟨r, hr, hrow.card_eq, hrow.encrypt_eq⟩

theorem step_represents {rows : δ → List Row} (hdb : Executes db rows)
    {hashed : Set (List UInt8)} {s : CardState δ} (hs : Represents rows hashed s) {op : Operation}
    (hcarried : op.Carried classes zero) (hhashed : ∀ b ∈ op.hashed, b ∈ hashed) :
    ∃ t, step classes zero db s op = some t ∧ Represents rows hashed t := by
  cases op with
  | regist card password phone firstName sex =>
    exact step_regist classes zero db hdb hs hcarried (hhashed _ (List.mem_singleton_self _))
  | verify card password =>
    have ⟨d, hd, hstored⟩ := hs.stored
    refine ⟨_, by rw [step, post_verify, Option.map_some], ?_⟩
    have hsame : (DoOperator.toDoOperate classes db s.mdb (.selectSqlDo
        (selectText card.1 (encodePasswordByCardnumber (some card.1) (some password.1)))
        keyCardUserVerifySuc keyCardUserVerifyFail)).2.2 = s.mdb := by
      simp only [DoOperator.toDoOperate]
      split <;> rfl
    rw [hsame]
    exact ⟨hs.stored, hs.known⟩
  | verifyAfterDo card password => exact step_verifyAfterDo classes zero db hdb hs hcarried

/-! ## 4. A database that executes its texts -/

instance (columns : List JavaString) (values : List Value) :
    Decidable (FitsTable columns values) :=
  decidable_of_iff (columns.Nodup ∧ (∀ column ∈ columns, column ∈ givenColumns) ∧
      columns.length = values.length ∧ ∀ v ∈ values, isStorable v = true)
    ⟨fun h => ⟨h.1, h.2.1, h.2.2.1, h.2.2.2⟩,
      fun h => ⟨h.nodup, h.columns_mem, h.length_eq, h.storable⟩⟩

/-- The table of cards as a list of rows.  A query with a `having` and no `groupBy` throws. -/
def cardTable : SQLiteDatabase (List Row) where
  execSQL d sql :=
    match parse sql with
    | some (.insert table columns values) =>
      let r := givenText columns values
      if table = tlVeriryCardUser ∧ FitsTable columns values ∧ r cardNumber ≠ none ∧
          ∀ r' ∈ d, r' cardNumber ≠ r cardNumber then
        some (d ++ [r])
      else none
    | some (.delete table condition) =>
      if table = tlVeriryCardUser ∧ ∀ x ∈ condition, x.1 ∈ textColumns then
        some (d.filter fun r => !condition.holds r)
      else none
    | none => none
  query d table _ selection selectionArgs groupBy having orderBy :=
    if selectionArgs = none ∧ groupBy = none ∧ having = none ∧ orderBy = none ∧
        table = tlVeriryCardUser then
      (selection.bind parseWhere).map fun condition =>
        ⟨textColumns, (d.filter condition.holds).map fun r => textColumns.map r⟩
    else none

theorem cardTable_executes : Executes cardTable id where
  insert_stored {d sql c columns values} hsql hparse hfits hcard hstored := by
    have ⟨r, hr, hrc⟩ := hstored
    have hnot : ¬ ∀ r' ∈ d, r' cardNumber ≠ givenText columns values cardNumber :=
      fun h => h r hr (hrc.trans hcard.symm)
    simp only [cardTable, hparse]
    exact if_neg fun h => hnot h.2.2.2
  insert_new {d sql c columns values} hsql hparse hfits hcard hnew := by
    refine ⟨d ++ [givenText columns values], givenText columns values, ?_, rfl,
      fun column hcolumn s hs => hs⟩
    simp only [cardTable, hparse]
    exact if_pos ⟨trivial, hfits, by rw [hcard]; exact Option.some_ne_none c, by rwa [hcard]⟩
  delete {d sql condition} hsql hparse hcolumns := by
    refine ⟨_, ?_, rfl⟩
    simp only [cardTable, hparse]
    exact if_pos ⟨trivial, hcolumns⟩
  query {d columns selection condition} hall hselection hparse hcolumns := by
    refine ⟨⟨textColumns, (d.filter condition.holds).map fun r => textColumns.map r⟩, ?_, ?_⟩
    · simp only [cardTable, Option.bind_some, hparse, Option.map_some]
      exact if_pos ⟨trivial, trivial, trivial, trivial, trivial⟩
    · exact List.length_map ..

theorem represents_empty (hashed : Set (List UInt8)) :
    Represents id hashed ⟨some ([] : List Row), fun _ => none⟩ where
  stored := ⟨[], rfl, fun h => absurd h.symm (Option.some_ne_none _),
    fun h => absurd h List.not_mem_nil⟩
  known h := absurd h.symm (Option.some_ne_none _)

/-! ## 5. Verifications over whole runs -/

/-- Over any operations that carry their strings unchanged, each verification reports success
exactly for a card that is registered then, with its password; the table stores the register. -/
theorem run_verifies {rows : δ → List Row} (hdb : Executes db rows) {hashed : Set (List UInt8)}
    (hmd5 : Set.InjOn Md5.md5 hashed) {s : CardState δ} (hs : Represents rows hashed s)
    {ops : List Operation} (hhashed : ∀ op ∈ ops, ∀ b ∈ op.hashed, b ∈ hashed)
    (hcarried : ∀ op ∈ ops, op.Carried classes zero) :
    RunMeets (step classes zero db) (Right classes zero db rows) s ops ∧
      ∃ t, run (step classes zero db) s ops = some t ∧
        ∃ d, t.mdb = some d ∧ Stored rows d t.register := by
  have hmeets : RunMeets (step classes zero db)
      (fun _ op => op.Carried classes zero ∧ ∀ b ∈ op.hashed, b ∈ hashed) s ops :=
    runMeets_of_forall (fun _ op hop => ⟨hcarried op hop, hhashed op hop⟩) s
  have hright : ∀ s op, Represents rows hashed s →
      (op.Carried classes zero ∧ ∀ b ∈ op.hashed, b ∈ hashed) →
        Right classes zero db rows s op := by
    intro s op hs hop
    refine ⟨hs.stored, ?_⟩
    rintro card password rfl
    exact verifies_iff classes zero db hdb hmd5 hs hop.1 (hop.2 _ (List.mem_singleton_self _))
  have ⟨hall, t, hrun, ht⟩ := runMeets_of_invariant
    (fun s op hs hop => step_represents classes zero db hdb hs hop.1 hop.2) hright hs hmeets
  exact ⟨hall, t, hrun, ht.stored⟩

def exampleCard : NonemptyString := ⟨lit "7", by decide +kernel⟩

def examplePassword : NonemptyString := ⟨lit "p", by decide +kernel⟩

def otherPassword : NonemptyString := ⟨lit "q", by decide +kernel⟩

def emptyTable : CardState (List Row) := ⟨some [], fun _ => none⟩

-- a registration, the right password, a wrong one, the removal, and the right password again
def exampleRun : List Operation :=
  [.regist exampleCard examplePassword none none 0, .verify exampleCard examplePassword,
    .verify exampleCard otherPassword, .verifyAfterDo exampleCard none,
    .verify exampleCard examplePassword]

theorem exampleCard_selectable : Selectable androidClasses exampleCard.1 where
  quotable := by decide +kernel
  one_line c hc := by
    have hall : exampleCard.1.all isInline = true := by decide +kernel
    exact isDot_iff.mp (all_isDot _ hall c hc)
  no_semicolon := by decide +kernel
  no_where := by decide +kernel
  no_having := by decide +kernel
  no_groupBy := by decide +kernel
  no_orderBy := by decide +kernel

theorem run_verifies_exampleRun :
    RunMeets (step androidClasses 0x30 cardTable) (Right androidClasses 0x30 cardTable id)
        emptyTable exampleRun ∧
      ∃ t, run (step androidClasses 0x30 cardTable) emptyTable exampleRun = some t ∧
        ∃ d, t.mdb = some d ∧ Stored id d t.register := by
  let hashed := exampleRun.flatMap Operation.hashed
  have hdistinct : hashed.all (fun a => hashed.all fun b => Md5.md5 a ≠ Md5.md5 b || a = b) =
      true := by
    decide +kernel
  have hmd5 : Set.InjOn Md5.md5 {b | b ∈ hashed} := by
    intro a ha b hb heq
    have hab := List.all_eq_true.mp (List.all_eq_true.mp hdistinct a ha) b hb
    rw [heq] at hab
    simpa using hab
  have hnull : Quotable (lit "null") := by decide +kernel
  have hpassword : Quotable examplePassword.1 := by decide +kernel
  have hother : paired otherPassword.1 = true := by decide +kernel
  refine run_verifies androidClasses 0x30 cardTable cardTable_executes hmd5 (represents_empty _)
    (fun op hop b hb => List.mem_flatMap.mpr ⟨op, hop, hb⟩) ?_
  have hcard := exampleCard_selectable
  simp only [exampleRun, List.forall_mem_cons, List.not_mem_nil, Operation.Carried]
  exact ⟨⟨trivial, hcard.quotable, hpassword, hnull, hnull⟩, ⟨hcard, hpassword.paired⟩,
    ⟨hcard, hother⟩, hcard.quotable, ⟨hcard, hpassword.paired⟩, fun _ h => h.elim⟩

def havingCard : NonemptyString := ⟨lit "having", by decide +kernel⟩

/-- The card `having` is registered, but `Select` takes its number for a clause. -/
theorem having_not_verified :
    Executes cardTable id ∧
      ¬ RunMeets (step androidClasses 0x30 cardTable) (Right androidClasses 0x30 cardTable id)
        emptyTable
        [.regist havingCard examplePassword none none 0, .verify havingCard examplePassword] := by
  refine ⟨cardTable_executes, ?_⟩
  intro hall
  have hrefused : (step androidClasses 0x30 cardTable emptyTable
      (.regist havingCard examplePassword none none 0)).any (fun t =>
        t.register havingCard.1 = some examplePassword.1 &&
          !verifies androidClasses 0x30 cardTable t.mdb havingCard examplePassword) = true := by
    decide +kernel
  have ⟨t, hstep, ht⟩ := (Option.any_eq_true _ _).mp hrefused
  rw [Bool.and_eq_true, decide_eq_true_eq, Bool.not_eq_true'] at ht
  have hright : Right androidClasses 0x30 cardTable id t (.verify havingCard examplePassword) :=
    (hall.2 t hstep).1
  have hverified := (hright.reported rfl).mpr ht.1
  rw [ht.2] at hverified
  exact Bool.false_ne_true hverified

end VerifyServer.Client.Offline
