import VerifyServer.Reasoning.Regex
import VerifyServer.Reasoning.Sql

/-!
# MyBaseDataProxy — the card database behind `execSql` and `Select`

`execSql` hands its text to the database; `Select` takes a text apart with regular expressions and
asks the database with the parts.  The database class is a parameter.
-/

open VerifyServer.Reasoning VerifyServer.Reasoning.Sql

namespace VerifyServer.Client.Offline

/-! ## 1. The database class -/

structure Cursor where
  columnNames : List JavaString
  -- `none` for a null cell
  rows : List (List (Option JavaString))

/-- `SQLiteDatabase`; `none` where a method throws. -/
structure SQLiteDatabase (δ : Type) where
  execSQL : δ → JavaString → Option δ
  query (d : δ) (table : JavaString) (columns : Option (List JavaString))
    (selection : Option JavaString) (selectionArgs : Option (List JavaString))
    (groupBy having orderBy : Option JavaString) : Option Cursor

def tlVeriryCardUser : JavaString := lit "tlVeriryCardUser"

def cardNumber : JavaString := lit "CardNumber"

def cardPasswordEncrypt : JavaString := lit "CardPasswordEncrypt"

-- the columns `create_cardregister_table` declares as `VARCHAR` or `TEXT`
def textColumns : List JavaString :=
  [cardNumber, lit "CardUserPassword", cardPasswordEncrypt, lit "CarUserFirname",
    lit "Describe", lit "CardRegistOwnUser", lit "CardRegistUserPhone", lit "ExtraText"]

-- all its columns but the generated `ID`
def givenColumns : List JavaString :=
  textColumns ++ [lit "CardRegistUserSex", lit "CardRegistTime"]

def isStorable : Value → Bool
  | .text _ | .number .. => true
  | .call name argument => isKeyword "date" name && isKeyword "now" argument

/-- An insert that gives each column it names a value the column can take. -/
structure FitsTable (columns : List JavaString) (values : List Value) : Prop where
  nodup : columns.Nodup
  columns_mem : ∀ column ∈ columns, column ∈ givenColumns
  length_eq : columns.length = values.length
  storable : ∀ v ∈ values, isStorable v = true

/-- What is relied on of the database: it executes the text it is given.  `rows` are the rows of
the table of cards, whose card numbers are unique. -/
structure Executes {δ : Type} (db : SQLiteDatabase δ) (rows : δ → List Row) : Prop where
  insert_stored {d : δ} {sql c : JavaString} {columns : List JavaString} {values : List Value}
    (hsql : paired sql = true) (hparse : parse sql = some (.insert tlVeriryCardUser columns values))
    (hfits : FitsTable columns values) (hcard : givenText columns values cardNumber = some c)
    (hstored : ∃ r ∈ rows d, r cardNumber = some c) : db.execSQL d sql = none
  insert_new {d : δ} {sql c : JavaString} {columns : List JavaString} {values : List Value}
    (hsql : paired sql = true) (hparse : parse sql = some (.insert tlVeriryCardUser columns values))
    (hfits : FitsTable columns values) (hcard : givenText columns values cardNumber = some c)
    (hnew : ∀ r ∈ rows d, r cardNumber ≠ some c) :
    ∃ d' r, db.execSQL d sql = some d' ∧ rows d' = rows d ++ [r] ∧
      ∀ column ∈ textColumns, ∀ s, givenText columns values column = some s → r column = some s
  delete {d : δ} {sql : JavaString} {condition : Condition} (hsql : paired sql = true)
    (hparse : parse sql = some (.delete tlVeriryCardUser condition))
    (hcolumns : ∀ x ∈ condition, x.1 ∈ textColumns) :
    ∃ d', db.execSQL d sql = some d' ∧ rows d' = (rows d).filter fun r => !condition.holds r
  query {d : δ} {columns : Option (List JavaString)} {selection : JavaString}
    {condition : Condition} (hall : columns = none ∨ columns = some [])
    (hselection : paired selection = true) (hparse : parseWhere selection = some condition)
    (hcolumns : ∀ x ∈ condition, x.1 ∈ textColumns) :
    ∃ cursor, db.query d tlVeriryCardUser columns (some selection) none none none none =
        some cursor ∧
      cursor.rows.length = ((rows d).filter condition.holds).length

/-! ## 2. The patterns of `Select`, compiled with `CASE_INSENSITIVE` -/

def isPrintable (c : UInt16) : Bool := 0x20 ≤ c && c ≤ 0x7E

-- those, tabs and NULs
def isInline (c : UInt16) : Bool := isPrintable c || c = 0x09 || c = 0

/-- The classes of the platform's regular expressions: what `\s` matches, and what `.` does not.
They differ, but of the printable characters of ASCII only the blank is in either, and neither a tab
nor a NUL ends a line. -/
structure CharClasses where
  isSpace : UInt16 → Bool
  isLineTerminator : UInt16 → Bool
  isSpace_printable {c : UInt16} (h : isPrintable c = true) (hne : c ≠ 0x20) : isSpace c = false
  isLineTerminator_inline {c : UInt16} (h : isInline c = true) : isLineTerminator c = false

-- `[\t\n\f\r\p{Z}]`
def isUnicodeSpace (c : UInt16) : Bool :=
  c ∈ ([0x09, 0x0A, 0x0C, 0x0D, 0x20, 0xA0, 0x1680, 0x2028, 0x2029, 0x202F, 0x205F, 0x3000] :
      JavaString) ||
    (0x2000 ≤ c && c ≤ 0x200A)

def isUnicodeLineTerminator (c : UInt16) : Bool :=
  (0x0A ≤ c && c ≤ 0x0D) || c ∈ ([0x85, 0x2028, 0x2029] : JavaString)

theorem isPrintable_of_forall {p : UInt16 → Bool}
    (h : (List.range' 0x20 0x5F).all (fun n => p (UInt16.ofNat n)) = true) {c : UInt16}
    (hc : isPrintable c = true) : p c = true := by
  rw [isPrintable, Bool.and_eq_true, decide_eq_true_eq, decide_eq_true_eq, UInt16.le_iff_toNat_le,
    UInt16.le_iff_toNat_le] at hc
  have hn := List.all_eq_true.mp h c.toNat (List.mem_range'_1.mpr ⟨hc.1, Nat.lt_succ_of_le hc.2⟩)
  rwa [UInt16.ofNat_toNat] at hn

/-- Those of Android. -/
def androidClasses : CharClasses where
  isSpace := isUnicodeSpace
  isLineTerminator := isUnicodeLineTerminator
  isSpace_printable {c} h hne := by
    have hall := isPrintable_of_forall (p := fun c => c = 0x20 || !isUnicodeSpace c) (by decide) h
    rwa [decide_eq_false hne, Bool.false_or, Bool.not_eq_true'] at hall
  isLineTerminator_inline {c} h := by
    simp only [isInline, Bool.or_eq_true, decide_eq_true_eq] at h
    rcases h with (h | rfl) | rfl
    · have hall := isPrintable_of_forall (p := fun c => !isUnicodeLineTerminator c) (by decide) h
      rwa [Bool.not_eq_true'] at hall
    · rfl
    · rfl

variable (classes : CharClasses)

def isDot (c : UInt16) : Bool := !classes.isLineTerminator c

variable {classes} in
theorem isDot_iff {c : UInt16} : isDot classes c = true ↔ classes.isLineTerminator c = false := by
  rw [isDot, Bool.not_eq_true']

theorem all_isDot {s : JavaString} (h : s.all isInline = true) : ∀ c ∈ s, isDot classes c = true :=
  fun c hc => isDot_iff.mpr (classes.isLineTerminator_inline (List.all_eq_true.mp h c hc))

def literal (w : String) : Regex UInt16 :=
  Regex.word (((lit w).map lower).map fun c x => lower x = c)

-- `(.*)`
def line : Regex UInt16 := .group (.many (isDot classes))

def tableRegex : Regex UInt16 := .seq (literal "FROM") (.seq (line classes) (literal "WHERE"))

def selectRegex : Regex UInt16 := .seq (literal "select") (.seq (line classes) (literal "from"))

def columnRegex : Regex UInt16 :=
  .seq
    (.group (.alt (.plus fun c => c = 0x2A)
      (.seq (.plus fun c => 0x61 ≤ lower c && lower c ≤ 0x7A) (.many classes.isSpace))))
    (.many fun c => c = 0x2C)

def whereWord : Regex UInt16 := literal "where"

def havingWord : Regex UInt16 := literal "having"

def groupByWords : Regex UInt16 :=
  .seq (literal "group") (.seq (.plus classes.isSpace) (literal "by"))

def orderByWords : Regex UInt16 :=
  .seq (literal "order") (.seq (.plus classes.isSpace) (literal "by"))

/-- `matcher.find()` and `matcher.group(1)`. -/
def captured (r : Regex UInt16) (sql : JavaString) : Option JavaString :=
  (r.find sql).bind Regex.Success.captured

/-- What follows the words `r`, with a NUL for each semicolon. -/
def clause (r : Regex UInt16) (sql : JavaString) : Option JavaString :=
  (captured (.seq r (line classes)) sql).map fun g => trim (replace 0x3B 0 g)

/-- The array `columns`: `toArray` returns a new one for the names it finds, so the one it is given
stays empty. -/
def columnList (sql : JavaString) : Option (List JavaString) :=
  match captured (selectRegex classes) sql with
  | none => none
  | some g =>
    let str_column_list := trim g
    let found := ((columnRegex classes).findAll str_column_list.length str_column_list).filterMap
      Regex.Success.captured
    if (found.map trim).any fun str_column => 0x2A ∈ str_column then some [] else none

/-! ## 3. `execSql` and `Select` -/

variable {δ : Type} (db : SQLiteDatabase δ)

/-- A row as `Select` returns it; the `null` the string starts from stays in it. -/
def rowString (names : List JavaString) (row : List (Option JavaString)) : Option JavaString :=
  (names.zip row).foldl
    (fun ret x =>
      some (ret.getD (lit "null") ++ x.1 ++ lit " : " ++ x.2.getD (lit "null") ++ [0x0A]))
    none

/-- `none` for the array that is never made. -/
def Cursor.strings (sor : Cursor) : Option (List (Option JavaString)) :=
  if sor.rows = [] then none else some (sor.rows.map (rowString sor.columnNames))

def execSql (mdb : Option δ) (sql : JavaString) : Option (Bool × Option δ) :=
  match mdb with
  | none => some (false, none)
  | some d => (db.execSQL d sql).map fun d' => (true, some d')

def select (mdb : Option δ) (sql : JavaString) : Option (Option (List (Option JavaString))) :=
  match mdb with
  | none => some none
  | some d =>
    if startsWithIgnoringCase sql (lit "select") then
      let table := ((captured (tableRegex classes) sql).map trim).getD []
      (db.query d table (columnList classes sql) (clause classes whereWord sql) none
        (clause classes (groupByWords classes) sql) (clause classes havingWord sql)
        (clause classes (orderByWords classes) sql)).map Cursor.strings
    else some none

/-! ## 4. What the parts are -/

theorem columnList_all (sql : JavaString) :
    columnList classes sql = none ∨ columnList classes sql = some [] := by
  unfold columnList
  split
  · exact .inl rfl
  · simp only
    split
    · exact .inr rfl
    · exact .inl rfl

variable {classes}

theorem clause_none {r : Regex UInt16} {sql : JavaString} (h : r.find sql = none) :
    clause classes r sql = none := by
  rw [clause, captured, Regex.find_seq_none h]
  rfl

/-- Where the words are found, the clause is the rest of their line. -/
theorem clause_eq {r : Regex UInt16} {sql rest : JavaString} (h : r.find sql = some ⟨none, rest⟩)
    (hline : ∀ c ∈ rest, classes.isLineTerminator c = false) :
    clause classes r sql = some (trim (replace 0x3B 0 rest)) := by
  have hdot : rest.takeWhile (isDot classes) = rest := by
    rw [List.takeWhile_eq_self_iff]
    intro c hc
    rw [isDot, hline c hc]
    rfl
  have hrest : ((line classes).successes rest).head? =
      some ⟨some (rest.takeWhile (isDot classes)), rest.dropWhile (isDot classes)⟩ :=
    Regex.group_many_head? (isDot classes) rest
  rw [clause, captured, Regex.find_seq h hrest, hdot]
  rfl

end VerifyServer.Client.Offline
