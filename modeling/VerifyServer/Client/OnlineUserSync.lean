import VerifyServer.Client.MyBaseDataProxy
import VerifyServer.Client.NetSocketData

/-!
# OnlineUserSync — registering the local cards at the server

`Select` renders a row as lines `column : value`; `OnlineUserSyncDoOperator` looks for five values
in that text with a regular expression and commits what it finds as a `CardRegistInfo`.
-/

open VerifyServer.Reasoning

namespace VerifyServer.Client.Offline

/-! ## 1. Rows -/

/-- A row of `tlVeriryCardUser`. -/
structure CardRow where
  id : Int
  cardNumber : JavaString
  cardUserPassword : Option JavaString
  cardPasswordEncrypt : Option JavaString
  carUserFirname : Option JavaString
  describe : Option JavaString
  cardRegistOwnUser : Option JavaString
  cardRegistUserPhone : Option JavaString
  cardRegistUserSex : Int32
  cardRegistTime : JavaString
  extraText : Option JavaString

/-- The columns as `create_cardregister_table` declares them. -/
def cardColumns : List JavaString :=
  [lit "ID", lit "CardNumber", lit "CardUserPassword", lit "CardPasswordEncrypt",
    lit "CarUserFirname", lit "Describe", lit "CardRegistOwnUser", lit "CardRegistUserPhone",
    lit "CardRegistUserSex", lit "CardRegistTime", lit "ExtraText"]

def CardRow.cells (row : CardRow) : List (Option JavaString) :=
  [some (decimal row.id), some row.cardNumber, row.cardUserPassword, row.cardPasswordEncrypt,
    row.carUserFirname, row.describe, row.cardRegistOwnUser, row.cardRegistUserPhone,
    some (decimal row.cardRegistUserSex.toInt), some row.cardRegistTime, row.extraText]

/-- What the row says of its card. -/
def CardRow.info (row : CardRow) : CardRegistInfo where
  string_card_number := some row.cardNumber
  string_phone := row.cardRegistUserPhone
  string_password := row.cardUserPassword
  n_sex := row.cardRegistUserSex
  string_first_name := row.carUserFirname

/-- What `Select` makes of a cursor over all columns of the rows. -/
def selected (rows : List CardRow) : Option (List (Option JavaString)) :=
  (Cursor.mk cardColumns (rows.map CardRow.cells)).strings

/-! ## 2. `OnlineUserSyncDoOperator` -/

variable (classes : CharClasses)

-- `[a-zA-Z]` and `[a-zA-z]`
def isLetter (c : UInt16) : Bool := 0x61 ≤ lower c && lower c ≤ 0x7A

def isLetterRange (c : UInt16) : Bool := isLetter c || (0x41 ≤ c && c ≤ 0x7A)

/-- `":[\\s]*[a-zA-Z]+[-]*[a-zA-z]+[\\s]*\n"`. -/
def regular : Regex UInt16 :=
  .seq (.one fun c => c = 0x3A) <| .seq (.many classes.isSpace) <| .seq (.plus isLetter) <|
    .seq (.many fun c => c = 0x2D) <| .seq (.plus isLetterRange) <| .seq (.many classes.isSpace)
      (.one fun c => c = 0x0A)

/-- `if (matcher.find()) v = matcher.group(1).trim();` on what the last match left: the value of
`v` and what is left then.  No result where `group` has no group to return, or nothing in it. -/
def findGroup (rest : JavaString) : Option (JavaString × JavaString) :=
  match (regular classes).find rest with
  | none => some ([], rest)
  | some m => m.captured.map fun g => (trim g, m.rest)

/-- The argument of `commit_regist`. -/
def readInfo (input : JavaString) : Option CardRegistInfo := do
  let (string_carnumber, rest) ← findGroup classes input
  let (string_phone, rest) ← findGroup classes rest
  let (string_password, rest) ← findGroup classes rest
  let (n_sex, rest) ← findGroup classes rest
  let (string_first_name, _) ← findGroup classes rest
  let n_sex ← parseInt n_sex
  some ⟨some string_carnumber, some string_phone, some string_password, Int32.ofInt n_sex,
    some string_first_name⟩

inductive SyncCall where
  | commit_regist (info : CardRegistInfo)
  | delete_card (string_card_number : Option JavaString)

/-- The loop of `ToDoOperate` after `calls`: the calls made and what it returns, nothing when it
throws.  `client` answers a call, with nothing when that throws. -/
def syncFrom (client : List SyncCall → Option Bool) :
    List SyncCall → List (Option JavaString) → List SyncCall × Option Int
  | calls, [] => (calls, some 0)
  | calls, input :: data =>
    match input.bind (readInfo classes) with
    | none => (calls, none)
    | some info =>
      let calls := calls ++ [.commit_regist info]
      match client calls with
      | none => (calls, none)
      | some false => syncFrom client calls data
      | some true =>
        let calls := calls ++ [.delete_card info.string_card_number]
        match client calls with
        | none => (calls, none)
        | some _ => syncFrom client calls data

/-- `ToDoOperate()`; either field may be `null`. -/
def toDoSync (client : Option (List SyncCall → Option Bool))
    (data : Option (List (Option JavaString))) : List SyncCall × Option Int :=
  match client, data with
  | some client, some data => syncFrom classes client [] data
  | _, _ => ([], some 0)

/-- Every row is committed as it is, and nothing is thrown. -/
def Synchronises (client : List SyncCall → Option Bool) (rows : List CardRow) : Prop :=
  ∃ calls, toDoSync classes (some client) (selected rows) = (calls, some 0) ∧
    ∀ row ∈ rows, .commit_regist row.info ∈ calls

/-! ## 3. No row gets through -/

theorem regular_no_group : ¬ (regular classes).HasGroup := by
  simp only [regular, Regex.plus, Regex.HasGroup, or_false, not_false_eq_true]

theorem findGroup_eq_some {rest : JavaString} {x : JavaString × JavaString}
    (h : findGroup classes rest = some x) : x = ([], rest) := by
  unfold findGroup at h
  cases hfind : (regular classes).find rest with
  | none =>
    rw [hfind] at h
    exact (Option.some.inj h).symm
  | some m =>
    have hnone := Regex.find_captured_none (regular_no_group classes) hfind
    simp only [hfind, hnone, Option.map_none] at h
    cases h

/-- A match makes `group` throw, and without one there is no number. -/
theorem readInfo_none (input : JavaString) : readInfo classes input = none := by
  rw [Option.eq_none_iff_forall_ne_some]
  intro info h
  simp only [readInfo, bind, Option.bind_eq_some_iff] at h
  have ⟨_, _, _, _, _, _, sex, hsex, _, _, _, hvalue, _⟩ := h
  have hempty : parseInt [] = none := rfl
  rw [findGroup_eq_some classes hsex, hempty] at hvalue
  cases hvalue

theorem syncFrom_throws (client : List SyncCall → Option Bool) (calls : List SyncCall)
    (input : Option JavaString) (data : List (Option JavaString)) :
    syncFrom classes client calls (input :: data) = (calls, none) := by
  have hnone : input.bind (readInfo classes) = none := by
    cases input with
    | none => rfl
    | some input => exact readInfo_none classes input
  rw [syncFrom, hnone]

theorem toDoSync_throws (client : List SyncCall → Option Bool) (row : CardRow)
    (rows : List CardRow) :
    toDoSync classes (some client) (selected (row :: rows)) = ([], none) := by
  have hstrings : selected (row :: rows) =
      some (rowString cardColumns row.cells ::
        (rows.map CardRow.cells).map (rowString cardColumns)) := by
    show (if row.cells :: rows.map CardRow.cells = [] then none else some (rowString cardColumns
      row.cells :: (rows.map CardRow.cells).map (rowString cardColumns))) = _
    rw [if_neg (List.cons_ne_nil _ _)]
  rw [hstrings, toDoSync, syncFrom_throws]

/-- Synchronising works for an empty table and throws at the first row of any other. -/
theorem synchronises_iff (client : List SyncCall → Option Bool) (rows : List CardRow) :
    Synchronises classes client rows ↔ rows = [] := by
  constructor
  · intro ⟨calls, hreturns, _⟩
    cases rows with
    | nil => rfl
    | cons row rows =>
      rw [toDoSync_throws] at hreturns
      cases hreturns
  · intro hnil
    subst hnil
    exact ⟨[], rfl, fun row h => absurd h List.not_mem_nil⟩

/-- One card, with letters in every value. -/
def aliceRow : CardRow where
  id := 1
  cardNumber := lit "abcd"
  cardUserPassword := some (lit "secret")
  cardPasswordEncrypt := none
  carUserFirname := some (lit "Alice")
  describe := none
  cardRegistOwnUser := none
  cardRegistUserPhone := some (lit "none")
  cardRegistUserSex := 0
  cardRegistTime := lit "2015-01-01"
  extraText := none

theorem aliceRow_not_registered :
    toDoSync androidClasses (some fun _ => some true) (selected [aliceRow]) = ([], none) ∧
      ¬ Synchronises androidClasses (fun _ => some true) [aliceRow] := by
  refine ⟨toDoSync_throws _ _ aliceRow [], fun ⟨calls, hreturns, _⟩ => ?_⟩
  rw [toDoSync_throws] at hreturns
  cases hreturns

end VerifyServer.Client.Offline
