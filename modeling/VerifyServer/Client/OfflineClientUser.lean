import VerifyServer.Client.Md5Unit
import VerifyServer.Client.MyBaseDataProxy
import VerifyServer.Client.NetSocketData

/-!
# OfflineClientUser — card operations as statement texts

Each `commit_*` fills a format with strings it does not look at and posts an operator; the worker
executes the operators in the order they were posted.
-/

open VerifyServer.Reasoning VerifyServer.Reasoning.Sql

namespace VerifyServer.Client.Offline

/-! ## 1. Statement formats -/

-- what a line of the insert begins with
def indent : JavaString := lit "\t\t\t\t\t\t\t\t\t  "

-- a comma, the blanks after it and the begin of the next line
def nextLine : JavaString := lit ",  " ++ indent

def insertCarduserData : JavaString :=
  lit "INSERT INTO tlVeriryCardUser ( " ++
    (indent ++ lit "CardNumber") ++
    (nextLine ++ lit "CardUserPassword") ++
    (nextLine ++ lit "CardPasswordEncrypt") ++
    (nextLine ++ lit "CarUserFirname") ++
    (nextLine ++ lit "Describe") ++
    (nextLine ++ lit "CardRegistOwnUser") ++
    (nextLine ++ lit "CardRegistUserPhone") ++
    (nextLine ++ lit "CardRegistUserSex") ++
    (nextLine ++ lit "CardRegistTime") ++
    (nextLine ++ lit "ExtraText) VALUES (") ++ (indent ++ lit "'%s',") ++
    lit " '%s'," ++ (indent ++ lit "'%s'") ++ (nextLine ++ lit "'%s'") ++
    (nextLine ++ lit "'%s'") ++ (nextLine ++ lit "'%s'") ++
    (nextLine ++ lit "'%s'") ++ (nextLine ++ lit "%d") ++
    (nextLine ++ lit "DATE('NOW')") ++ (nextLine ++ lit "'%s');")

def deleteCarduserData : JavaString :=
  lit "DELETE FROM tlVeriryCardUser WHERE CardNumber='%s';"

def selectCardInfoNamePassEncrypt : JavaString :=
  lit "SELECT * FROM tlVeriryCardUser WHERE CardNumber='%s'   " ++
    lit "\t\t\t\t\t\t\t\t\t\t\t   and CardPasswordEncrypt='%s';"

/-! ## 2. Operators -/

structure Message where
  what : Nat
  obj : Option (List (Option JavaString)) := none
  deriving DecidableEq

/-- The operators of the package `operator`, each with the keys of its two messages. -/
inductive DoOperator where
  | execSql (string_sql : JavaString) (message_key_suc message_key_fail : Nat)
  | selectSqlDo (string_sql : JavaString) (message_key_suc message_key_fail : Nat)
  | deleteSqlDo (string_sql : JavaString) (message_key_suc message_key_fail : Nat)

variable (classes : CharClasses) {δ : Type} (db : SQLiteDatabase δ)

/-- `ToDoOperate()`: what it returns, the messages it sends to a bound handler and the database
after it.  What the methods throw is caught. -/
def DoOperator.toDoOperate (mdb : Option δ) : DoOperator → Int × List Message × Option δ
  | execSql sql suc fail =>
    match Offline.execSql db mdb sql with
    | none => (-1, [{ what := fail }], mdb)
    | some (done, mdb) => (0, if done then [{ what := suc }] else [], mdb)
  | selectSqlDo sql suc fail =>
    match select classes db mdb sql with
    | some (some result_string) => (0, [{ what := suc, obj := some result_string }], mdb)
    | _ => (-1, [{ what := fail }], mdb)
  | deleteSqlDo sql suc fail =>
    match Offline.execSql db mdb sql with
    | some (true, mdb) => (0, [{ what := suc }], mdb)
    | some (false, mdb) => (-1, [{ what := fail }], mdb)
    | none => (-1, [{ what := fail }], mdb)

/-! ## 3. The operations -/

-- the keys of `VeriryActivity`
def keyCardUserVerifySuc : Nat := 1
def keyCardUserVerifyFail : Nat := 2
def keyCardUserRegistSuc : Nat := 3
def keyCardUserRegistFail : Nat := 4
def keyCardUserVerifyDeletetSuc : Nat := 5
def keyCardUserVerifyDeleteFail : Nat := 6

-- a string argument of `String.format`
def formatted (s : Option JavaString) : Arg := .string (s.getD (lit "null"))

-- the first digit of the default locale
variable (zero : UInt16)

/-- The operator `commit_regist` posts. -/
def commitRegist (info : CardRegistInfo) : Option DoOperator :=
  (format zero insertCarduserData [formatted info.string_card_number,
    formatted info.string_password,
    .string (encodePasswordByCardnumber info.string_card_number info.string_password),
    formatted info.string_first_name, .string (lit "no describe"), .string (lit "unline user"),
    formatted info.string_phone, .int info.n_sex.toInt, .string (lit "no extra text")]).map
  fun str_regist_sql => .execSql str_regist_sql keyCardUserRegistSuc keyCardUserRegistFail

/-- The operator `commit_verify` posts. -/
def commitVerify (info : CardVerifyInfo) : Option DoOperator :=
  (format zero selectCardInfoNamePassEncrypt [formatted info.string_card_number,
    .string (encodePasswordByCardnumber info.string_card_number info.string_card_password)]).map
  fun str_verify_sql => .selectSqlDo str_verify_sql keyCardUserVerifySuc keyCardUserVerifyFail

/-- The operator `commit_verify_after_do` posts. -/
def commitVerifyAfterDo (info : CardVerifyInfo) : Option DoOperator :=
  (format zero deleteCarduserData [formatted info.string_card_number]).map
  fun string_sql =>
    .deleteSqlDo string_sql keyCardUserVerifyDeletetSuc keyCardUserVerifyDeleteFail

end VerifyServer.Client.Offline
