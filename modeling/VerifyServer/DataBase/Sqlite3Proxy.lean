import VerifyServer.Socket.SendBuffers

/-!
# Sqlite3Proxy — a statement on its way to `sqlite3_exec`

`ExecSql` and `ExeSql` convert their text into 1024 bytes on the stack with `GlobalUnicodeToUtf8`,
which says by returning zero that the encoding does not fit.  Neither looks at the result.
-/

open VerifyServer.Reasoning VerifyServer.Socket

namespace VerifyServer.DataBase

/-! ## 1. The functions -/

/-- `SQLITE_OK`. -/
def sqliteOk : Int := 0

/-- What the calls meet: the width of a pointer, the buffer a conversion leaves when the stated size
is too small for it, and `sqlite3_exec(db, sql, callback, data, ..)` on a state `δ` of the
database.  The empty statement is executed, and does nothing. -/
structure ProxyEnv (δ κ ν : Type*) where
  sizeofPointer : Nat
  sizeofPointer_pos : 0 < sizeofPointer
  cut : List UInt16 → List UInt8 → Nat → List UInt8
  sqlite3Exec : δ → List UInt8 → Option κ → Option ν → Int × δ
  sqlite3Exec_empty : ∀ db callback data, sqlite3Exec db [] callback data = (sqliteOk, db)

variable {δ κ ν : Type*}

/-- `WideCharToMultiByte(CP_UTF8, 0, s, -1, str, cbMultiByte, NULL, NULL)`: the bytes of `str`
afterwards; no result when they would be written past its end. -/
def wideCharToMultiByte (env : ProxyEnv δ κ ν) (s : List UInt16) (str : List UInt8)
    (cbMultiByte : Nat) : Option (List UInt8) :=
  let bytes := toUtf8 (cStr s) ++ [0]
  if bytes.length ≤ cbMultiByte then blit str 0 bytes else some (env.cut s str cbMultiByte)

/-- `GlobalUnicodeToUtf8(unicode, uft8, len)` with `_UNICODE`: the result and the buffer. -/
def globalUnicodeToUtf8 (env : ProxyEnv δ κ ν) (unicode : List UInt16) (uft8 : List UInt8)
    (len : Nat) : Option (Nat × List UInt8) :=
  let utf8size := (toUtf8 (cStr unicode) ++ [0]).length
  if len < utf8size then some (0, uft8)
  else
    (wideCharToMultiByte env unicode uft8 (env.sizeofPointer * utf8size)).map fun uft8 =>
      (utf8size, uft8)

/-- A call that has returned: the text `sqlite3_exec` was given, the code, the database. -/
structure Executed (δ : Type*) where
  zSql : List UInt8
  ret : Int
  db : δ
  deriving DecidableEq, Repr

/-- `CDBSqlite3Proxy::ExecSql`; no result when the conversion overruns `strSql`. -/
def execSql (env : ProxyEnv δ κ ν) (db : δ) (sql : List UInt16) (callback : Option κ)
    (data : Option ν) : Option (Executed δ) :=
  (globalUnicodeToUtf8 env sql (List.replicate 1024 0) 1023).map fun converted =>
    let zSql := converted.2.takeWhile (· ≠ 0)
    let executed := env.sqlite3Exec db zSql callback data
    ⟨zSql, executed.1, executed.2⟩

/-- `CDBSqlite3Proxy::ExeSql`. -/
def exeSql (env : ProxyEnv δ κ ν) (db : δ) (sql : List UInt16) : Option (Executed δ) :=
  execSql env db sql none none

/-- No byte is written past the buffer, and the call passes the encoding of the whole text on and
returns what came back, or it reports an error. -/
def PassesOn (env : ProxyEnv δ κ ν) (db : δ) (sql : List UInt16) (callback : Option κ)
    (data : Option ν) (r : Option (Executed δ)) : Prop :=
  ∃ out, r = some out ∧
    (out.zSql = toUtf8 (cStr sql) ∧ (out.ret, out.db) = env.sqlite3Exec db out.zSql callback data ∨
      out.ret ≠ sqliteOk)

/-! ## 2. The conversion -/

/-- The bytes a buffer of zeros holds after a text and its terminator. -/
theorem takeWhile_encoded (s : List UInt16) (rest : List UInt8) :
    (toUtf8 (cStr s) ++ 0 :: rest).takeWhile (· ≠ 0) = toUtf8 (cStr s) := by
  have hall : ∀ b ∈ toUtf8 (cStr s), decide (b ≠ 0) = true := by
    intro b hb
    apply decide_eq_true
    intro h
    exact zero_not_mem_toUtf8 s (h ▸ hb)
  rw [List.takeWhile_append_of_pos hall]
  simp

theorem globalUnicodeToUtf8_long (env : ProxyEnv δ κ ν) {s : List UInt16} {uft8 : List UInt8}
    {len : Nat} (h : len ≤ (toUtf8 (cStr s)).length) :
    globalUnicodeToUtf8 env s uft8 len = some (0, uft8) := by
  rw [globalUnicodeToUtf8, if_pos (by rw [List.length_append, List.length_singleton]; omega)]

theorem globalUnicodeToUtf8_fits (env : ProxyEnv δ κ ν) {s : List UInt16} {uft8 : List UInt8}
    {len : Nat} (h : (toUtf8 (cStr s)).length < len) (hlen : len ≤ uft8.length) :
    ∃ rest, globalUnicodeToUtf8 env s uft8 len =
      some ((toUtf8 (cStr s)).length + 1, toUtf8 (cStr s) ++ 0 :: rest) := by
  have hsize : (toUtf8 (cStr s) ++ [0]).length = (toUtf8 (cStr s)).length + 1 :=
    List.length_append
  have hpos := env.sizeofPointer_pos
  have hcap : (toUtf8 (cStr s)).length + 1 ≤
      env.sizeofPointer * ((toUtf8 (cStr s)).length + 1) := Nat.le_mul_of_pos_left _ hpos
  apply Exists.intro (uft8.drop ((toUtf8 (cStr s)).length + 1))
  rw [globalUnicodeToUtf8, hsize, if_neg (by omega), wideCharToMultiByte, hsize, if_pos hcap,
    blit_eq_some (by omega), Option.map_some, List.take_zero, List.nil_append, hsize, Nat.zero_add,
    List.append_assoc]
  rfl

/-! ## 3. The calls -/

/-- A text whose encoding fits is passed on. -/
theorem execSql_fits (env : ProxyEnv δ κ ν) (db : δ) {sql : List UInt16} (callback : Option κ)
    (data : Option ν) (h : (toUtf8 (cStr sql)).length < 1023) :
    execSql env db sql callback data =
      some ⟨toUtf8 (cStr sql), (env.sqlite3Exec db (toUtf8 (cStr sql)) callback data).1,
        (env.sqlite3Exec db (toUtf8 (cStr sql)) callback data).2⟩ := by
  have hbuf : (1023 : Nat) ≤ (List.replicate 1024 (0 : UInt8)).length := by
    rw [List.length_replicate]
    decide
  have ⟨rest, hconv⟩ := globalUnicodeToUtf8_fits env h hbuf
  rw [execSql, hconv, Option.map_some]
  simp only [takeWhile_encoded]

/-- A text whose encoding does not fit leaves the buffer empty, and the empty statement succeeds. -/
theorem execSql_long (env : ProxyEnv δ κ ν) (db : δ) {sql : List UInt16} (callback : Option κ)
    (data : Option ν) (h : 1023 ≤ (toUtf8 (cStr sql)).length) :
    execSql env db sql callback data = some ⟨[], sqliteOk, db⟩ := by
  have hempty : (List.replicate 1024 (0 : UInt8)).takeWhile (· ≠ 0) = [] := by
    change (0 :: List.replicate 1023 (0 : UInt8)).takeWhile _ = []
    rw [List.takeWhile_cons_of_neg (by decide)]
  rw [execSql, globalUnicodeToUtf8_long env h, Option.map_some]
  simp only [hempty, env.sqlite3Exec_empty]

/-- The buffer is not overrun by any text. -/
theorem execSql_inside (env : ProxyEnv δ κ ν) (db : δ) (sql : List UInt16) (callback : Option κ)
    (data : Option ν) : (execSql env db sql callback data).isSome := by
  by_cases h : (toUtf8 (cStr sql)).length < 1023
  · rw [execSql_fits env db callback data h]
    rfl
  · rw [execSql_long env db callback data (by omega)]
    rfl

theorem passesOn_execSql (env : ProxyEnv δ κ ν) (db : δ) (sql : List UInt16) (callback : Option κ)
    (data : Option ν) : PassesOn env db sql callback data (execSql env db sql callback data) ↔
      (toUtf8 (cStr sql)).length + 1 ≤ 1023 := by
  by_cases h : (toUtf8 (cStr sql)).length < 1023
  · apply iff_of_true _ h
    exact ⟨_, execSql_fits env db callback data h, .inl ⟨rfl, rfl⟩⟩
  · apply iff_of_false _ (by omega)
    intro ⟨out, hout, hpassed⟩
    rw [execSql_long env db callback data (by omega)] at hout
    cases hout
    rcases hpassed with ⟨hsql, _⟩ | hret
    · have hlen := congrArg List.length hsql
      simp only [List.length_nil] at hlen
      omega
    · exact hret rfl

/-- Both calls pass a text on, or report an error, exactly if its encoding and the terminator fit
into 1023 bytes. -/
theorem sqls_passed_on_iff (env : ProxyEnv δ κ ν) (db : δ) (sql : List UInt16)
    (callback : Option κ) (data : Option ν) :
    (PassesOn env db sql callback data (execSql env db sql callback data) ↔
      (toUtf8 (cStr sql)).length + 1 ≤ 1023) ∧
    (PassesOn env db sql none none (exeSql env db sql) ↔
      (toUtf8 (cStr sql)).length + 1 ≤ 1023) :=
  ⟨passesOn_execSql env db sql callback data, passesOn_execSql env db sql none none⟩

/-! ## 4. A statement that is lost -/

theorem pointerSize_pos : 0 < 4 := by decide

/-- A database that keeps the statements it has executed. -/
def keepingEnv : ProxyEnv (List (List UInt8)) Unit Unit where
  sizeofPointer := 4
  sizeofPointer_pos := pointerSize_pos
  cut _ str _ := str
  sqlite3Exec db zSql _ _ := (sqliteOk, if zSql = [] then db else db ++ [zSql])
  sqlite3Exec_empty _ _ _ := rfl

/-- `DELETE FROM t`, and blanks up to 1023 characters. -/
def longDelete : List UInt16 :=
  [0x44, 0x45, 0x4C, 0x45, 0x54, 0x45, 0x20, 0x46, 0x52, 0x4F, 0x4D, 0x20, 0x74] ++
    List.replicate 1010 0x20

theorem longDelete_lost :
    exeSql keepingEnv [] longDelete = some ⟨[], sqliteOk, []⟩ ∧
      ¬ PassesOn keepingEnv [] longDelete none none (exeSql keepingEnv [] longDelete) := by
  have hlong : 1023 ≤ (toUtf8 (cStr longDelete)).length := by decide +kernel
  have hlost : exeSql keepingEnv [] longDelete = some ⟨[], sqliteOk, []⟩ :=
    execSql_long keepingEnv [] none none hlong
  apply And.intro hlost
  intro h
  rw [exeSql, passesOn_execSql] at h
  omega

end VerifyServer.DataBase
