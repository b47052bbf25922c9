import VerifyServer.Protocol.JsonGrammar
import VerifyServer.Reasoning.Block
import VerifyServer.Reasoning.Decimal

/-!
# JsonPrint — `cJSON_Print` and `cJSON_PrintUnformatted`

Each function asks for a block of a size that it has worked out, and writes its text there.  Without
a result a write would leave the block.  The sizes are numbers here, `int`s in the source: the two are
the same as long as no size that is worked out gets to 2³¹.
-/

open VerifyServer.Reasoning

namespace VerifyServer.Protocol

def tab : UInt16 := 0x09
def newline : UInt16 := 0x0A
def blank : UInt16 := 0x20

def tabs (n : Nat) : List UInt16 := List.replicate n tab

/-! ## 1. Strings and numbers -/

/-- The unit behind the backslash, for a unit that has one. -/
def shortLetter (token : UInt16) : Option UInt16 :=
  if token = backslash ∨ token = quoteMark then some token
  else if token = 0x08 then some 0x62
  else if token = 0x0C then some 0x66
  else if token = 0x0A then some 0x6E
  else if token = 0x0D then some 0x72
  else if token = 0x09 then some 0x74
  else none

def lowerHex (n : Nat) : UInt16 := UInt16.ofNat (if n < 10 then 0x30 + n else 0x57 + n)

/-- `%04x` -/
def hex4 (token : UInt16) : List UInt16 :=
  [lowerHex (token.toNat / 4096 % 16), lowerHex (token.toNat / 256 % 16),
    lowerHex (token.toNat / 16 % 16), lowerHex (token.toNat % 16)]

/-- What a unit adds to `flag`. -/
def isFlagged (c : UInt16) : Bool := c < 32 || c = quoteMark || c = backslash

/-- What a unit adds to `len`. -/
def unitLen (token : UInt16) : Nat :=
  if (shortLetter token).isSome then 2 else if token < 32 then 6 else 1

/-- What is written for a unit. -/
def escape (token : UInt16) : List UInt16 :=
  if isFlagged token then
    match shortLetter token with
    | some letter => [backslash, letter]
    | none => backslash :: letterU :: hex4 token
  else [token]

/-- `print_string_ptr`. -/
def printStringPtr (str : TText) : Option (List UInt16) :=
  if str.units.any isFlagged then
    Block.fill ((str.units.map unitLen).sum + 3)
      ([quoteMark] :: (str.units.map escape ++ [[quoteMark]]))
  else Block.fill (str.units.length + 3) [[quoteMark], str.units, [quoteMark]]

variable {D : Type} (A : Doubles D) (fmt : Bool)

/-- How a `double` that is no `int` is printed. -/
def floatFormat (d : D) : FloatFormat :=
  if A.le (A.fabs (A.sub (A.floor d) d)) A.DBL_EPSILON && A.lt (A.fabs d) (A.literal 1 60) then .wholeF
  else if A.lt (A.fabs d) (A.literal 1 (-6)) || A.lt (A.literal 1 9) (A.fabs d) then .e
  else .f

/-- The text of a number and the size of its block. -/
def numberText (valueint : Int32) (d : D) : List UInt16 × Nat :=
  if A.eq d (A.ofInt 0) then (lit "0", 2)
  else if A.le (A.fabs (A.sub (A.ofInt valueint.toInt) d)) A.DBL_EPSILON &&
      A.le d (A.ofInt 0x7FFFFFFF) && A.le (A.ofInt (-0x80000000)) d then
    (decimal valueint.toInt, 21)
  else (A.print (floatFormat A d) d, 64)

/-- `print_number`. -/
def printNumber (valueint : Int32) (d : D) : Option (List UInt16) :=
  Block.fill (numberText A valueint d).2 [(numberText A valueint d).1]

/-! ## 2. Arrays and objects -/

/-- What is written for an array. -/
def arrayPieces : List (List UInt16) → List (List UInt16)
  | [] => []
  | [ret] => [ret]
  | ret :: more => ret :: (if fmt then [comma, blank] else [comma]) :: arrayPieces more

/-- The end of `print_array`: the block for the texts of the children. -/
def composeArray (entries : List (List UInt16)) : Option (List UInt16) :=
  let len :=
    if entries = [] then 3
    else 5 + (entries.map fun ret => ret.length + 2 + if fmt then 1 else 0).sum
  Block.fill len ([openBracket] :: (arrayPieces fmt entries ++ [[closeBracket]]))

/-- What is written for a child of an object. -/
def memberPieces (depth : Nat) (child : List UInt16 × List UInt16) : List (List UInt16) :=
  [if fmt then tabs depth else [], child.1, [colon], if fmt then [tab] else [], child.2]

def objectPieces (depth : Nat) : List (List UInt16 × List UInt16) → List (List UInt16)
  | [] => []
  | child :: more =>
    memberPieces fmt depth child ++
      ((if more = [] then [] else [comma]) :: (if fmt then [newline] else []) ::
        objectPieces depth more)

/-- What is written for an object: `depth` counts up when there are children. -/
def bracedPieces (depth : Nat) (entries : List (List UInt16 × List UInt16)) : List (List UInt16) :=
  if entries = [] then
    [[openBrace], if fmt then newline :: tabs (depth - 1) else [], [closeBrace]]
  else
    [openBrace] :: (if fmt then [newline] else []) :: (objectPieces fmt (depth + 1) entries ++
      [if fmt then tabs depth else [], [closeBrace]])

/-- The end of `print_object`: the block for the names and texts of the children. -/
def composeObject (depth : Nat) (entries : List (List UInt16 × List UInt16)) :
    Option (List UInt16) :=
  let len :=
    if entries = [] then if fmt then depth + 4 else 3
    else 7 + (if fmt then depth + 1 else 0) + (entries.map fun e =>
      e.2.length + e.1.length + 2 + if fmt then 2 + (depth + 1) else 0).sum
  Block.fill len (bracedPieces fmt depth entries)

mutual

/-- `print_value`, `print_array` and `print_object` without a buffer. -/
def printValue (depth : Nat) : JsonTree D → Option (List UInt16)
  | .null => Block.fill 5 [lit "null"]
  | .false => Block.fill 6 [lit "false"]
  | .true => Block.fill 5 [lit "true"]
  | .number valueint d => printNumber A valueint d
  | .string s => printStringPtr s
  | .array child => do
    let entries ← printElements (depth + 1) child
    composeArray fmt entries
  | .object child => do
    let entries ← printMembers (depth + 1) child
    composeObject fmt depth entries

def printElements (depth : Nat) : List (JsonTree D) → Option (List (List UInt16))
  | [] => some []
  | child :: more => do
    let ret ← printValue depth child
    let rets ← printElements depth more
    return ret :: rets

def printMembers (depth : Nat) :
    List (TText × JsonTree D) → Option (List (List UInt16 × List UInt16))
  | [] => some []
  | (string, child) :: more => do
    let str ← printStringPtr string
    let ret ← printValue depth child
    let rets ← printMembers depth more
    return (str, ret) :: rets

end

/-- `cJSON_Print`. -/
def print (item : JsonTree D) : Option (List UInt16) := printValue A true 0 item

/-- `cJSON_PrintUnformatted`. -/
def printUnformatted (item : JsonTree D) : Option (List UInt16) := printValue A false 0 item

/-! ## 3. The text -/

def renderString (s : TText) : List UInt16 := quoteMark :: (s.units.flatMap escape ++ [quoteMark])

/-- The text of an array, from the texts of its children. -/
def renderArray (entries : List (List UInt16)) : List UInt16 :=
  openBracket :: ((arrayPieces fmt entries).flatten ++ [closeBracket])

/-- The text of an object, from the names and texts of its children. -/
def renderObject (depth : Nat) (entries : List (List UInt16 × List UInt16)) : List UInt16 :=
  (bracedPieces fmt depth entries).flatten

mutual

/-- The text of an item. -/
def render (depth : Nat) : JsonTree D → List UInt16
  | .null => lit "null"
  | .false => lit "false"
  | .true => lit "true"
  | .number valueint d => (numberText A valueint d).1
  | .string s => renderString s
  | .array child => renderArray fmt (renderElements (depth + 1) child)
  | .object child => renderObject fmt depth (renderMembers (depth + 1) child)

def renderElements (depth : Nat) : List (JsonTree D) → List (List UInt16)
  | [] => []
  | child :: more => render depth child :: renderElements depth more

def renderMembers (depth : Nat) : List (TText × JsonTree D) → List (List UInt16 × List UInt16)
  | [] => []
  | (string, child) :: more =>
    (renderString string, render depth child) :: renderMembers depth more

end

/-- What is known of the texts of a `double`. -/
structure Doubles.Prints : Prop where
  wholeF : ∀ d, A.lt (A.fabs d) (A.literal 1 60) = true → (A.print .wholeF d).length < 64
  e : ∀ d, (A.print .e d).length < 64
  f : ∀ d, A.lt (A.fabs d) (A.literal 1 (-6)) = false → A.lt (A.literal 1 9) (A.fabs d) = false →
    (A.print .f d).length < 64
  plain : ∀ format d, ∀ c ∈ A.print format d, 32 < c.toNat ∧ c ≠ quoteMark ∧ c ≠ 0x2F

/-! ## 4. The blocks are large enough -/

theorem isFlagged_eq_false {c : UInt16} :
    isFlagged c = false ↔ 32 ≤ c.toNat ∧ c ≠ quoteMark ∧ c ≠ backslash := by
  rw [isFlagged, Bool.or_eq_false_iff, Bool.or_eq_false_iff, decide_eq_false_iff_not,
    decide_eq_false_iff_not, decide_eq_false_iff_not, UInt16.lt_iff_toNat_lt, and_assoc]
  change ¬ c.toNat < 32 ∧ _ ↔ _
  rw [Nat.not_lt]

theorem shortEscape_shortLetter {c letter : UInt16} (h : shortLetter c = some letter) :
    shortEscape letter = some c := by
  unfold shortLetter at h
  split at h
  · next hself =>
    cases h
    rcases hself with rfl | rfl <;> rfl
  · split at h
    · next hb => cases h; rw [hb]; rfl
    · split at h
      · next hf => cases h; rw [hf]; rfl
      · split at h
        · next hn => cases h; rw [hn]; rfl
        · split at h
          · next hr => cases h; rw [hr]; rfl
          · split at h
            · next ht => cases h; rw [ht]; rfl
            · cases h

/-- What is flagged and has no letter is a control character. -/
theorem control_of_shortLetter_eq_none {token : UInt16} (hflag : isFlagged token = true)
    (hletter : shortLetter token = none) : token.toNat < 32 := by
  rw [shortLetter] at hletter
  split at hletter
  · cases hletter
  · next hself =>
    have hself := not_or.mp hself
    rw [isFlagged, decide_eq_false hself.1, decide_eq_false hself.2, Bool.or_false,
      Bool.or_false] at hflag
    exact UInt16.lt_iff_toNat_lt.mp (of_decide_eq_true hflag)

theorem length_escape_le (token : UInt16) : (escape token).length ≤ unitLen token := by
  rw [escape, unitLen]
  cases hflag : isFlagged token with
  | false =>
    change 1 ≤ _
    split
    · omega
    · split <;> omega
  | true =>
    cases hletter : shortLetter token with
    | some letter => exact Nat.le_refl 2
    | none =>
      have hcontrol : token < 32 :=
        UInt16.lt_iff_toNat_lt.mpr (control_of_shortLetter_eq_none hflag hletter)
      change 6 ≤ if False then 2 else _
      rw [if_neg id, if_pos hcontrol]

theorem length_flatMap_escape_le (s : List UInt16) :
    (s.flatMap escape).length ≤ (s.map unitLen).sum := by
  induction s with
  | nil => exact Nat.le_refl 0
  | cons c s ih =>
    rw [List.flatMap_cons, List.length_append, List.map_cons, List.sum_cons]
    exact Nat.add_le_add (length_escape_le c) ih

theorem flatMap_escape_of_plain {s : List UInt16} (h : s.any isFlagged = false) :
    s.flatMap escape = s := by
  induction s with
  | nil => rfl
  | cons c s ih =>
    rw [List.any_cons, Bool.or_eq_false_iff] at h
    rw [List.flatMap_cons, ih h.2, escape, h.1]
    rfl

theorem zero_not_mem_escape (token : UInt16) (h : token ≠ 0) : 0 ∉ escape token := by
  have hhex : ∀ n < 32, 0 ∉ hex4 (UInt16.ofNat n) := by decide
  rw [escape]
  cases hflag : isFlagged token with
  | false =>
    rw [if_neg Bool.false_ne_true, List.mem_singleton]
    exact h.symm
  | true =>
    rw [if_pos rfl]
    cases hletter : shortLetter token with
    | some letter =>
      have hne : letter ≠ 0 := fun heq => by
        rw [heq] at hletter
        cases shortEscape_shortLetter hletter
      simp only [List.mem_cons, not_or]
      exact ⟨by decide, hne.symm, List.not_mem_nil⟩
    | none =>
      have hcontrol := hhex token.toNat (control_of_shortLetter_eq_none hflag hletter)
      rw [UInt16.ofNat_toNat] at hcontrol
      rw [List.mem_cons, List.mem_cons, not_or, not_or]
      exact ⟨by decide, by decide, hcontrol⟩

theorem zero_not_mem_renderString (s : TText) : 0 ∉ renderString s := by
  have hescape : 0 ∉ s.units.flatMap escape := by
    intro hmem
    have ⟨c, hc, hzero⟩ := List.mem_flatMap.mp hmem
    exact zero_not_mem_escape c (fun heq => s.no_nul (heq ▸ hc)) hzero
  simp only [renderString, List.mem_cons, List.mem_append, not_or]
  exact ⟨by decide, hescape, by decide, List.not_mem_nil⟩

theorem printStringPtr_eq (str : TText) : printStringPtr str = some (renderString str) := by
  rw [printStringPtr, renderString]
  cases hflag : str.units.any isFlagged with
  | true =>
    have hlength := length_flatMap_escape_le str.units
    have hflatten : ([quoteMark] :: (str.units.map escape ++ [[quoteMark]])).flatten =
        quoteMark :: (str.units.flatMap escape ++ [quoteMark]) := by
      rw [List.flatten_cons, List.flatten_append, List.flatMap_def]
      rfl
    rw [if_pos rfl, Block.fill_eq, hflatten]
    rw [hflatten, List.length_cons, List.length_append, List.length_singleton]
    omega
  | false =>
    rw [if_neg Bool.false_ne_true, flatMap_escape_of_plain hflag]
    have hflatten : [[quoteMark], str.units, [quoteMark]].flatten =
        quoteMark :: (str.units ++ [quoteMark]) := rfl
    rw [Block.fill_eq, hflatten]
    rw [hflatten, List.length_cons, List.length_append, List.length_singleton]
    omega

theorem decimal_plain (i : Int) : ∀ c ∈ decimal i, 32 < c.toNat ∧ c ≠ quoteMark ∧ c ≠ 0x2F := by
  have hdigits : ∀ n, ∀ c ∈ digits n, 32 < c.toNat ∧ c ≠ quoteMark ∧ c ≠ 0x2F := by
    intro n c hmem
    have hlow := UInt16.le_iff_toNat_le.mp (mem_digits hmem).1
    change 0x30 ≤ c.toNat at hlow
    refine ⟨by omega, ?_, ?_⟩
    · intro heq
      rw [heq] at hlow
      exact absurd hlow (by decide)
    · intro heq
      rw [heq] at hlow
      exact absurd hlow (by decide)
  cases i with
  | ofNat n => exact hdigits n
  | negSucc n =>
    intro c hmem
    rcases List.mem_cons.mp hmem with rfl | hmem
    · decide
    · exact hdigits (n + 1) c hmem

theorem length_decimal_lt (i : Int32) : (decimal i.toInt).length < 21 := by
  have hlow := Int32.le_toInt i
  have hhigh := Int32.toInt_lt i
  cases hi : i.toInt with
  | ofNat n =>
    rw [hi] at hhigh
    change (n : Int) < 2 ^ 31 at hhigh
    have hn : n < 10 ^ 10 := by omega
    have hlength := length_digits_le (by decide) hn
    rw [decimal]
    omega
  | negSucc n =>
    rw [hi] at hlow
    have hn : n + 1 < 10 ^ 11 := by omega
    have hlength := length_digits_le (by decide) hn
    rw [decimal, List.length_cons]
    omega

variable {A fmt}

theorem length_numberText_lt (hprints : A.Prints) (i : Int32) (d : D) :
    (numberText A i d).1.length < (numberText A i d).2 := by
  rw [numberText]
  split
  · exact (by decide : 1 < 2)
  · split
    · exact length_decimal_lt i
    · change (A.print (floatFormat A d) d).length < 64
      rw [floatFormat]
      split
      · next hwhole => exact hprints.wholeF d (Bool.and_eq_true_iff.mp hwhole).2
      · split
        · exact hprints.e d
        · next he =>
          have he := Bool.or_eq_false_iff.mp (Bool.eq_false_of_not_eq_true he)
          exact hprints.f d he.1 he.2

theorem numberText_plain (hprints : A.Prints) (i : Int32) (d : D) :
    ∀ c ∈ (numberText A i d).1, 32 < c.toNat ∧ c ≠ quoteMark ∧ c ≠ 0x2F := by
  rw [numberText]
  split
  · exact decimal_plain 0
  · split
    · exact decimal_plain i.toInt
    · exact hprints.plain _ d

theorem zero_not_mem_numberText (hprints : A.Prints) (i : Int32) (d : D) :
    0 ∉ (numberText A i d).1 :=
  fun hmem => absurd (numberText_plain hprints i d 0 hmem).1 (by decide)

theorem printNumber_eq (hprints : A.Prints) (i : Int32) (d : D) :
    printNumber A i d = some (numberText A i d).1 := by
  have hflatten : [(numberText A i d).1].flatten = (numberText A i d).1 := by
    rw [List.flatten_cons, List.flatten_nil, List.append_nil]
  rw [printNumber, Block.fill_eq, hflatten]
  rw [hflatten]
  exact length_numberText_lt hprints i d

theorem arrayPieces_cons_cons (ret ret' : List UInt16) (more : List (List UInt16)) :
    arrayPieces fmt (ret :: ret' :: more) =
      ret :: (if fmt then [comma, blank] else [comma]) :: arrayPieces fmt (ret' :: more) := rfl

theorem length_arrayPieces_le (fmt : Bool) (entries : List (List UInt16)) :
    (arrayPieces fmt entries).flatten.length ≤
      (entries.map fun ret => ret.length + 2 + if fmt then 1 else 0).sum := by
  induction entries with
  | nil => exact Nat.le_refl 0
  | cons ret more ih =>
    cases more with
    | nil =>
      rw [arrayPieces, List.flatten_cons, List.flatten_nil, List.append_nil, List.map_singleton,
        List.sum_singleton]
      omega
    | cons ret' more =>
      rw [arrayPieces_cons_cons, List.flatten_cons, List.flatten_cons, List.length_append,
        List.length_append, List.map_cons, List.sum_cons]
      have hseparator : (if fmt then [comma, blank] else [comma]).length ≤
          2 + if fmt then 1 else 0 := by
        cases fmt <;> decide
      omega

theorem composeArray_eq (entries : List (List UInt16)) :
    composeArray fmt entries = some (renderArray fmt entries) := by
  have hflatten : ([openBracket] :: (arrayPieces fmt entries ++ [[closeBracket]])).flatten =
      renderArray fmt entries := by
    rw [List.flatten_cons, List.flatten_append]
    rfl
  rw [composeArray, Block.fill_eq, hflatten]
  rw [hflatten, renderArray, List.length_cons, List.length_append, List.length_singleton]
  have hlength := length_arrayPieces_le fmt entries
  split
  · next hnil =>
    rw [hnil]
    exact (by decide : 2 < 3)
  · omega

theorem length_tabs (n : Nat) : (tabs n).length = n := List.length_replicate

theorem length_objectPieces_le (fmt : Bool) (depth : Nat)
    (entries : List (List UInt16 × List UInt16)) :
    (objectPieces fmt depth entries).flatten.length ≤
      (entries.map fun e => e.2.length + e.1.length + 2 + if fmt then 2 + depth else 0).sum := by
  induction entries with
  | nil => exact Nat.le_refl 0
  | cons child more ih =>
    have hcomma : (if more = [] then [] else [comma]).length ≤ 1 := by
      split <;> decide
    have hmember : (memberPieces fmt depth child).flatten.length +
        (if fmt then [newline] else []).length =
          child.2.length + child.1.length + 1 + if fmt then 2 + depth else 0 := by
      cases fmt with
      | true =>
        simp only [memberPieces, if_true, List.flatten_cons, List.flatten_nil, List.length_append,
          length_tabs, List.length_singleton, List.length_nil]
        omega
      | false =>
        simp only [memberPieces, Bool.false_eq_true, if_false, List.flatten_cons, List.flatten_nil,
          List.length_append, List.length_singleton, List.length_nil]
        omega
    rw [objectPieces, List.flatten_append, List.flatten_cons, List.flatten_cons,
      List.length_append, List.length_append, List.length_append, List.map_cons, List.sum_cons]
    omega

theorem composeObject_eq (depth : Nat) (entries : List (List UInt16 × List UInt16)) :
    composeObject fmt depth entries = some (renderObject fmt depth entries) := by
  rw [composeObject, renderObject]
  apply Block.fill_eq
  rw [bracedPieces]
  split
  · cases fmt with
    | true =>
      simp only [if_true, List.flatten_cons, List.flatten_nil, List.length_append, List.length_cons,
        length_tabs, List.length_nil]
      omega
    | false => exact (by decide : 2 < 3)
  · have hlength := length_objectPieces_le fmt (depth + 1) entries
    have hnewline : (if fmt then [newline] else []).length ≤ 1 := by
      cases fmt <;> decide
    have htabs : (if fmt then tabs depth else []).length = if fmt then depth else 0 := by
      cases fmt
      · rfl
      · exact length_tabs depth
    simp only [List.flatten_cons, List.flatten_append, List.flatten_nil, List.length_append,
      List.length_cons, List.length_nil]
    rw [htabs]
    have hdepth : (if fmt then depth else 0) ≤ if fmt then depth + 1 else 0 := by
      cases fmt
      · exact Nat.le_refl 0
      · exact Nat.le_succ depth
    omega

mutual

/-- Nothing is written outside of a block, and the text is that of the item. -/
theorem printValue_eq (hprints : A.Prints) (depth : Nat) :
    ∀ item : JsonTree D, printValue A fmt depth item = some (render A fmt depth item)
  | .null => rfl
  | .false => rfl
  | .true => rfl
  | .number i d => printNumber_eq hprints i d
  | .string s => printStringPtr_eq s
  | .array child => by
    rw [printValue, printElements_eq hprints (depth + 1) child]
    exact composeArray_eq _
  | .object child => by
    rw [printValue, printMembers_eq hprints (depth + 1) child]
    exact composeObject_eq depth _

theorem printElements_eq (hprints : A.Prints) (depth : Nat) :
    ∀ child : List (JsonTree D),
      printElements A fmt depth child = some (renderElements A fmt depth child)
  | [] => rfl
  | child :: more => by
    rw [printElements, printValue_eq hprints depth child, printElements_eq hprints depth more]
    rfl

theorem printMembers_eq (hprints : A.Prints) (depth : Nat) :
    ∀ child : List (TText × JsonTree D),
      printMembers A fmt depth child = some (renderMembers A fmt depth child)
  | [] => rfl
  | (string, child) :: more => by
    rw [printMembers, printStringPtr_eq, printValue_eq hprints depth child,
      printMembers_eq hprints depth more]
    rfl

end

/-! ## 5. The text spells the item -/

theorem abs_toInt_le (i : Int32) : |i.toInt| ≤ 2 ^ 31 := by
  have hlow := Int32.le_toInt i
  have hhigh := Int32.toInt_lt i
  rw [abs_le]
  omega

theorem numberText_whole (hexact : A.Exact) (i : Int32) :
    (numberText A i (A.ofInt i.toInt)).1 = decimal i.toInt := by
  have habs := abs_toInt_le i
  have hlow := Int32.le_toInt i
  have hhigh := Int32.toInt_lt i
  rw [numberText, hexact.eq _ _ (by omega) (by decide)]
  by_cases hzero : i.toInt = 0
  · rw [if_pos (decide_eq_true hzero), hzero]
    rfl
  · have hsub : A.sub (A.ofInt i.toInt) (A.ofInt i.toInt) = A.ofInt 0 := by
      rw [hexact.sub _ _ (by omega) (by omega) (by rw [Int.sub_self]; decide), Int.sub_self]
    have hmax : A.le (A.ofInt i.toInt) (A.ofInt 0x7FFFFFFF) = true := by
      rw [hexact.le _ _ (by omega) (by decide)]
      exact decide_eq_true (by omega)
    have hmin : A.le (A.ofInt (-0x80000000)) (A.ofInt i.toInt) = true := by
      rw [hexact.le _ _ (by decide) (by omega)]
      exact decide_eq_true (by omega)
    rw [if_neg (by simpa using hzero), hsub, hexact.fabs, hexact.epsilon, hmax, hmin]
    rfl

theorem numeral_digits (n : Nat) : numeral (digits n) = n := by
  have hlast : ∀ d < 10, numeral [UInt16.ofNat (0x30 + d)] = d := by decide
  induction n using Nat.strongRecOn with
  | _ n ih =>
    by_cases hlt : n < 10
    · rw [digits_of_lt hlt]
      exact hlast n hlt
    · rw [digits_of_le (by omega), numeral_append, ih (n / 10) (by omega),
        hlast _ (Nat.mod_lt n (by decide)), List.length_singleton]
      omega

/-- The text `%d` writes. -/
def decimalText (i : Int) : NumberText where
  negative := decide (i < 0)
  integer := digits i.natAbs
  fraction := []
  exponent := none

theorem decimalText_text (i : Int) : (decimalText i).text = decimal i := by
  cases i with
  | ofNat n =>
    change (if decide ((n : Int) < 0) then _ else _) ++ (digits n ++ []) = digits n
    rw [decide_eq_false (by omega), List.append_nil]
    rfl
  | negSucc n =>
    have hsign : (decimalText (Int.negSucc n)).signText = [minus] :=
      if_pos (decide_eq_true (Int.negSucc_lt_zero n))
    rw [NumberText.text, hsign, decimal]
    change minus :: (digits (n + 1) ++ []) = minus :: digits (n + 1)
    rw [List.append_nil]

theorem decimalText_wellFormed (i : Int) : (decimalText i).WellFormed where
  integer := by
    change digits i.natAbs = [0x30] ∨ ∃ c ds, digits i.natAbs = c :: ds ∧ _
    by_cases hzero : i.natAbs = 0
    · rw [hzero]
      exact .inl (digits_of_lt (by decide))
    · have ⟨c, ds, hds, hlow, hhigh⟩ := digits_head (Nat.pos_of_ne_zero hzero)
      refine .inr ⟨c, ds, hds, ?_, ?_⟩
      · rw [Bool.and_eq_true_iff, decide_eq_true_iff, decide_eq_true_iff, UInt16.le_iff_toNat_le,
          UInt16.le_iff_toNat_le]
        exact ⟨hlow, hhigh⟩
      · refine List.all_eq_true.mpr fun d hd => ?_
        have hmem : d ∈ digits i.natAbs := by
          rw [hds]
          exact List.mem_cons_of_mem _ hd
        have hle := mem_digits hmem
        rw [isDigit, decide_eq_true hle.1, decide_eq_true hle.2]
        rfl
  fraction := rfl
  exponent := fun _ he => by cases he

theorem decimalText_inRange (i : Int32) : (decimalText i.toInt).InRange where
  mantissa := by
    have habs := abs_toInt_le i
    rw [abs_le] at habs
    change numeral (digits i.toInt.natAbs ++ []) ≤ 2 ^ 53
    rw [List.append_nil, numeral_digits]
    omega
  fraction := Nat.pow_pos (by decide)
  exponent := fun _ he => by cases he

theorem decimalText_value (hexact : A.Exact) (i : Int32) :
    (decimalText i.toInt).value A = A.ofInt i.toInt := by
  have habs := abs_toInt_le i
  have hvalue : (decimalText i.toInt).value A =
      A.mul (A.mul (A.ofInt (if decide (i.toInt < 0) then -1 else 1)) (A.ofInt i.toInt.natAbs))
        (A.pow (A.ofInt 10) (A.ofInt 0)) := by
    have hmantissa : (decimalText i.toInt).mantissa = i.toInt.natAbs := by
      change numeral (digits i.toInt.natAbs ++ []) = _
      rw [List.append_nil, numeral_digits]
    rw [NumberText.value, hmantissa]
    rfl
  rw [hvalue, hexact.pow]
  have hone : ∀ n : Int, |n| ≤ 2 ^ 31 → n ≠ 0 ∨ 0 ≤ n →
      A.mul (A.ofInt n) (A.ofInt 1) = A.ofInt n := by
    intro n hn hsign
    rw [hexact.mul n 1 (by omega) (by decide) (by rw [Int.mul_one]; omega)
      (by rw [Int.mul_one]; exact hsign.imp id fun h => ⟨h, by decide⟩), Int.mul_one]
  have hcast : |(i.toInt.natAbs : Int)| ≤ 2 ^ 53 := by
    rw [abs_of_nonneg (Int.natCast_nonneg _)]
    rw [abs_le] at habs
    omega
  by_cases hneg : i.toInt < 0
  · have hprod : (-1 : Int) * (i.toInt.natAbs : Int) = i.toInt := by omega
    rw [if_pos (decide_eq_true hneg)]
    rw [hexact.mul (-1) _ (by decide) hcast (by rw [hprod]; omega)
      (.inl (by rw [hprod]; omega)), hprod]
    exact hone _ habs (.inl (by omega))
  · have hprod : (1 : Int) * (i.toInt.natAbs : Int) = i.toInt := by omega
    rw [if_neg (by simpa using hneg)]
    rw [hexact.mul 1 _ (by decide) hcast (by rw [hprod]; omega)
      (.inr ⟨by decide, Int.natCast_nonneg _⟩), hprod]
    exact hone _ habs (.inr (by omega))

mutual

/-- Each number of the item is an `int`. -/
def JsonTree.Whole (A : Doubles D) : JsonTree D → Prop
  | .number i d => d = A.ofInt i.toInt
  | .array child => WholeElements A child
  | .object child => WholeMembers A child
  | _ => True

def WholeElements (A : Doubles D) : List (JsonTree D) → Prop
  | [] => True
  | child :: more => child.Whole A ∧ WholeElements A more

def WholeMembers (A : Doubles D) : List (TText × JsonTree D) → Prop
  | [] => True
  | (_, child) :: more => child.Whole A ∧ WholeMembers A more

end

theorem spells_number (hexact : A.Exact) (Gap : List UInt16 → Prop) (i : Int32) :
    Spells A (NumberText.Denotes A) Gap (.number i (A.ofInt i.toInt))
      (numberText A i (A.ofInt i.toInt)).1 := by
  have hdenotes : (decimalText i.toInt).Denotes A (A.ofInt i.toInt) :=
    ⟨decimalText_inRange i, (decimalText_value hexact i).symm⟩
  have h := @Spells.number _ A (NumberText.Denotes A) Gap _ _ (decimalText_wellFormed i.toInt)
    hdenotes
  rwa [hexact.toInt, decimalText_text, ← numberText_whole hexact] at h

theorem parseHex4_hex4 : ∀ n < 32, parseHex4 (hex4 (UInt16.ofNat n)) = n := by decide

theorem spells_escape {s : List UInt16} (hs : 0 ∉ s) : SpellsUnits (s.flatMap escape) s := by
  induction s with
  | nil => exact .nil
  | cons c s ih =>
    rw [List.mem_cons, not_or] at hs
    have ih := ih hs.2
    rw [List.flatMap_cons, escape]
    cases hflag : isFlagged c with
    | false =>
      have ⟨_, hquote, hback⟩ := isFlagged_eq_false.mp hflag
      exact .plain hquote hback ih
    | true =>
      cases hletter : shortLetter c with
      | some letter => exact .short (shortEscape_shortLetter hletter) ih
      | none =>
        have hcontrol := control_of_shortLetter_eq_none hflag hletter
        have hpos : 0 < c.toNat := Nat.pos_of_ne_zero fun h0 => hs.1 (UInt16.toNat_inj.mp h0.symm)
        have hhex : parseHex4 (hex4 c) = c.toNat := by
          have h := parseHex4_hex4 c.toNat hcontrol
          rwa [UInt16.ofNat_toNat] at h
        have hspells := SpellsUnits.hex hhex hpos (by omega) ih
        rwa [UInt16.ofNat_toNat] at hspells

/-- What stands between two tokens of a text that is printed. -/
def Layout (fmt : Bool) (g : List UInt16) : Prop := if fmt then Blanks g else g = []

theorem layout_nil : Layout fmt [] := by
  cases fmt <;> rfl

theorem layout_ite {g : List UInt16} (hg : Blanks g) : Layout fmt (if fmt then g else []) := by
  cases fmt with
  | true => exact hg
  | false => rfl

theorem Layout.append {g g' : List UInt16} (hg : Layout fmt g) (hg' : Layout fmt g') :
    Layout fmt (g ++ g') := by
  cases fmt with
  | true =>
    change (g ++ g').all isBlank = true
    rw [List.all_append, show g.all isBlank = true from hg, show g'.all isBlank = true from hg']
    rfl
  | false => rw [show g = [] from hg, List.nil_append]; exact hg'

theorem Layout.blanks {g : List UInt16} (hg : Layout fmt g) : Blanks g := by
  cases fmt with
  | true => exact hg
  | false => rw [show g = [] from hg]; rfl

theorem blanks_tabs (n : Nat) : Blanks (tabs n) :=
  List.all_eq_true.mpr fun _ hc => List.eq_of_mem_replicate hc ▸ rfl

theorem layout_tabs (n : Nat) : Layout fmt (if fmt then tabs n else []) :=
  layout_ite (blanks_tabs n)

theorem layout_newline : Layout fmt (if fmt then [newline] else []) := layout_ite rfl

theorem flatten_objectPieces_cons (depth : Nat) (child : List UInt16 × List UInt16)
    (more : List (List UInt16 × List UInt16)) :
    (objectPieces fmt depth (child :: more)).flatten =
      (if fmt then tabs depth else []) ++ (child.1 ++ (colon :: ((if fmt then [tab] else []) ++
        (child.2 ++ ((if more = [] then [] else [comma]) ++
          ((if fmt then [newline] else []) ++ (objectPieces fmt depth more).flatten)))))) := by
  simp only [objectPieces, memberPieces, List.flatten_cons, List.nil_append, List.cons_append]

theorem renderMembers_ne_nil (depth : Nat) (m : TText × JsonTree D)
    (ms : List (TText × JsonTree D)) : renderMembers A fmt depth (m :: ms) ≠ [] := by
  have ⟨string, v⟩ := m
  exact List.cons_ne_nil _ _

theorem render_object (depth : Nat) (m : TText × JsonTree D) (ms : List (TText × JsonTree D)) :
    render A fmt depth (.object (m :: ms)) = openBrace :: ((if fmt then [newline] else []) ++
      ((objectPieces fmt (depth + 1) (renderMembers A fmt (depth + 1) (m :: ms))).flatten ++
        ((if fmt then tabs depth else []) ++ [closeBrace]))) := by
  change (bracedPieces fmt depth (renderMembers A fmt (depth + 1) (m :: ms))).flatten = _
  rw [bracedPieces, if_neg (renderMembers_ne_nil (depth + 1) m ms)]
  simp only [List.flatten_cons, List.flatten_append, List.flatten_nil, List.append_nil]
  rfl

mutual

/-- What is printed spells the item. -/
theorem spells_render (hexact : A.Exact) (depth : Nat) :
    ∀ v : JsonTree D, v.Whole A → Spells A (NumberText.Denotes A) (Layout fmt) v (render A fmt depth v)
  | .null, _ => .null
  | .false, _ => .false
  | .true, _ => .true
  | .number i d, hwhole => by
    obtain rfl : d = A.ofInt i.toInt := hwhole
    exact spells_number hexact (Layout fmt) i
  | .string s, _ => .string (spells_escape s.no_nul)
  | .array [], _ => .emptyArray layout_nil
  | .array (v :: vs), hwhole => by
    have h := spells_renderElements hexact (depth + 1) (v :: vs) (List.cons_ne_nil v vs) hwhole []
      layout_nil
    exact .array h
  | .object [], _ => by
    have hblanks : Layout fmt (if fmt then newline :: tabs (depth - 1) else []) :=
      layout_ite (blanks_tabs (depth - 1))
    change Spells A (NumberText.Denotes A) (Layout fmt) _
      (([[openBrace], _, [closeBrace]] : List (List UInt16)).flatten)
    exact .emptyObject hblanks
  | .object (m :: ms), hwhole => by
    have h := spells_renderMembers hexact (depth + 1) (m :: ms) (List.cons_ne_nil m ms) hwhole _
      layout_newline _ (layout_tabs depth)
    rw [render_object]
    exact .object h

/-- The children from one of them on, up to the bracket. -/
theorem spells_renderElements (hexact : A.Exact) (depth : Nat) :
    ∀ vs : List (JsonTree D), vs ≠ [] → WholeElements A vs → ∀ g, Layout fmt g →
      SpellsElements A (NumberText.Denotes A) (Layout fmt) vs
        (g ++ ((arrayPieces fmt (renderElements A fmt depth vs)).flatten ++ [closeBracket]))
  | [], hne, _, _, _ => absurd rfl hne
  | [v], _, hwhole, g, hg => by
    have h := SpellsElements.last hg (spells_render hexact depth v hwhole.1)
      layout_nil
    have hpieces : (arrayPieces fmt (renderElements A fmt depth [v])).flatten =
        render A fmt depth v := by
      change (render A fmt depth v) ++ [] = _
      rw [List.append_nil]
    rw [hpieces]
    exact h
  | v :: v' :: vs, _, hwhole, g, hg => by
    have hrest := spells_renderElements hexact depth (v' :: vs) (List.cons_ne_nil v' vs) hwhole.2
      (if fmt then [blank] else []) (layout_ite rfl)
    have h := SpellsElements.more hg (spells_render hexact depth v hwhole.1)
      layout_nil hrest
    have hpieces : (arrayPieces fmt (renderElements A fmt depth (v :: v' :: vs))).flatten ++
        [closeBracket] = render A fmt depth v ++ ([] ++ comma :: ((if fmt then [blank] else []) ++
          ((arrayPieces fmt (renderElements A fmt depth (v' :: vs))).flatten ++
            [closeBracket]))) := by
      change (render A fmt depth v ++ ((if fmt then [comma, blank] else [comma]) ++
        (arrayPieces fmt (renderElements A fmt depth (v' :: vs))).flatten)) ++ _ = _
      cases fmt <;> simp
    rw [hpieces]
    exact h

/-- Each line begins with its tabs, and with the newline of the one in front of it. -/
theorem spells_renderMembers (hexact : A.Exact) (depth : Nat) :
    ∀ ms : List (TText × JsonTree D), ms ≠ [] → WholeMembers A ms → ∀ g, Layout fmt g →
      ∀ g', Layout fmt g' → SpellsMembers A (NumberText.Denotes A) (Layout fmt) ms
        (g ++ ((objectPieces fmt depth (renderMembers A fmt depth ms)).flatten ++
          (g' ++ [closeBrace])))
  | [], hne, _, _, _, _, _ => absurd rfl hne
  | [(string, v)], _, hwhole, g, hg, g', hg' => by
    have hmember := SpellsMember.mk (hg.append (layout_tabs depth))
      (spells_escape string.no_nul) layout_nil (layout_ite (g := [tab]) rfl)
      (spells_render hexact depth v hwhole.1)
    have h := SpellsMembers.last hmember (layout_newline.append hg')
    rw [renderMembers, flatten_objectPieces_cons, renderString]
    simpa [renderMembers, objectPieces] using h
  | (string, v) :: m' :: ms, _, hwhole, g, hg, g', hg' => by
    have hmember := SpellsMember.mk (hg.append (layout_tabs depth))
      (spells_escape string.no_nul) layout_nil (layout_ite (g := [tab]) rfl)
      (spells_render hexact depth v hwhole.1)
    have hrest := spells_renderMembers hexact depth (m' :: ms) (List.cons_ne_nil m' ms) hwhole.2 _
      layout_newline g' hg'
    have h := SpellsMembers.more hmember layout_nil hrest
    rw [renderMembers, flatten_objectPieces_cons, renderString,
      if_neg (renderMembers_ne_nil depth m' ms)]
    simpa using h

end

theorem spellsText_render (fmt : Bool) (hexact : A.Exact) {v : JsonTree D} (hwhole : v.Whole A)
    (depth : Nat) :
    SpellsText A (NumberText.Parsed A) Blanks v (render A fmt depth v) := by
  have h : Spells A (NumberText.Parsed A) Blanks v (render A fmt depth v) :=
    (spells_render hexact depth v hwhole).mono (fun _ _ hn hd => hd.parsed hexact hn)
      fun _ hg => hg.blanks
  exact ⟨[], _, [], rfl, h, rfl, (List.append_nil _).symm⟩

/-- A text of `print_value`. -/
theorem printValue_text (hexact : A.Exact) (hprints : A.Prints) {v : JsonTree D}
    (hwhole : v.Whole A) (fmt : Bool) (depth : Nat) :
    ∃ text : TText, printValue A fmt depth v = some text.units ∧
      text.units = render A fmt depth v := by
  have h : Spells A (NumberText.Denotes A) (Layout fmt) v (render A fmt depth v) :=
    spells_render hexact depth v hwhole
  exact ⟨⟨_, h.no_nul fun _ hg => zero_not_mem_blanks hg.blanks⟩, printValue_eq hprints depth v, rfl⟩

/-- An item of whole numbers is printed and parsed back, with and without a format. -/
theorem parse_printValue (hexact : A.Exact) (hprints : A.Prints) {v : JsonTree D}
    (hwhole : v.Whole A) (fmt : Bool) (depth : Nat) :
    ∃ text : TText, printValue A fmt depth v = some text.units ∧ parse A text = .ok v := by
  have ⟨text, hprint, htext⟩ := printValue_text hexact hprints hwhole fmt depth
  have hspells := spellsText_render fmt hexact hwhole depth
  rw [← htext] at hspells
  have ⟨_, hparse, _⟩ := parse_spells hspells false
  refine ⟨text, hprint, ?_⟩
  rw [parse, hparse]
  rfl

/-- Whole numbers that are not rounded. -/
def integers : Doubles Int where
  ofInt := id
  toInt := Int32.ofInt
  add := (· + ·)
  sub := (· - ·)
  mul := (· * ·)
  pow := fun a b => a ^ b.toNat
  floor := id
  fabs := fun a => |a|
  le := fun a b => decide (a ≤ b)
  lt := fun a b => decide (a < b)
  eq := fun a b => decide (a = b)
  literal := fun m e => m * 10 ^ e.toNat
  DBL_EPSILON := 0
  print := fun _ d => (decimal d).take 63

theorem integers_exact : integers.Exact where
  add := fun _ _ _ _ _ => rfl
  sub := fun _ _ _ _ _ => rfl
  mul := fun _ _ _ _ _ _ => rfl
  pow := rfl
  toInt := Int32.ofInt_toInt
  eq := fun _ _ _ _ => rfl
  le := fun _ _ _ _ => rfl
  fabs := rfl
  epsilon := rfl

theorem integers_prints : integers.Prints where
  wholeF := fun _ _ => Nat.lt_succ_of_le (List.length_take_le 63 _)
  e := fun _ => Nat.lt_succ_of_le (List.length_take_le 63 _)
  f := fun _ _ _ => Nat.lt_succ_of_le (List.length_take_le 63 _)
  plain := fun _ d c hmem => decimal_plain d c (List.mem_of_mem_take hmem)

theorem whole_member : (JsonTree.object [(cStr (lit "type"), .number 4 4)]).Whole integers :=
  And.intro rfl trivial

theorem parse_printValue_member : ∃ text : TText,
    printValue integers true 0 (.object [(cStr (lit "type"), .number 4 4)]) = some text.units ∧
      parse integers text = .ok (.object [(cStr (lit "type"), .number 4 4)]) :=
  parse_printValue integers_exact integers_prints whole_member true 0

/-! ## 6. What the parser accepts -/

end VerifyServer.Protocol
