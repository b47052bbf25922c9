import VerifyServer.Protocol.JsonPrint

/-!
# JsonBuffered — `cJSON_PrintBuffered`

With a buffer the text is written piece by piece into one block, which is exchanged for a larger one
when it is full.  The block is taken as its cells, some of them not written yet.  Without a result a
write would leave the block, or what was not written would be read.  Lengths and offsets are numbers
here, `int`s in the source: the two are the same as long as none gets to 2³¹.
-/

open VerifyServer.Reasoning

namespace VerifyServer.Protocol

/-! ## 1. The buffer -/

/-- `printbuffer`; its `length` is that of `cells`. -/
structure PrintBuffer where
  cells : List (Option UInt16)
  offset : Nat

def pow2gt (x : Nat) : Nat :=
  let x := x - 1
  let x := x ||| x >>> 1
  let x := x ||| x >>> 2
  let x := x ||| x >>> 4
  let x := x ||| x >>> 8
  let x := x ||| x >>> 16
  x + 1

namespace PrintBuffer

def ensure (p : PrintBuffer) (needed : Nat) : PrintBuffer :=
  if p.offset + needed ≤ p.cells.length then p
  else
    let newsize := pow2gt (p.offset + needed)
    { p with cells := p.cells ++ List.replicate (newsize - p.cells.length) none }

def update (p : PrintBuffer) : Option PrintBuffer := do
  let len ← Block.unitsBefore 0 (p.cells.drop p.offset)
  return { p with offset := p.offset + len }

/-- `needed` cells are asked for, `units` written to them, and `offset` is moved on by `len`. -/
def emit (needed : Nat) (units : List UInt16) (len : Nat) (p : PrintBuffer) :
    Option PrintBuffer := do
  let p := p.ensure needed
  let cells ← Block.poke p.cells p.offset units
  return ⟨cells, p.offset + len⟩

def emitIf (c : Bool) (needed : Nat) (units : List UInt16) (len : Nat) (p : PrintBuffer) :
    Option PrintBuffer :=
  if c then emit needed units len p else some p

end PrintBuffer

/-! ## 2. The functions with a buffer -/

open PrintBuffer

/-- `print_string_ptr`. -/
def printStringPtrTo (str : TText) : PrintBuffer → Option PrintBuffer :=
  if str.units.any isFlagged then
    emit ((str.units.map unitLen).sum + 3)
      (quoteMark :: (str.units.flatMap escape ++ [quoteMark, 0])) 0
  else emit (str.units.length + 3) (quoteMark :: (str.units ++ [quoteMark, 0])) 0

variable {D : Type} (A : Doubles D) (fmt : Bool)

mutual

/-- `print_value`, `print_number`, `print_array` and `print_object`. -/
def printValueTo (depth : Nat) : JsonTree D → PrintBuffer → Option PrintBuffer
  | .null, p => emit 5 (lit "null" ++ [0]) 0 p
  | .false, p => emit 6 (lit "false" ++ [0]) 0 p
  | .true, p => emit 5 (lit "true" ++ [0]) 0 p
  | .number valueint d, p =>
    emit (numberText A valueint d).2 ((numberText A valueint d).1 ++ [0]) 0 p
  | .string s, p => printStringPtrTo s p
  | .array child, p =>
    if child.isEmpty then emit 3 (lit "[]" ++ [0]) 0 p
    else do
      let p ← emit 1 [openBracket] 1 p
      let p ← printElementsTo (depth + 1) child p
      emit 2 [closeBracket, 0] 0 p
  | .object child, p =>
    if child.isEmpty then
      emit (if fmt then depth + 4 else 3)
        (openBrace :: ((if fmt then newline :: tabs (depth - 1) else []) ++ [closeBrace, 0])) 0 p
    else do
      let len := if fmt then 2 else 1
      let p ← emit (len + 1) (openBrace :: ((if fmt then [newline] else []) ++ [0])) len p
      -- `depth++`
      let p ← printMembersTo (depth + 1) child p
      emit (if fmt then depth + 1 + 1 else 2)
        ((if fmt then tabs (depth + 1 - 1) else []) ++ [closeBrace, 0]) 0 p

/-- The loop over the children of an array. -/
def printElementsTo (depth : Nat) : List (JsonTree D) → PrintBuffer → Option PrintBuffer
  | [], p => some p
  | child :: more, p => do
    let p ← printValueTo depth child p
    let p ← p.update
    let len := if fmt then 2 else 1
    let p ← emitIf (!more.isEmpty) (len + 1)
      ((if fmt then [comma, blank] else [comma]) ++ [0]) len p
    printElementsTo depth more p

/-- The loop over the children of an object. -/
def printMembersTo (depth : Nat) :
    List (TText × JsonTree D) → PrintBuffer → Option PrintBuffer
  | [], p => some p
  | (string, child) :: more, p => do
    let p ← emitIf fmt depth (tabs depth) depth p
    let p ← printStringPtrTo string p
    let p ← p.update
    let len := if fmt then 2 else 1
    let p ← emit len (colon :: if fmt then [tab] else []) len p
    let p ← printValueTo depth child p
    let p ← p.update
    let len := (if fmt then 1 else 0) + if more.isEmpty then 0 else 1
    let p ← emit (len + 1)
      ((if more.isEmpty then [] else [comma]) ++ ((if fmt then [newline] else []) ++ [0])) len p
    printMembersTo depth more p

end

/-- `cJSON_PrintBuffered`, with the block whose front it returns. -/
def printBuffered (item : JsonTree D) (prebuffer : Nat) : Option (List (Option UInt16)) :=
  PrintBuffer.cells <$> printValueTo A fmt 0 item ⟨List.replicate prebuffer none, 0⟩

/-! ## 3. Pieces -/

theorem le_pow2gt (x : Nat) : x ≤ pow2gt x := by
  have hor : ∀ a s : Nat, a ≤ a ||| a >>> s := fun a s => Nat.left_le_or
  have hle := (hor (x - 1) 1).trans ((hor _ 2).trans ((hor _ 4).trans ((hor _ 8).trans (hor _ 16))))
  rw [pow2gt]
  omega

namespace PrintBuffer

/-- The buffer holds the text up to its offset. -/
def Holds (p : PrintBuffer) (text : List UInt16) : Prop :=
  p.offset = text.length ∧ ∃ tail, p.cells = text.map some ++ tail

/-- The text is written to its end, from the offset on without a NUL. -/
def Written (p : PrintBuffer) (text : List UInt16) : Prop :=
  ∃ done rest tail, text = done ++ rest ∧ p.offset = done.length ∧ 0 ∉ rest ∧
    p.cells = text.map some ++ some 0 :: tail

variable {p : PrintBuffer} {text : List UInt16}

theorem Holds.ensure (h : p.Holds text) (needed : Nat) : (p.ensure needed).Holds text ∧
    text.length + needed ≤ (p.ensure needed).cells.length := by
  have ⟨hoffset, tail, htail⟩ := h
  rw [PrintBuffer.ensure]
  split
  · next hroom => exact ⟨h, hoffset ▸ hroom⟩
  · have hsize := le_pow2gt (p.offset + needed)
    refine ⟨⟨hoffset, tail ++ List.replicate (pow2gt (p.offset + needed) - p.cells.length) none,
      ?_⟩, ?_⟩
    · change p.cells ++ _ = _
      rw [htail, List.append_assoc]
    · change _ ≤ (p.cells ++ List.replicate _ none).length
      rw [List.length_append, List.length_replicate]
      omega

/-- A piece that fits is written behind the text, and the offset stands anywhere in it. -/
theorem Holds.emit (h : p.Holds text) {needed : Nat} (len : Nat) {units : List UInt16}
    (hfit : units.length ≤ needed) : ∃ p' tail, PrintBuffer.emit needed units len p = some p' ∧
      p'.offset = text.length + len ∧ p'.cells = (text ++ units).map some ++ tail := by
  have ⟨⟨hoffset, tail, htail⟩, hroom⟩ := h.ensure needed
  rw [htail, List.length_append, List.length_map] at hroom
  have hpoke := Block.poke_behind text units tail (by omega)
  refine ⟨⟨_, (p.ensure needed).offset + len⟩, tail.drop units.length, ?_, ?_, rfl⟩
  · rw [PrintBuffer.emit, htail, hoffset, hpoke]
    rfl
  · change (p.ensure needed).offset + len = _
    rw [hoffset]

/-- A piece that is passed, with or without a NUL behind it. -/
theorem Holds.emit_passed (h : p.Holds text) (needed : Nat) {len : Nat} (units more : List UInt16)
    (hlen : units.length = len) (hfit : (units ++ more).length ≤ needed) :
    ∃ p', PrintBuffer.emit needed (units ++ more) len p = some p' ∧ p'.Holds (text ++ units) := by
  have ⟨p', tail, hemit, hoffset, hcells⟩ := h.emit len hfit
  refine ⟨p', hemit, ?_, more.map some ++ tail, ?_⟩
  · rw [hoffset, List.length_append, hlen]
  · rw [hcells, ← List.append_assoc, List.map_append, List.append_assoc]

/-- A piece that is left for `update`. -/
theorem Holds.emit_left (h : p.Holds text) {needed : Nat} {units : List UInt16}
    (hnul : 0 ∉ units) (hfit : units.length < needed) :
    ∃ p', PrintBuffer.emit needed (units ++ [0]) 0 p = some p' ∧ p'.Written (text ++ units) := by
  have hlength : (units ++ [0]).length ≤ needed := by
    rw [List.length_append, List.length_singleton]
    exact hfit
  have ⟨p', tail, hemit, hoffset, hcells⟩ := h.emit 0 hlength
  refine ⟨p', hemit, text, units, tail, rfl, hoffset, hnul, ?_⟩
  rw [hcells, ← List.append_assoc, List.map_append, List.append_assoc]
  rfl

theorem Written.update (h : p.Written text) : ∃ p', p.update = some p' ∧ p'.Holds text := by
  have ⟨done, rest, tail, htext, hoffset, hnul, hcells⟩ := h
  have hdrop : p.cells.drop p.offset = rest.map some ++ some 0 :: tail := by
    rw [hcells, htext, hoffset, List.map_append, List.append_assoc]
    have hlength : (done.map some).length = done.length := List.length_map some
    rw [← hlength, List.drop_left]
  refine ⟨{ p with offset := p.offset + rest.length }, ?_, ?_, some 0 :: tail, hcells⟩
  · rw [PrintBuffer.update, hdrop, Block.unitsBefore_eq hnul]
    rfl
  · change p.offset + rest.length = _
    rw [hoffset, htext, List.length_append]

end PrintBuffer

/-! ## 4. The text of the buffer is that of the plain functions -/

variable {A fmt} {p : PrintBuffer} {text : List UInt16}

theorem printStringPtrTo_written (h : p.Holds text) (str : TText) :
    ∃ p', printStringPtrTo str p = some p' ∧ p'.Written (text ++ renderString str) := by
  have hnul := zero_not_mem_renderString str
  have hsplit : quoteMark :: (str.units.flatMap escape ++ [quoteMark, 0]) =
      renderString str ++ [0] := by
    rw [renderString, List.cons_append, List.append_assoc]
    rfl
  rw [printStringPtrTo]
  cases hflag : str.units.any isFlagged with
  | true =>
    have hlength := length_flatMap_escape_le str.units
    rw [if_pos rfl, hsplit]
    refine h.emit_left hnul ?_
    rw [renderString, List.length_cons, List.length_append, List.length_singleton]
    omega
  | false =>
    rw [if_neg Bool.false_ne_true]
    rw [flatMap_escape_of_plain hflag] at hsplit
    rw [hsplit]
    refine h.emit_left hnul ?_
    rw [renderString, flatMap_escape_of_plain hflag, List.length_cons, List.length_append,
      List.length_singleton]
    omega

theorem emit_tabs (fmt : Bool) (h : p.Holds text) (depth : Nat) :
    ∃ p', emitIf fmt depth (tabs depth) depth p = some p' ∧
      p'.Holds (text ++ if fmt then tabs depth else []) := by
  cases fmt with
  | true =>
    have ⟨p', hemit, h'⟩ := h.emit_passed depth (tabs depth) [] (length_tabs depth)
      (Nat.le_of_eq (by rw [List.append_nil, length_tabs]))
    rw [List.append_nil] at hemit
    exact ⟨p', hemit, h'⟩
  | false => exact ⟨p, rfl, (List.append_nil text).symm ▸ h⟩

mutual

theorem printValueTo_written (hprints : A.Prints) (depth : Nat) :
    ∀ (v : JsonTree D) {p : PrintBuffer} {text : List UInt16}, p.Holds text →
      ∃ p', printValueTo A fmt depth v p = some p' ∧
        p'.Written (text ++ render A fmt depth v)
  | .null, p, text, h => h.emit_left (by decide) (by decide)
  | .false, p, text, h => h.emit_left (by decide) (by decide)
  | .true, p, text, h => h.emit_left (by decide) (by decide)
  | .number i d, p, text, h =>
    h.emit_left (zero_not_mem_numberText hprints i d) (length_numberText_lt hprints i d)
  | .string s, p, text, h => printStringPtrTo_written h s
  | .array [], p, text, h => h.emit_left (by decide) (by decide)
  | .array (v :: vs), p, text, h => by
    have hone : [openBracket].length = 1 := rfl
    have ⟨p₁, hopen, h₁⟩ := h.emit_passed 1 [openBracket] [] hone (Nat.le_refl 1)
    have ⟨p₂, hloop, h₂⟩ := printElementsTo_holds hprints (depth + 1) (v :: vs) h₁
    have hclosing : 0 ∉ [closeBracket] := by decide
    have ⟨p₃, hclose, h₃⟩ := h₂.emit_left hclosing (Nat.le_refl 2)
    -- the three writes of `print_array`, the bracket, the elements and the closing bracket
    have hdo : printValueTo A fmt depth (.array (v :: vs)) p = (do
        let p ← emit 1 ([openBracket] ++ []) 1 p
        let p ← printElementsTo A fmt (depth + 1) (v :: vs) p
        emit 2 ([closeBracket] ++ [0]) 0 p) := rfl
    rw [List.append_assoc, List.append_assoc] at h₃
    refine ⟨p₃, ?_, h₃⟩
    rw [hdo, hopen]
    change (printElementsTo A fmt (depth + 1) (v :: vs) p₁ >>= _) = _
    rw [hloop]
    exact hclose
  | .object [], p, text, h => by
    -- an empty object is written at once, and fits what `ensure` is asked for
    have hempty : 0 ∉ (if fmt then newline :: tabs (depth - 1) else []) ++ [closeBrace] := by
      have hblanks : Layout fmt (if fmt then newline :: tabs (depth - 1) else []) :=
        layout_ite (blanks_tabs (depth - 1))
      rw [List.mem_append, not_or]
      exact ⟨zero_not_mem_blanks hblanks.blanks, by decide⟩
    have hnul : 0 ∉ openBrace :: ((if fmt then newline :: tabs (depth - 1) else []) ++
        [closeBrace]) := by
      rw [List.mem_cons, not_or]
      exact ⟨by decide, hempty⟩
    have hfit : (openBrace :: ((if fmt then newline :: tabs (depth - 1) else []) ++
        [closeBrace])).length < if fmt then depth + 4 else 3 := by
      cases fmt with
      | true =>
        simp only [if_true, List.length_cons, List.length_append, length_tabs, List.length_nil]
        omega
      | false => exact (by decide : 2 < 3)
    have ⟨p', hemit, h'⟩ := h.emit_left hnul hfit
    rw [List.cons_append, List.append_assoc] at hemit
    exact ⟨p', hemit, h'⟩
  | .object (m :: ms), p, text, h => by
    have hnewline : (openBrace :: if fmt then [newline] else []).length =
        if fmt then 2 else 1 := by
      cases fmt <;> rfl
    have ⟨p₁, hopen, h₁⟩ := h.emit_passed ((if fmt then 2 else 1) + 1)
      (openBrace :: if fmt then [newline] else []) [0] hnewline
      (Nat.le_of_eq (by rw [List.length_append, hnewline, List.length_singleton]))
    have ⟨p₂, hloop, h₂⟩ := printMembersTo_holds hprints (depth + 1) (m :: ms) h₁
    have htabs : 0 ∉ (if fmt then tabs depth else []) ++ [closeBrace] := by
      rw [List.mem_append, not_or]
      exact ⟨zero_not_mem_blanks (layout_tabs depth).blanks, by decide⟩
    have hfit : ((if fmt then tabs depth else []) ++ [closeBrace]).length <
        if fmt then depth + 1 + 1 else 2 := by
      cases fmt with
      | true =>
        rw [if_pos rfl, List.length_append, length_tabs]
        exact Nat.lt_succ_self _
      | false => exact (by decide : 1 < 2)
    have ⟨p₃, hclose, h₃⟩ := h₂.emit_left htabs hfit
    have hdo : printValueTo A fmt depth (.object (m :: ms)) p = (do
        let p ← emit ((if fmt then 2 else 1) + 1)
          ((openBrace :: if fmt then [newline] else []) ++ [0]) (if fmt then 2 else 1) p
        let p ← printMembersTo A fmt (depth + 1) (m :: ms) p
        emit (if fmt then depth + 1 + 1 else 2)
          ((if fmt then tabs depth else []) ++ ([closeBrace] ++ [0])) 0 p) := rfl
    have hrender : render A fmt depth (.object (m :: ms)) =
        (openBrace :: if fmt then [newline] else []) ++
          ((objectPieces fmt (depth + 1) (renderMembers A fmt (depth + 1) (m :: ms))).flatten ++
            ((if fmt then tabs depth else []) ++ [closeBrace])) := by
      rw [render_object]
      rfl
    rw [List.append_assoc, List.append_assoc, ← hrender] at h₃
    refine ⟨p₃, ?_, h₃⟩
    rw [hdo, hopen]
    change (printMembersTo A fmt (depth + 1) (m :: ms) p₁ >>= _) = _
    rw [hloop]
    rw [List.append_assoc] at hclose
    exact hclose

theorem printElementsTo_holds (hprints : A.Prints) (depth : Nat) :
    ∀ (vs : List (JsonTree D)) {p : PrintBuffer} {text : List UInt16}, p.Holds text →
      ∃ p', printElementsTo A fmt depth vs p = some p' ∧
        p'.Holds (text ++ (arrayPieces fmt (renderElements A fmt depth vs)).flatten)
  | [], p, text, h => ⟨p, rfl, (List.append_nil text).symm ▸ h⟩
  | [v], p, text, h => by
    have ⟨p₁, hvalue, h₁⟩ := printValueTo_written hprints depth v h
    have ⟨p₂, hupdate, h₂⟩ := h₁.update
    have hpieces : (arrayPieces fmt (renderElements A fmt depth [v])).flatten =
        render A fmt depth v := by
      change render A fmt depth v ++ [] = _
      rw [List.append_nil]
    refine ⟨p₂, ?_, hpieces ▸ h₂⟩
    rw [printElementsTo, hvalue]
    change (p₁.update >>= _) = _
    rw [hupdate]
    rfl
  | v :: v' :: vs, p, text, h => by
    have ⟨p₁, hvalue, h₁⟩ := printValueTo_written hprints depth v h
    have ⟨p₂, hupdate, h₂⟩ := h₁.update
    have hcomma : (if fmt then [comma, blank] else [comma]).length = if fmt then 2 else 1 := by
      cases fmt <;> rfl
    have ⟨p₃, hemit, h₃⟩ := h₂.emit_passed ((if fmt then 2 else 1) + 1)
      (if fmt then [comma, blank] else [comma]) [0] hcomma
      (Nat.le_of_eq (by rw [List.length_append, hcomma, List.length_singleton]))
    have ⟨p₄, hloop, h₄⟩ := printElementsTo_holds hprints depth (v' :: vs) h₃
    rw [List.append_assoc, List.append_assoc] at h₄
    refine ⟨p₄, ?_, h₄⟩
    rw [printElementsTo, hvalue]
    change (p₁.update >>= _) = _
    rw [hupdate]
    change (emit _ _ _ p₂ >>= _) = _
    rw [hemit]
    exact hloop

theorem printMembersTo_holds (hprints : A.Prints) (depth : Nat) :
    ∀ (ms : List (TText × JsonTree D)) {p : PrintBuffer} {text : List UInt16}, p.Holds text →
      ∃ p', printMembersTo A fmt depth ms p = some p' ∧
        p'.Holds (text ++ (objectPieces fmt depth (renderMembers A fmt depth ms)).flatten)
  | [], p, text, h => ⟨p, rfl, (List.append_nil text).symm ▸ h⟩
  | (string, v) :: ms, p, text, h => by
    have ⟨p₁, htabs, h₁⟩ := emit_tabs fmt h depth
    have ⟨p₂, hname, h₂⟩ := printStringPtrTo_written h₁ string
    have ⟨p₃, hupdate, h₃⟩ := h₂.update
    have hcolon : (colon :: if fmt then [tab] else []).length = if fmt then 2 else 1 := by
      cases fmt <;> rfl
    have ⟨p₄, hemit, h₄⟩ := h₃.emit_passed (if fmt then 2 else 1)
      (colon :: if fmt then [tab] else []) [] hcolon
      (Nat.le_of_eq (by rw [List.append_nil, hcolon]))
    have ⟨p₅, hvalue, h₅⟩ := printValueTo_written hprints depth v h₄
    have ⟨p₆, hupdate', h₆⟩ := h₅.update
    have hend : ((if ms.isEmpty then [] else [comma]) ++ if fmt then [newline] else []).length =
        (if fmt then 1 else 0) + if ms.isEmpty then 0 else 1 := by
      cases fmt <;> cases ms <;> rfl
    have ⟨p₇, hline, h₇⟩ := h₆.emit_passed
      ((if fmt then 1 else 0) + (if ms.isEmpty then 0 else 1) + 1)
      ((if ms.isEmpty then [] else [comma]) ++ if fmt then [newline] else []) [0] hend
      (Nat.le_of_eq (by rw [List.length_append, hend, List.length_singleton]))
    have ⟨p₈, hloop, h₈⟩ := printMembersTo_holds hprints depth ms h₇
    have hcomma : (if ms.isEmpty then [] else [comma]) =
        if renderMembers A fmt depth ms = [] then [] else [comma] := by
      cases ms with
      | nil => rfl
      | cons m ms =>
        rw [if_neg (renderMembers_ne_nil depth m ms)]
        rfl
    refine ⟨p₈, ?_, ?_⟩
    · rw [printMembersTo, htabs]
      change (printStringPtrTo string p₁ >>= _) = _
      rw [hname]
      change (p₂.update >>= _) = _
      rw [hupdate]
      rw [List.append_nil] at hemit
      change (emit _ _ _ p₃ >>= _) = _
      rw [hemit]
      change (printValueTo A fmt depth v p₄ >>= _) = _
      rw [hvalue]
      change (p₅.update >>= _) = _
      rw [hupdate']
      rw [List.append_assoc] at hline
      change (emit _ _ _ p₆ >>= _) = _
      rw [hline]
      exact hloop
    · rw [renderMembers, flatten_objectPieces_cons, ← hcomma]
      simpa only [List.append_assoc, List.cons_append] using h₈

end

/-- `cJSON_PrintBuffered` writes what the functions without a buffer write, for every size of the
first block. -/
theorem printBuffered_eq (hprints : A.Prints) (item : JsonTree D) (prebuffer : Nat) :
    ∃ text tail, printValue A fmt 0 item = some text ∧
      printBuffered A fmt item prebuffer = some (text.map some ++ some 0 :: tail) := by
  have hstart : PrintBuffer.Holds ⟨List.replicate prebuffer none, 0⟩ [] := ⟨rfl, _, rfl⟩
  have ⟨p, hprint, done, rest, tail, htext, hoffset, hnul, hcells⟩ :=
    @printValueTo_written _ _ fmt hprints 0 item _ _ hstart
  refine ⟨_, tail, printValue_eq hprints 0 item, ?_⟩
  rw [printBuffered, hprint]
  exact congrArg some hcells

theorem printBuffered_eq_true : ∃ text tail,
    printValue integers true 0 (.array [.true]) = some text ∧
      printBuffered integers true (.array [.true]) 0 = some (text.map some ++ some 0 :: tail) :=
  printBuffered_eq integers_prints (.array [.true]) 0

end VerifyServer.Protocol
