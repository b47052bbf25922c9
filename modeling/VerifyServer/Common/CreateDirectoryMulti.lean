import Mathlib

/-!
# CreateDirectoryMulti — the directories of a path, made one after another

`CreateDirectoryMulti` writes a NUL over each separator of the caller's buffer, looks at the path up
to there, makes the directory if nothing has that name, and puts a backslash where the NUL is.  A
file system says what each entry is; which entry a path names, and in which other it lies, is a
parameter, so that relative paths, drives and network paths are whatever the system takes them for.
-/

namespace VerifyServer.Common.Directories

/-! ## 1. The system -/

/-- The text in a buffer of `TCHAR`s, without the NUL at its end. -/
abbrev Text := List UInt16

def backslash : UInt16 := 0x5C

def slash : UInt16 := 0x2F

def isSeparator (c : UInt16) : Bool := c = backslash || c = slash

inductive Kind where
  | file
  | directory
  deriving DecidableEq, Repr

abbrev FileSystem (Node : Type*) := Node → Option Kind

/-- What paths mean: `C:` and `C:\` may name two entries.  The empty path names nothing.  `isRoot`
are the paths that keep their backslash in `PathRemoveBackslash`, `room` the lengths
`PathAddBackslash` can add to. -/
structure Paths (Node : Type*) where
  resolve : Text → Option Node
  parent : Node → Option Node
  isRoot : Text → Bool
  room : Nat → Bool
  resolve_nil : resolve [] = none

variable {Node : Type*} [DecidableEq Node]

/-- `GetFileAttributes`; none is `0xFFFFFFFF`.  With a backslash at its end, a path does not find a
file. -/
def getFileAttributes (paths : Paths Node) (fs : FileSystem Node) (path : Text) : Option Kind :=
  (paths.resolve path).bind fun n =>
    (fs n).filter fun k => k = .directory || path.getLast? ≠ some backslash

def pathFileExists (paths : Paths Node) (fs : FileSystem Node) (path : Text) : Bool :=
  (getFileAttributes paths fs path).isSome

/-- An entry can be made in a directory, where nothing has its name. -/
def free (paths : Paths Node) (fs : FileSystem Node) (n : Node) : Bool :=
  fs n = none && (paths.parent n).any fun m => fs m = some .directory

/-- `CreateDirectory`. -/
def createDirectory (paths : Paths Node) (fs : FileSystem Node) (path : Text) :
    Option (FileSystem Node) :=
  (paths.resolve path).bind fun n =>
    if free paths fs n then some (Function.update fs n (some .directory)) else none

/-- `PathRemoveBackslash`. -/
def pathRemoveBackslash (paths : Paths Node) (path : Text) : Text :=
  if path.getLast? = some backslash ∧ ¬ paths.isRoot path then path.dropLast else path

/-- `PathAddBackslash`. -/
def pathAddBackslash (paths : Paths Node) (path : Text) : Text :=
  if path.getLast? = some backslash then path
  else if paths.room path.length then path ++ [backslash] else path

/-! ## 2. `CreateDirectoryMulti` -/

/-- What a call returns and leaves. -/
structure Made (Node : Type*) where
  ret : Bool
  fs : FileSystem Node
  buffer : Text

/-- The loop, with `before` the buffer up to `tmp` and the text from `tmp` on. -/
def makeFrom (paths : Paths Node) : Text → Text → FileSystem Node → Made Node
  | before, [], fs => ⟨true, fs, before⟩
  | before, c :: rest, fs =>
    if isSeparator c then
      -- `*tmp` is NUL here, so that `path` reads as `before`
      if getFileAttributes paths fs before ≠ some .directory ∧
          pathFileExists paths fs before = false then
        match createDirectory paths fs before with
        | none => ⟨false, fs, before ++ 0 :: rest⟩
        | some fs => makeFrom paths (before ++ [backslash]) rest fs
      else makeFrom paths (before ++ [backslash]) rest fs
    else makeFrom paths (before ++ [c]) rest fs

/-- The text a buffer holds up to its NUL. -/
def cText (buffer : Text) : Text := buffer.takeWhile (· ≠ 0)

theorem zero_not_mem_cText (buffer : Text) : 0 ∉ cText buffer := by
  intro h
  have hne := List.mem_takeWhile_imp h
  simp at hne

theorem cText_eq_self {text : Text} (h : 0 ∉ text) : cText text = text := by
  apply List.takeWhile_eq_self_iff.mpr
  intro c hc
  apply decide_eq_true
  rintro rfl
  exact h hc

theorem cText_append_zero {text : Text} (h : 0 ∉ text) (rest : Text) :
    cText (text ++ 0 :: rest) = text := by
  have hall : ∀ c ∈ text, decide (c ≠ 0) = true := by
    intro c hc
    apply decide_eq_true
    rintro rfl
    exact h hc
  rw [cText, List.takeWhile_append_of_pos hall, List.takeWhile_cons_of_neg (by decide),
    List.append_nil]

/-- `CreateDirectoryMulti`; a buffer that is none is `NULL`. -/
def createDirectoryMulti (paths : Paths Node) (fs : FileSystem Node) : Option Text → Made Node
  | none => ⟨false, fs, []⟩
  | some buffer =>
    makeFrom paths [] (pathAddBackslash paths (pathRemoveBackslash paths (cText buffer))) fs

theorem makeFrom_nil (paths : Paths Node) (before : Text) (fs : FileSystem Node) :
    makeFrom paths before [] fs = ⟨true, fs, before⟩ := rfl

theorem makeFrom_cons (paths : Paths Node) (before : Text) (c : UInt16) (rest : Text)
    (fs : FileSystem Node) :
    makeFrom paths before (c :: rest) fs =
      if isSeparator c then
        if getFileAttributes paths fs before ≠ some .directory ∧
            pathFileExists paths fs before = false then
          match createDirectory paths fs before with
          | none => ⟨false, fs, before ++ 0 :: rest⟩
          | some fs => makeFrom paths (before ++ [backslash]) rest fs
        else makeFrom paths (before ++ [backslash]) rest fs
      else makeFrom paths (before ++ [c]) rest fs := rfl

/-! ## 3. What it must do -/

def toBackslash (c : UInt16) : UInt16 := if isSeparator c then backslash else c

/-- The separators at the end of a path, and what is in front of them. -/
def tail (path : Text) : Text := path.rtakeWhile isSeparator

def stem (path : Text) : Text := path.rdropWhile isSeparator

/-- The path with backslashes for separators, one of them at its end. -/
def normal (path : Text) : Text := (stem path).map toBackslash ++ [backslash]

/-- The parts of a path in front of its separators, `before` and the text behind it. -/
def prefixesFrom : Text → Text → List Text
  | _, [] => []
  | before, c :: rest =>
    if isSeparator c then before :: prefixesFrom (before ++ [backslash]) rest
    else prefixesFrom (before ++ [c]) rest

def prefixes (path : Text) : List Text := prefixesFrom [] path

/-- The call succeeds exactly if it leaves a directory under every prefix of the path; it removes
nothing, makes nothing else, and leaves the path in the buffer. -/
structure MakesDirectories (paths : Paths Node) (fs : FileSystem Node) (path : Text)
    (r : Made Node) : Prop where
  ret : r.ret = true ↔
    ∀ q ∈ prefixes (normal path), getFileAttributes paths r.fs q = some .directory
  kept : ∀ n k, fs n = some k → r.fs n = some k
  made : ∀ n, fs n = none → r.fs n ≠ none →
    r.fs n = some .directory ∧ ∃ q ∈ prefixes (normal path), paths.resolve q = some n
  buffer : cText r.buffer = normal path

/-- A directory, or an entry named before, or a free entry in one of these. -/
def Nameable (paths : Paths Node) (fs : FileSystem Node) (named : List Node) (n : Node) : Prop :=
  fs n = some .directory ∨ n ∈ named ∨ fs n = none ∧ ∃ m, paths.parent n = some m ∧
    (fs m = some .directory ∨ m ∈ named)

/-- What there must be in the file system: each of the paths, in this order, names a directory, or
an entry named before, or a free entry in one of these.  A file under one of the names is none of
these. -/
def Passable (paths : Paths Node) (fs : FileSystem Node) : List Node → List Text → Prop
  | _, [] => True
  | named, q :: qs => ∃ n, paths.resolve q = some n ∧ Nameable paths fs named n ∧
      Passable paths fs (n :: named) qs

/-- The same with files among them, which the loop passes over; `last` is said of the directories
that were named. -/
def Passes (paths : Paths Node) (fs : FileSystem Node) (last : List Node → Prop) :
    List Node → List Text → Prop
  | named, [] => last named
  | named, q :: qs => ∃ n, paths.resolve q = some n ∧
      (Nameable paths fs named n ∧ Passes paths fs last (n :: named) qs ∨
        fs n = some .file ∧ q.getLast? ≠ some backslash ∧ Passes paths fs last named qs)

/-- What there must be at the end of the path: no separator, one backslash, or two of them.  Slashes
do only where there is no room to add a backslash. -/
def EndsWell (paths : Paths Node) (stem tail : Text) : Prop :=
  tail = [] ∧ paths.room stem.length = true ∨
    tail = [backslash] ∧
      (paths.isRoot (stem ++ tail) = true ∨ paths.room stem.length = true) ∨
    tail = [backslash, backslash] ∧ paths.isRoot (stem ++ tail) = false ∨
    paths.room (stem.length + 1) = false ∧ (tail = [slash] ∨
      tail = [slash, backslash] ∧ paths.isRoot (stem ++ tail) = false)

/-- One more way to do what it must, where a second separator is left at the end: a prefix is a
file, so that the call must fail, and it fails with the whole path in the buffer, since nothing is
found or can be made under it with its backslash. -/
structure FailsBehind (paths : Paths Node) (fs : FileSystem Node) (path : Text) : Prop where
  doubled : 2 ≤ (tail (pathAddBackslash paths (pathRemoveBackslash paths path))).length
  file : ∃ q ∈ prefixes (normal path), ∃ n, paths.resolve q = some n ∧ fs n = some .file
  stuck : Passes paths fs
    (fun named => ∀ n, paths.resolve (normal path) = some n → ¬ Nameable paths fs named n) []
    (prefixes (normal path))

/-! ## 4. The loop -/

variable (paths : Paths Node)

variable {paths}

omit [DecidableEq Node] in
theorem free_iff {fs : FileSystem Node} {n : Node} : free paths fs n = true ↔
    fs n = none ∧ ∃ m, paths.parent n = some m ∧ fs m = some .directory := by
  simp [free, Option.any_eq_true]

omit [DecidableEq Node] in
theorem getFileAttributes_eq_some {fs : FileSystem Node} {path : Text} {k : Kind} :
    getFileAttributes paths fs path = some k ↔ ∃ n, paths.resolve path = some n ∧
      fs n = some k ∧ (k = .directory ∨ path.getLast? ≠ some backslash) := by
  rw [getFileAttributes, Option.bind_eq_some_iff]
  apply exists_congr
  intro n
  rw [Option.filter_eq_some_iff, Bool.or_eq_true, decide_eq_true_iff, decide_eq_true_iff]

omit [DecidableEq Node] in
theorem getFileAttributes_directory {fs : FileSystem Node} {path : Text} :
    getFileAttributes paths fs path = some .directory ↔
      ∃ n, paths.resolve path = some n ∧ fs n = some .directory := by
  rw [getFileAttributes_eq_some]
  apply exists_congr
  intro n
  rw [eq_self, true_or, and_true]

omit [DecidableEq Node] in
theorem ne_of_free {fs : FileSystem Node} {n m : Node} {k : Kind} (h : fs n = some k)
    (hfree : free paths fs m = true) : n ≠ m := by
  rintro rfl
  cases h.symm.trans (free_iff.mp hfree).1

theorem createDirectory_eq_some {fs fs' : FileSystem Node} {path : Text} :
    createDirectory paths fs path = some fs' ↔
      ∃ n, paths.resolve path = some n ∧ free paths fs n = true ∧
        fs' = Function.update fs n (some .directory) := by
  unfold createDirectory
  rw [Option.bind_eq_some_iff]
  apply exists_congr
  intro n
  apply and_congr_right
  intro hn
  split
  · next hfree => simp [hfree, eq_comm]
  · next hfree => simp [hfree]

variable (paths)

/-- What the body of the loop does at a separator: the path up to there exists, or it is made, or
the call ends. -/
theorem makeFrom_separator {c : UInt16} (hsep : isSeparator c = true) (before rest : Text)
    (fs : FileSystem Node) :
    (∃ k, getFileAttributes paths fs before = some k ∧
      makeFrom paths before (c :: rest) fs = makeFrom paths (before ++ [backslash]) rest fs) ∨
    (∃ n, paths.resolve before = some n ∧ free paths fs n = true ∧
      makeFrom paths before (c :: rest) fs = makeFrom paths (before ++ [backslash]) rest
        (Function.update fs n (some .directory))) ∨
    (getFileAttributes paths fs before = none ∧ createDirectory paths fs before = none ∧
      makeFrom paths before (c :: rest) fs = ⟨false, fs, before ++ 0 :: rest⟩) := by
  rw [makeFrom_cons, if_pos hsep]
  cases hattr : getFileAttributes paths fs before with
  | some k =>
    left
    have hexists : pathFileExists paths fs before = true := by rw [pathFileExists, hattr]; rfl
    rw [if_neg (by rw [hexists]; exact fun h => nomatch h.2)]
    exact ⟨k, rfl, rfl⟩
  | none =>
    right
    have hexists : pathFileExists paths fs before = false := by rw [pathFileExists, hattr]; rfl
    rw [if_pos ⟨nofun, hexists⟩]
    cases hcreate : createDirectory paths fs before with
    | none => exact .inr ⟨rfl, rfl, rfl⟩
    | some fs' =>
      have ⟨n, hn, hfree, hfs⟩ := createDirectory_eq_some.mp hcreate
      exact .inl ⟨n, hn, hfree, by rw [hfs]⟩

theorem makeFrom_other {c : UInt16} (hsep : isSeparator c = false) (before rest : Text)
    (fs : FileSystem Node) :
    makeFrom paths before (c :: rest) fs = makeFrom paths (before ++ [c]) rest fs := by
  rw [makeFrom_cons, hsep]
  rfl

/-- No entry is removed or changed. -/
theorem makeFrom_kept (before rest : Text) {fs : FileSystem Node} {n : Node} {k : Kind}
    (h : fs n = some k) : (makeFrom paths before rest fs).fs n = some k := by
  induction rest generalizing before fs with
  | nil => exact h
  | cons c rest ih =>
    cases hsep : isSeparator c with
    | false =>
      rw [makeFrom_other paths hsep]
      exact ih _ h
    | true =>
      rcases makeFrom_separator paths hsep before rest fs with
        ⟨_, _, heq⟩ | ⟨m, _, hfree, heq⟩ | ⟨_, _, heq⟩
      · rw [heq]
        exact ih _ h
      · rw [heq]
        exact ih _ (by rw [Function.update_of_ne (ne_of_free h hfree), h])
      · rw [heq]
        exact h

/-- What is made is a directory, under one of the prefixes. -/
theorem makeFrom_made (before rest : Text) {fs : FileSystem Node} {n : Node} (hnone : fs n = none)
    (h : (makeFrom paths before rest fs).fs n ≠ none) :
    (makeFrom paths before rest fs).fs n = some .directory ∧
      ∃ q ∈ prefixesFrom before rest, paths.resolve q = some n := by
  induction rest generalizing before fs with
  | nil => exact absurd hnone h
  | cons c rest ih =>
    rw [prefixesFrom]
    cases hsep : isSeparator c with
    | false =>
      rw [makeFrom_other paths hsep] at h ⊢
      exact ih _ hnone h
    | true =>
      rcases makeFrom_separator paths hsep before rest fs with
        ⟨_, _, heq⟩ | ⟨m, hm, _, heq⟩ | ⟨_, _, heq⟩
      · rw [heq] at h ⊢
        have ⟨hdir, q, hq, hres⟩ := ih _ hnone h
        exact ⟨hdir, q, List.mem_cons_of_mem _ hq, hres⟩
      · rw [heq] at h ⊢
        by_cases hnm : n = m
        · rw [hnm]
          constructor
          · exact makeFrom_kept paths _ _ (Function.update_self ..)
          · exact ⟨before, List.mem_cons_self, hm⟩
        · have ⟨hdir, q, hq, hres⟩ := ih _ (by rw [Function.update_of_ne hnm, hnone]) h
          exact ⟨hdir, q, List.mem_cons_of_mem _ hq, hres⟩
      · rw [heq] at h
        exact absurd hnone h

/-- A call that succeeds leaves the path with its separators turned into backslashes. -/
theorem makeFrom_true (before rest : Text) {fs : FileSystem Node}
    (h : (makeFrom paths before rest fs).ret = true) :
    (makeFrom paths before rest fs).buffer = before ++ rest.map toBackslash := by
  induction rest generalizing before fs with
  | nil => exact (List.append_nil before).symm
  | cons c rest ih =>
    rw [List.map_cons]
    cases hsep : isSeparator c with
    | false =>
      rw [makeFrom_other paths hsep] at h ⊢
      rw [ih _ h, List.append_assoc, toBackslash, if_neg (by rw [hsep]; decide)]
      rfl
    | true =>
      rw [toBackslash, if_pos hsep]
      rcases makeFrom_separator paths hsep before rest fs with
        ⟨_, _, heq⟩ | ⟨m, _, _, heq⟩ | ⟨_, _, heq⟩
      · rw [heq] at h ⊢
        rw [ih _ h, List.append_assoc]
        rfl
      · rw [heq] at h ⊢
        rw [ih _ h, List.append_assoc]
        rfl
      · rw [heq] at h
        cases h

theorem zero_not_mem_step {before rest : Text} {c d : UInt16} (hd : d = c ∨ d = backslash)
    (hzero : 0 ∉ before ++ c :: rest) : 0 ∉ before ++ [d] ++ rest := by
  intro h
  rw [List.append_assoc, List.mem_append, List.singleton_append, List.mem_cons] at h
  rw [List.mem_append, List.mem_cons] at hzero
  rcases h with hb | h0 | hr
  · exact hzero (.inl hb)
  · rcases hd with rfl | rfl
    · exact hzero (.inr (.inl h0))
    · cases h0
  · exact hzero (.inr (.inr hr))

/-- What the loop has left behind stays in the buffer. -/
theorem length_le_makeFrom (before rest : Text) (fs : FileSystem Node)
    (hzero : 0 ∉ before ++ rest) :
    before.length ≤ (cText (makeFrom paths before rest fs).buffer).length := by
  induction rest generalizing before fs with
  | nil =>
    rw [List.append_nil] at hzero
    rw [makeFrom_nil, cText_eq_self hzero]
  | cons c rest ih =>
    have hlong (d : UInt16) : before.length ≤ (before ++ [d]).length := by
      rw [List.length_append]
      omega
    cases hsep : isSeparator c with
    | false =>
      rw [makeFrom_other paths hsep]
      exact (hlong c).trans (ih _ fs (zero_not_mem_step (.inl rfl) hzero))
    | true =>
      have hnext := zero_not_mem_step (.inr rfl) hzero
      rcases makeFrom_separator paths hsep before rest fs with
        ⟨_, _, heq⟩ | ⟨_, _, _, heq⟩ | ⟨_, _, heq⟩
      · rw [heq]
        exact (hlong backslash).trans (ih _ _ hnext)
      · rw [heq]
        exact (hlong backslash).trans (ih _ _ hnext)
      · rw [heq, cText_append_zero fun h => hzero (List.mem_append_left _ h)]

/-- A call that fails in the first part of a text leaves a shorter text in the buffer. -/
theorem makeFrom_append_false (before rest behind : Text) {fs : FileSystem Node}
    (hzero : 0 ∉ before ++ (rest ++ behind)) (h : (makeFrom paths before rest fs).ret = false) :
    (cText (makeFrom paths before (rest ++ behind) fs).buffer).length <
      (before ++ rest).length := by
  induction rest generalizing before fs with
  | nil => cases h
  | cons c rest ih =>
    have hlength (d : UInt16) : (before ++ [d] ++ rest).length = (before ++ c :: rest).length := by
      simp only [List.length_append, List.length_cons, List.length_nil]
      omega
    rw [List.cons_append] at hzero ⊢
    cases hsep : isSeparator c with
    | false =>
      rw [makeFrom_other paths hsep] at h ⊢
      rw [← hlength c]
      exact ih _ (zero_not_mem_step (.inl rfl) hzero) h
    | true =>
      have hnext := zero_not_mem_step (.inr rfl) hzero
      rw [makeFrom_cons, if_pos hsep] at h ⊢
      split
      · next hnone =>
        rw [if_pos hnone] at h
        cases hcreate : createDirectory paths fs before with
        | none =>
          rw [cText_append_zero fun h => hzero (List.mem_append_left _ h), List.length_append,
            List.length_cons]
          omega
        | some fs' =>
          rw [hcreate] at h
          rw [← hlength backslash]
          exact ih _ hnext h
      · next hsome =>
        rw [if_neg hsome] at h
        rw [← hlength backslash]
        exact ih _ hnext h

/-- A call that gets through the first part of a text goes on with the rest. -/
theorem makeFrom_append_true (before rest behind : Text) {fs : FileSystem Node}
    (h : (makeFrom paths before rest fs).ret = true) :
    makeFrom paths before (rest ++ behind) fs =
      makeFrom paths (before ++ rest.map toBackslash) behind
        (makeFrom paths before rest fs).fs := by
  induction rest generalizing before fs with
  | nil => rw [List.nil_append, List.map_nil, List.append_nil, makeFrom_nil]
  | cons c rest ih =>
    rw [List.cons_append, List.map_cons]
    have happend (d : UInt16) :
        before ++ d :: rest.map toBackslash = before ++ [d] ++ rest.map toBackslash := by
      rw [List.append_assoc, List.singleton_append]
    cases hsep : isSeparator c with
    | false =>
      rw [makeFrom_other paths hsep] at h ⊢
      rw [makeFrom_other paths hsep, ih _ h, toBackslash, if_neg (by rw [hsep]; decide), happend]
    | true =>
      rw [toBackslash, if_pos hsep, happend]
      rw [makeFrom_cons, if_pos hsep] at h ⊢
      rw [makeFrom_cons, if_pos hsep]
      split
      · next hnone =>
        rw [if_pos hnone] at h
        cases hcreate : createDirectory paths fs before with
        | none =>
          rw [hcreate] at h
          cases h
        | some fs' =>
          rw [hcreate] at h
          exact ih _ h
      · next hsome =>
        rw [if_neg hsome] at h
        exact ih _ h

/-- A call that gets through has found or made something under each prefix. -/
theorem makeFrom_exists (before rest : Text) {fs : FileSystem Node}
    (h : (makeFrom paths before rest fs).ret = true) {q : Text}
    (hq : q ∈ prefixesFrom before rest) :
    ∃ k, getFileAttributes paths (makeFrom paths before rest fs).fs q = some k := by
  induction rest generalizing before fs with
  | nil => exact (List.not_mem_nil hq).elim
  | cons c rest ih =>
    rw [prefixesFrom] at hq
    cases hsep : isSeparator c with
    | false =>
      rw [hsep] at hq
      rw [makeFrom_other paths hsep] at h ⊢
      exact ih _ h hq
    | true =>
      rw [if_pos hsep] at hq
      rcases makeFrom_separator paths hsep before rest fs with
        ⟨k, hk, heq⟩ | ⟨n, hn, _, heq⟩ | ⟨_, _, heq⟩
      · rw [heq] at h ⊢
        rcases List.mem_cons.mp hq with rfl | hq
        · have ⟨n, hn, hnow, hfound⟩ := getFileAttributes_eq_some.mp hk
          exact ⟨k, getFileAttributes_eq_some.mpr ⟨n, hn, makeFrom_kept paths _ _ hnow, hfound⟩⟩
        · exact ih _ h hq
      · rw [heq] at h ⊢
        rcases List.mem_cons.mp hq with rfl | hq
        · exact ⟨.directory, getFileAttributes_directory.mpr
            ⟨n, hn, makeFrom_kept paths _ _ (Function.update_self ..)⟩⟩
        · exact ih _ h hq
      · rw [heq] at h
        cases h

/-! ## 5. The condition on the file system -/

/-- The file system in the loop: the entries named so far are directories, the others as before. -/
structure Named (fs : FileSystem Node) (named : List Node) (now : FileSystem Node) : Prop where
  kept : ∀ n k, fs n = some k → now n = some k
  directory : ∀ n ∈ named, now n = some .directory
  made : ∀ n, fs n = none → now n ≠ none → n ∈ named

omit [DecidableEq Node] in
theorem Named.directory_iff {fs now : FileSystem Node} {named : List Node} (h : Named fs named now)
    (n : Node) : now n = some .directory ↔ fs n = some .directory ∨ n ∈ named := by
  constructor
  · intro hdir
    cases hfs : fs n with
    | none => exact .inr (h.made n hfs (by rw [hdir]; nofun))
    | some k =>
      have hk := h.kept n k hfs
      rw [hdir] at hk
      exact .inl hk.symm
  · rintro (hdir | hmem)
    · exact h.kept n _ hdir
    · exact h.directory n hmem

omit [DecidableEq Node] in
theorem Named.start (fs : FileSystem Node) : Named fs [] fs :=
  ⟨fun _ _ h => h, fun _ h => (List.not_mem_nil h).elim, fun _ h hne => absurd h hne⟩

omit [DecidableEq Node] in
theorem Named.exists {fs now : FileSystem Node} {named : List Node} {n : Node}
    (h : Named fs named now) (hdir : now n = some .directory) : Named fs (n :: named) now where
  kept := h.kept
  directory := by
    intro m hm
    rcases List.mem_cons.mp hm with rfl | hm
    · exact hdir
    · exact h.directory m hm
  made := fun m hm hnow => List.mem_cons_of_mem _ (h.made m hm hnow)

theorem Named.make {fs now : FileSystem Node} {named : List Node} {n : Node}
    (h : Named fs named now) (hnone : now n = none) :
    Named fs (n :: named) (Function.update now n (some .directory)) where
  kept := by
    intro m k hm
    have hk := h.kept m k hm
    have hne : m ≠ n := by
      rintro rfl
      cases hk.symm.trans hnone
    rw [Function.update_of_ne hne, hk]
  directory := by
    intro m hm
    by_cases hmn : m = n
    · rw [hmn, Function.update_self]
    · rw [Function.update_of_ne hmn]
      exact h.directory m ((List.mem_cons.mp hm).resolve_left hmn)
  made := by
    intro m hm hnow
    by_cases hmn : m = n
    · exact hmn ▸ List.mem_cons_self
    · rw [Function.update_of_ne hmn] at hnow
      exact List.mem_cons_of_mem _ (h.made m hm hnow)

omit [DecidableEq Node] in
/-- What must hold of a name in the file system before the call, said of the one in the loop. -/
theorem Named.nameable_iff {fs now : FileSystem Node} {named : List Node} (h : Named fs named now)
    (n : Node) :
    Nameable paths fs named n ↔ now n = some .directory ∨ free paths now n = true := by
  rw [Nameable, free_iff, ← or_assoc, ← h.directory_iff n]
  constructor
  · rintro (hdir | ⟨hnone, m, hm, hparent⟩)
    · exact .inl hdir
    · by_cases hnow : now n = none
      · exact .inr ⟨hnow, m, hm, (h.directory_iff m).mpr hparent⟩
      · exact .inl (h.directory n (h.made n hnone hnow))
  · rintro (hdir | ⟨hnone, m, hm, hparent⟩)
    · exact .inl hdir
    · right
      constructor
      · by_contra hsome
        have ⟨k, hk⟩ := Option.ne_none_iff_exists'.mp hsome
        cases hnone.symm.trans (h.kept n k hk)
      · exact ⟨m, hm, (h.directory_iff m).mp hparent⟩

omit [DecidableEq Node] in
theorem Named.file_iff {fs now : FileSystem Node} {named : List Node} (h : Named fs named now)
    (n : Node) : now n = some .file ↔ fs n = some .file := by
  constructor
  · intro hnow
    cases hfs : fs n with
    | none =>
      have hmem := h.made n hfs (by rw [hnow]; exact Option.some_ne_none _)
      cases hnow.symm.trans (h.directory n hmem)
    | some k => exact (h.kept n k hfs).symm.trans hnow
  · exact h.kept n .file

omit [DecidableEq Node] in
theorem Named.not_nameable {fs now : FileSystem Node} {named : List Node} (h : Named fs named now)
    {n : Node} (hfile : fs n = some .file) : ¬ Nameable paths fs named n := by
  have hnow := (h.file_iff n).mpr hfile
  rw [h.nameable_iff paths]
  rintro (hdir | hfree)
  · cases hnow.symm.trans hdir
  · cases hnow.symm.trans (free_iff.mp hfree).1

/-- A path is neither found nor made, said of the file system before the call. -/
theorem Named.neither_iff {fs now : FileSystem Node} {named : List Node} (h : Named fs named now)
    (q : Text) :
    getFileAttributes paths now q = none ∧ createDirectory paths now q = none ↔
      ∀ n, paths.resolve q = some n → ¬ Nameable paths fs named n ∧
        (fs n = some .file → q.getLast? = some backslash) := by
  constructor
  · rintro ⟨hnone, hcreate⟩ n hn
    constructor
    · intro hname
      rcases (h.nameable_iff paths n).mp hname with hdir | hfree
      · cases hnone.symm.trans (getFileAttributes_directory.mpr ⟨n, hn, hdir⟩)
      · cases hcreate.symm.trans (createDirectory_eq_some.mpr ⟨n, hn, hfree, rfl⟩)
    · intro hfile
      by_contra hfound
      cases hnone.symm.trans (getFileAttributes_eq_some.mpr
        ⟨n, hn, (h.file_iff n).mpr hfile, .inr hfound⟩)
  · intro hneither
    constructor
    · apply Option.eq_none_iff_forall_not_mem.mpr
      intro k hk
      have ⟨n, hn, hnow, hfound⟩ := getFileAttributes_eq_some.mp hk
      have ⟨hname, hfile⟩ := hneither n hn
      cases k with
      | directory => exact hname ((h.nameable_iff paths n).mpr (.inl hnow))
      | file =>
        exact (hfound.resolve_left fun h => by cases h) (hfile ((h.file_iff n).mp hnow))
    · apply Option.eq_none_iff_forall_not_mem.mpr
      intro fs' hfs'
      have ⟨n, hn, hfree, _⟩ := createDirectory_eq_some.mp hfs'
      exact (hneither n hn).1 ((h.nameable_iff paths n).mpr (.inr hfree))

/-- What the body of the loop does at a separator, said of the file system before the call: there is
a directory under the name then, or a file is passed over, or the call ends. -/
theorem Named.at_separator {fs now : FileSystem Node} {named : List Node} (h : Named fs named now)
    {c : UInt16} (hsep : isSeparator c = true) (before rest : Text) :
    (∃ n now', paths.resolve before = some n ∧ Nameable paths fs named n ∧
      Named fs (n :: named) now' ∧
      makeFrom paths before (c :: rest) now = makeFrom paths (before ++ [backslash]) rest now') ∨
    (∃ n, paths.resolve before = some n ∧ fs n = some .file ∧
      before.getLast? ≠ some backslash ∧
      makeFrom paths before (c :: rest) now = makeFrom paths (before ++ [backslash]) rest now) ∨
    (∀ n, paths.resolve before = some n → ¬ Nameable paths fs named n ∧
        (fs n = some .file → before.getLast? = some backslash)) ∧
      (makeFrom paths before (c :: rest) now).ret = false := by
  rcases makeFrom_separator paths hsep before rest now with
    ⟨k, hk, heq⟩ | ⟨n, hn, hfree, heq⟩ | ⟨hnone, hcreate, heq⟩
  · have ⟨n, hn, hnow, hfound⟩ := getFileAttributes_eq_some.mp hk
    cases k with
    | directory =>
      exact .inl ⟨n, now, hn, (h.nameable_iff paths n).mpr (.inl hnow), h.exists hnow, heq⟩
    | file =>
      exact .inr (.inl ⟨n, hn, (h.file_iff n).mp hnow,
        hfound.resolve_left (fun h => by cases h), heq⟩)
  · exact .inl ⟨n, _, hn, (h.nameable_iff paths n).mpr (.inr hfree),
      h.make (free_iff.mp hfree).1, heq⟩
  · exact .inr (.inr ⟨(h.neither_iff paths before).mp ⟨hnone, hcreate⟩, by rw [heq]⟩)

/-- The loop gets through and leaves directories exactly if the names are passable. -/
theorem makeFrom_iff {fs now : FileSystem Node} {named : List Node} (h : Named fs named now)
    (before rest : Text) :
    ((makeFrom paths before rest now).ret = true ∧ ∀ q ∈ prefixesFrom before rest,
      getFileAttributes paths (makeFrom paths before rest now).fs q = some .directory) ↔
      Passable paths fs named (prefixesFrom before rest) := by
  induction rest generalizing before now named with
  | nil => simp [makeFrom_nil, prefixesFrom, Passable]
  | cons c rest ih =>
    rw [prefixesFrom]
    cases hsep : isSeparator c with
    | false =>
      rw [makeFrom_other paths hsep]
      exact ih h _
    | true =>
      rw [if_pos rfl, List.forall_mem_cons, Passable]
      rcases h.at_separator paths hsep before rest with
        ⟨n, now', hn, hname, hnamed, heq⟩ | ⟨n, hn, hfile, _, heq⟩ | ⟨hneither, hret⟩
      · have hdir := makeFrom_kept paths (before ++ [backslash]) rest
          (hnamed.directory n List.mem_cons_self)
        have hrest := ih hnamed (before ++ [backslash])
        rw [heq, and_iff_right (getFileAttributes_directory.mpr ⟨n, hn, hdir⟩), hrest, hn]
        constructor
        · exact fun hpass => ⟨n, rfl, hname, hpass⟩
        · rintro ⟨n', hn', _, hpass⟩
          exact Option.some.inj hn' ▸ hpass
      · -- the file is still there at the end
        rw [heq]
        constructor
        · rintro ⟨_, hdir, _⟩
          have ⟨n', hn', hnow⟩ := getFileAttributes_directory.mp hdir
          obtain rfl := Option.some.inj (hn.symm.trans hn')
          cases (makeFrom_kept paths _ _ ((h.file_iff n).mpr hfile)).symm.trans hnow
        · rintro ⟨n', hn', hname, _⟩
          obtain rfl := Option.some.inj (hn.symm.trans hn')
          exact absurd hname (h.not_nameable paths hfile)
      · constructor
        · rintro ⟨htrue, _⟩
          cases hret.symm.trans htrue
        · rintro ⟨n, hn, hname, _⟩
          exact absurd hname (hneither n hn).1

/-- The loop gets through to a file system with a property exactly if the names pass, where the
property is told from the directories that were named. -/
theorem makeFrom_passes_iff {fs now : FileSystem Node} {named : List Node} (h : Named fs named now)
    {P : FileSystem Node → Prop} {last : List Node → Prop}
    (hlast : ∀ {named now}, Named fs named now → (P now ↔ last named)) (before rest : Text) :
    ((makeFrom paths before rest now).ret = true ∧ P (makeFrom paths before rest now).fs) ↔
      Passes paths fs last named (prefixesFrom before rest) := by
  induction rest generalizing before now named with
  | nil => exact (and_iff_right rfl).trans (hlast h)
  | cons c rest ih =>
    rw [prefixesFrom]
    cases hsep : isSeparator c with
    | false =>
      rw [makeFrom_other paths hsep]
      exact ih h _
    | true =>
      rw [if_pos rfl, Passes]
      rcases h.at_separator paths hsep before rest with
        ⟨n, now', hn, hname, hnamed, heq⟩ | ⟨n, hn, hfile, hfound, heq⟩ | ⟨hneither, hret⟩
      · rw [heq, ih hnamed, hn]
        constructor
        · exact fun hrest => ⟨n, rfl, .inl ⟨hname, hrest⟩⟩
        · rintro ⟨n', hn', ⟨_, hrest⟩ | ⟨hfile, _⟩⟩
          · exact Option.some.inj hn' ▸ hrest
          · obtain rfl := Option.some.inj hn'
            exact absurd hname (h.not_nameable paths hfile)
      · rw [heq, ih h, hn]
        constructor
        · exact fun hrest => ⟨n, rfl, .inr ⟨hfile, hfound, hrest⟩⟩
        · rintro ⟨n', hn', ⟨hname, _⟩ | ⟨_, _, hrest⟩⟩
          · obtain rfl := Option.some.inj hn'
            exact absurd hname (h.not_nameable paths hfile)
          · exact hrest
      · constructor
        · rintro ⟨htrue, _⟩
          cases hret.symm.trans htrue
        · rintro ⟨n, hn, ⟨hname, _⟩ | ⟨hfile, hfound, _⟩⟩
          · exact absurd hname (hneither n hn).1
          · exact absurd ((hneither n hn).2 hfile) hfound

/-- With a backslash at its end a path does not find a file. -/
theorem Named.stuck_iff {fs now : FileSystem Node} {named : List Node} (h : Named fs named now)
    {q : Text} (hq : q.getLast? = some backslash) :
    getFileAttributes paths now q = none ∧ createDirectory paths now q = none ↔
      ∀ n, paths.resolve q = some n → ¬ Nameable paths fs named n := by
  rw [h.neither_iff paths]
  apply forall_congr'
  intro n
  apply imp_congr_right
  intro _
  exact and_iff_left fun _ => hq

/-! ## 6. The end of the path -/

theorem stem_append_tail (path : Text) : stem path ++ tail path = path :=
  List.rdropWhile_append_rtakeWhile ..

theorem tail_separators {path : Text} {c : UInt16} (h : c ∈ tail path) :
    c = backslash ∨ c = slash := by
  have hsep : isSeparator c = true := List.mem_rtakeWhile_imp h
  simpa [isSeparator] using hsep

/-- Separators behind a stem are the tail of that text. -/
theorem tail_stem_append {path t : Text} (ht : ∀ c ∈ t, isSeparator c = true) :
    tail (stem path ++ t) = t := by
  induction t using List.reverseRecOn with
  | nil =>
    rw [List.append_nil]
    exact List.rtakeWhile_eq_nil_iff.mpr (List.rdropWhile_last_not isSeparator path)
  | append_singleton t c ih =>
    have hc : isSeparator c = true := ht c (List.mem_append_right _ List.mem_cons_self)
    rw [tail, ← List.append_assoc, List.rtakeWhile_concat_pos _ _ _ hc]
    exact congrArg (· ++ [c]) (ih fun d hd => ht d (List.mem_append_left _ hd))

theorem stem_last {path : Text} {c : UInt16} (h : (stem path).getLast? = some c) :
    isSeparator c = false := by
  have hne : stem path ≠ [] := by
    intro hnil
    rw [hnil] at h
    cases h
  have hlast := List.rdropWhile_last_not isSeparator path hne
  rw [List.getLast?_eq_some_getLast hne, Option.some.injEq] at h
  change ¬ isSeparator ((stem path).getLast hne) = true at hlast
  rw [h] at hlast
  exact Bool.eq_false_iff.mpr hlast

omit [DecidableEq Node] in
theorem pathRemoveBackslash_long (stem : Text) {tail : Text} (htail : 3 ≤ tail.length) :
    ∃ u, pathRemoveBackslash paths (stem ++ tail) = stem ++ u ∧ 2 ≤ u.length ∧ u ⊆ tail := by
  have hne : tail ≠ [] := by
    rintro rfl
    cases htail
  unfold pathRemoveBackslash
  split
  · have hlen : tail.dropLast.length = tail.length - 1 := List.length_dropLast
    exact ⟨tail.dropLast, List.dropLast_append_of_ne_nil hne, by omega, List.dropLast_subset tail⟩
  · exact ⟨tail, rfl, by omega, List.Subset.refl tail⟩

omit [DecidableEq Node] in
theorem pathAddBackslash_long (stem : Text) {u : Text} (hu : 2 ≤ u.length) :
    ∃ v, pathAddBackslash paths (stem ++ u) = stem ++ v ∧ 2 ≤ v.length ∧
      v ⊆ u ++ [backslash] := by
  unfold pathAddBackslash
  split
  · exact ⟨u, rfl, hu, List.subset_append_left ..⟩
  · split
    · have hlen : (u ++ [backslash]).length = u.length + 1 := List.length_append
      exact ⟨u ++ [backslash], List.append_assoc .., by omega, List.Subset.refl _⟩
    · exact ⟨u, rfl, hu, List.subset_append_left ..⟩

omit [DecidableEq Node] in
/-- What the two calls make of the end of the path: separators, one of them in the good cases. -/
theorem ended {stem tail : Text} (hstem : stem.getLast? ≠ some backslash)
    (htail : ∀ c ∈ tail, c = backslash ∨ c = slash) :
    ∃ t, pathAddBackslash paths (pathRemoveBackslash paths (stem ++ tail)) = stem ++ t ∧
      (∀ c ∈ t, c = backslash ∨ c = slash) ∧ (t.length = 1 ↔ EndsWell paths stem tail) := by
  have hne : ¬ slash = backslash := by decide
  have hne' : ¬ backslash = slash := by decide
  unfold EndsWell
  match tail with
  -- no separator: `PathAddBackslash` gives one where there is room
  | [] =>
    have hremove : pathRemoveBackslash paths (stem ++ []) = stem := by
      simp [pathRemoveBackslash, hstem]
    rw [hremove]
    by_cases hroom : paths.room stem.length = true
    · exact ⟨[backslash], by simp [pathAddBackslash, hstem, hroom], by simp, by simp [hroom]⟩
    · exact ⟨[], by simp [pathAddBackslash, hstem, hroom], by simp, by simp [hroom]⟩
  -- one: a backslash is taken away, unless the path is a root, and given back; a `/` stays
  | [a] =>
    rcases htail a List.mem_cons_self with rfl | rfl
    · by_cases hroot : paths.isRoot (stem ++ [backslash]) = true
      · exact ⟨[backslash], by simp [pathAddBackslash, pathRemoveBackslash, hroot], by simp,
          by simp [hroot]⟩
      · have hremove : pathRemoveBackslash paths (stem ++ [backslash]) = stem := by
          simp [pathRemoveBackslash, hroot]
        rw [hremove]
        by_cases hroom : paths.room stem.length = true
        · exact ⟨[backslash], by simp [pathAddBackslash, hstem, hroom], by simp, by simp [hroom]⟩
        · exact ⟨[], by simp [pathAddBackslash, hstem, hroom], by simp,
            by simp [hroom, hroot, hne']⟩
    · have hremove : pathRemoveBackslash paths (stem ++ [slash]) = stem ++ [slash] := by
        simp [pathRemoveBackslash, hne]
      rw [hremove]
      by_cases hroom : paths.room (stem.length + 1) = true
      · exact ⟨[slash, backslash], by simp [pathAddBackslash, hne, hroom], by simp,
          by simp [hroom, hne]⟩
      · exact ⟨[slash], by simp [pathAddBackslash, hne, hroom], by simp, by simp [hroom, hne]⟩
  -- two: of two backslashes one is left
  | [a, b] =>
    rcases htail b (List.mem_cons_of_mem _ List.mem_cons_self) with rfl | rfl
    · by_cases hroot : paths.isRoot (stem ++ [a, backslash]) = true
      · exact ⟨[a, backslash], by simp [pathAddBackslash, pathRemoveBackslash, hroot], htail,
          by simp [hroot]⟩
      · have hremove : pathRemoveBackslash paths (stem ++ [a, backslash]) = stem ++ [a] := by
          simp [pathRemoveBackslash, hroot]
        rw [hremove]
        rcases htail a List.mem_cons_self with rfl | rfl
        · exact ⟨[backslash], by simp [pathAddBackslash], by simp, by simp [hroot]⟩
        · by_cases hroom : paths.room (stem.length + 1) = true
          · exact ⟨[slash, backslash], by simp [pathAddBackslash, hne, hroom], by simp,
              by simp [hroom, hne]⟩
          · exact ⟨[slash], by simp [pathAddBackslash, hne, hroom], by simp,
              by simp [hroom, hne, hroot]⟩
    · have hremove : pathRemoveBackslash paths (stem ++ [a, slash]) = stem ++ [a, slash] := by
        simp [pathRemoveBackslash, hne]
      have ⟨v, hv, hlen, hsub⟩ := pathAddBackslash_long paths stem (u := [a, slash])
        (Nat.le_refl 2)
      apply Exists.intro v
      apply And.intro (by rw [hremove, hv])
      constructor
      · intro c hc
        rcases List.mem_append.mp (hsub hc) with hmem | hmem
        · exact htail c hmem
        · exact .inl (List.mem_singleton.mp hmem)
      · simp [hne]
        omega
  -- three or more: two of them are left at least
  | a :: b :: c :: t =>
    have hlong : 3 ≤ (a :: b :: c :: t).length := by
      simp only [List.length_cons]
      omega
    have ⟨u, hu, hlen, hsub⟩ := pathRemoveBackslash_long paths stem hlong
    have ⟨v, hv, hlen', hsub'⟩ := pathAddBackslash_long paths stem hlen
    apply Exists.intro v
    apply And.intro (by rw [hu, hv])
    constructor
    · intro x hx
      rcases List.mem_append.mp (hsub' hx) with hmem | hmem
      · exact htail x (hsub hmem)
      · exact .inl (List.mem_singleton.mp hmem)
    · simp
      omega

/-! ## 7. The call -/

theorem isSeparator_toBackslash (c : UInt16) : isSeparator (toBackslash c) = isSeparator c := by
  unfold toBackslash
  split
  · next h => rw [h]; rfl
  · rfl

theorem prefixesFrom_map (before rest : Text) :
    prefixesFrom before (rest.map toBackslash) = prefixesFrom before rest := by
  induction rest generalizing before with
  | nil => rfl
  | cons c rest ih =>
    rw [List.map_cons, prefixesFrom, prefixesFrom, isSeparator_toBackslash]
    split
    · rw [ih]
    · next h => rw [ih, toBackslash, if_neg h]

theorem zero_not_mem_map {text : Text} (h : 0 ∉ text) : 0 ∉ text.map toBackslash := by
  intro hmem
  have ⟨c, hc, hzero⟩ := List.mem_map.mp hmem
  unfold toBackslash at hzero
  split at hzero
  · cases hzero
  · exact h (hzero ▸ hc)

omit [DecidableEq Node] in
/-- The text the loop runs over. -/
theorem loop_text (buffer : Text) :
    ∃ t, pathAddBackslash paths (pathRemoveBackslash paths (cText buffer)) =
        stem (cText buffer) ++ t ∧ 0 ∉ stem (cText buffer) ++ t ∧
      (∀ c ∈ t, isSeparator c = true) ∧
      (t.length = 1 ↔ EndsWell paths (stem (cText buffer)) (tail (cText buffer))) := by
  have hstem : (stem (cText buffer)).getLast? ≠ some backslash := by
    intro h
    cases stem_last h
  have ⟨t, heq, hsep, hiff⟩ := ended paths hstem
    fun c (hc : c ∈ tail (cText buffer)) => tail_separators hc
  rw [stem_append_tail] at heq
  apply Exists.intro t
  apply And.intro heq
  refine ⟨?_, ?_, hiff⟩
  · intro h
    rcases List.mem_append.mp h with hmem | hmem
    · exact zero_not_mem_cText buffer
        (stem_append_tail (cText buffer) ▸ List.mem_append_left _ hmem)
    · rcases hsep 0 hmem with h0 | h0
      · cases h0
      · cases h0
  · intro c hc
    rcases hsep c hc with rfl | rfl
    · rfl
    · rfl

/-- The path and one separator, which the loop turns into the path in its normal form. -/
theorem normal_eq {c : UInt16} (hc : isSeparator c = true) (path : Text) :
    (stem path ++ [c]).map toBackslash = normal path := by
  rw [List.map_append, List.map_singleton, toBackslash, if_pos hc]
  rfl

theorem prefixes_normal {c : UInt16} (hc : isSeparator c = true) (path : Text) :
    prefixesFrom [] (stem path ++ [c]) = prefixes (normal path) := by
  rw [prefixes, ← normal_eq hc, prefixesFrom_map]

theorem length_normal (path : Text) : (normal path).length = (stem path).length + 1 := by
  rw [normal, List.length_append, List.length_map]
  rfl

theorem normal_last (path : Text) : (normal path).getLast? = some backslash :=
  List.getLast?_concat

/-- Without a separator behind it the path is not what is left in the buffer. -/
theorem not_makes_stem (fs : FileSystem Node) {path : Text} (hzero : 0 ∉ stem path) :
    ¬ MakesDirectories paths fs path (makeFrom paths [] (stem path) fs) := by
  intro hmakes
  have hlength : (cText (makeFrom paths [] (stem path) fs).buffer).length =
      (stem path).length + 1 := by
    rw [hmakes.buffer, length_normal]
  cases hret : (makeFrom paths [] (stem path) fs).ret with
  | true =>
    rw [makeFrom_true paths _ _ hret, List.nil_append, cText_eq_self (zero_not_mem_map hzero),
      List.length_map] at hlength
    omega
  | false =>
    have hshort := makeFrom_append_false paths [] (stem path) []
      (by rw [List.append_nil]; exact hzero) hret
    rw [List.append_nil, List.nil_append] at hshort
    omega

/-- With one separator behind the path, the call does what it must if it gets through. -/
theorem makes_iff_passable (fs : FileSystem Node) {path : Text} {c : UInt16}
    (hc : isSeparator c = true) (hzero : 0 ∉ stem path ++ [c]) :
    MakesDirectories paths fs path (makeFrom paths [] (stem path ++ [c]) fs) ↔
      Passable paths fs [] (prefixes (normal path)) := by
  rw [← prefixes_normal hc, ← makeFrom_iff paths (Named.start fs)]
  constructor
  · intro hmakes
    cases hret : (makeFrom paths [] (stem path ++ [c]) fs).ret with
    | true =>
      rw [prefixes_normal hc]
      exact ⟨rfl, hmakes.ret.mp hret⟩
    | false =>
      have hshort := makeFrom_append_false paths [] (stem path ++ [c]) []
        (by rw [List.append_nil]; exact hzero) hret
      rw [List.append_nil, List.nil_append, hmakes.buffer, ← normal_eq hc,
        List.length_map] at hshort
      omega
  · rintro ⟨hret, hdirs⟩
    rw [prefixes_normal hc] at hdirs
    constructor
    · exact iff_of_true hret hdirs
    · exact fun n k h => makeFrom_kept paths _ _ h
    · intro n hn hmade
      rw [← prefixes_normal hc]
      exact makeFrom_made paths _ _ hn hmade
    · rw [makeFrom_true paths _ _ hret, List.nil_append, cText_eq_self (zero_not_mem_map hzero),
        normal_eq hc]

/-- With two or more, it does so if it fails at the second one, and has to. -/
theorem makes_iff_stuck (fs : FileSystem Node) {path : Text} {c d : UInt16} {behind : Text}
    (hc : isSeparator c = true) (hd : isSeparator d = true)
    (hzero : 0 ∉ stem path ++ [c] ++ d :: behind) :
    MakesDirectories paths fs path (makeFrom paths [] (stem path ++ [c] ++ d :: behind) fs) ↔
      (∃ q ∈ prefixes (normal path), ∃ n, paths.resolve q = some n ∧ fs n = some .file) ∧
        Passes paths fs
          (fun named => ∀ n, paths.resolve (normal path) = some n → ¬ Nameable paths fs named n) []
          (prefixes (normal path)) := by
  have hpasses := makeFrom_passes_iff paths (Named.start fs)
    (fun h => Named.stuck_iff paths h (normal_last path)) [] (stem path ++ [c])
  rw [prefixes_normal hc] at hpasses
  rw [← hpasses]
  have hnormal : 0 ∉ normal path := by
    rw [← normal_eq hc]
    exact zero_not_mem_map fun h => hzero (List.mem_append_left _ h)
  constructor
  · intro hmakes
    cases hret : (makeFrom paths [] (stem path ++ [c]) fs).ret with
    | false =>
      have hshort := makeFrom_append_false paths [] (stem path ++ [c]) (d :: behind) hzero hret
      rw [List.nil_append, hmakes.buffer, ← normal_eq hc, List.length_map] at hshort
      omega
    | true =>
      rw [makeFrom_append_true paths _ _ _ hret, List.nil_append, normal_eq hc] at hmakes
      -- a call that goes on leaves more than the path in the buffer
      have hlonger (now : FileSystem Node)
          (heq : makeFrom paths (normal path) (d :: behind)
            (makeFrom paths [] (stem path ++ [c]) fs).fs =
              makeFrom paths (normal path ++ [backslash]) behind now) : False := by
        have hle := length_le_makeFrom paths (normal path ++ [backslash]) behind now
          (zero_not_mem_step (.inr rfl) (c := d) fun h => by
            rcases List.mem_append.mp h with h | h
            · exact hnormal h
            · exact hzero (List.mem_append_right _ h))
        rw [← heq, hmakes.buffer, List.length_append, List.length_singleton] at hle
        omega
      rcases makeFrom_separator paths hd (normal path) behind _ with
        ⟨_, _, heq⟩ | ⟨_, _, _, heq⟩ | ⟨hnone, hcreate, heq⟩
      · exact (hlonger _ heq).elim
      · exact (hlonger _ heq).elim
      · refine ⟨?_, rfl, hnone, hcreate⟩
        rw [heq] at hmakes
        have hfail : ¬ ∀ q ∈ prefixes (normal path), getFileAttributes paths
            (makeFrom paths [] (stem path ++ [c]) fs).fs q = some .directory := fun h => by
          cases hmakes.ret.mpr h
        rw [not_forall] at hfail
        have ⟨q, hfail⟩ := hfail
        have ⟨hq, hne⟩ := Classical.not_imp.mp hfail
        have ⟨k, hk⟩ := makeFrom_exists paths _ _ hret (prefixes_normal hc path ▸ hq)
        have ⟨n, hn, hnow, _⟩ := getFileAttributes_eq_some.mp hk
        refine ⟨q, hq, n, hn, ?_⟩
        -- what was found there is no directory, and what was made is one
        cases k with
        | directory => exact absurd hk hne
        | file =>
          cases hfs : fs n with
          | none => cases hnow.symm.trans (makeFrom_made paths _ _ hfs
              (by rw [hnow]; exact Option.some_ne_none _)).1
          | some k => exact (hmakes.kept n k hfs).symm.trans hnow
  · rintro ⟨⟨q, hq, n, hn, hfile⟩, hret, hnone, hcreate⟩
    have hcall : makeFrom paths [] (stem path ++ [c] ++ d :: behind) fs =
        ⟨false, (makeFrom paths [] (stem path ++ [c]) fs).fs, normal path ++ 0 :: behind⟩ := by
      rw [makeFrom_append_true paths _ _ _ hret, List.nil_append, normal_eq hc]
      rcases makeFrom_separator paths hd (normal path) behind _ with
        ⟨_, hk, _⟩ | ⟨m, hm, hfree, _⟩ | ⟨_, _, heq⟩
      · cases hnone.symm.trans hk
      · cases hcreate.symm.trans (createDirectory_eq_some.mpr ⟨m, hm, hfree, rfl⟩)
      · exact heq
    rw [hcall]
    constructor
    · apply iff_of_false Bool.false_ne_true
      intro hdirs
      have ⟨n', hn', hdir⟩ := getFileAttributes_directory.mp (hdirs q hq)
      obtain rfl := Option.some.inj (hn.symm.trans hn')
      cases (makeFrom_kept paths _ _ hfile).symm.trans hdir
    · exact fun n k h => makeFrom_kept paths _ _ h
    · intro n hn hmade
      rw [← prefixes_normal hc]
      exact makeFrom_made paths _ _ hn hmade
    · exact cText_append_zero hnormal behind

/-- The call does what it must exactly if the path ends well and its directories can be made, or if
it has to fail and does so behind the whole path. -/
theorem makesDirectories_iff (fs : FileSystem Node) (buffer : Text) :
    MakesDirectories paths fs (cText buffer) (createDirectoryMulti paths fs (some buffer)) ↔
      EndsWell paths (stem (cText buffer)) (tail (cText buffer)) ∧
          Passable paths fs [] (prefixes (normal (cText buffer))) ∨
        FailsBehind paths fs (cText buffer) := by
  have ⟨t, htext, hzero, hsep, hends⟩ := loop_text paths buffer
  have htail : tail (stem (cText buffer) ++ t) = t := tail_stem_append hsep
  have hfails : FailsBehind paths fs (cText buffer) ↔ 2 ≤ t.length ∧
      (∃ q ∈ prefixes (normal (cText buffer)), ∃ n, paths.resolve q = some n ∧
        fs n = some .file) ∧
      Passes paths fs (fun named => ∀ n, paths.resolve (normal (cText buffer)) = some n →
        ¬ Nameable paths fs named n) [] (prefixes (normal (cText buffer))) := by
    constructor
    · rintro ⟨hdoubled, hfile, hstuck⟩
      rw [htext, htail] at hdoubled
      exact ⟨hdoubled, hfile, hstuck⟩
    · rintro ⟨hdoubled, hfile, hstuck⟩
      exact ⟨by rw [htext, htail]; exact hdoubled, hfile, hstuck⟩
  rw [createDirectoryMulti, htext, ← hends, hfails]
  match t with
  | [] =>
    rw [List.append_nil] at hzero ⊢
    have hnot := not_makes_stem paths fs hzero
    simp [hnot]
  | [c] =>
    have hc : isSeparator c = true := hsep c List.mem_cons_self
    rw [makes_iff_passable paths fs hc hzero]
    simp
  | c :: d :: behind =>
    have hc : isSeparator c = true := hsep c List.mem_cons_self
    have hd : isSeparator d = true := hsep d (List.mem_cons_of_mem _ List.mem_cons_self)
    rw [List.append_cons] at hzero ⊢
    rw [makes_iff_stuck paths fs hc hd hzero]
    simp

/-! ## 8. Paths that fail -/

/-- Paths from a current directory, which is the empty list; other entries are named by their path. -/
def relativePaths : Paths Text where
  resolve q :=
    let entry := q.rdropWhile isSeparator
    if entry = [] then none else some entry
  parent n := some ((n.rdropWhile fun c => !isSeparator c).rdropWhile isSeparator)
  isRoot q := q = [backslash]
  room n := n + 2 ≤ 260
  resolve_nil := by decide

/-- A current directory with the file `f` in it. -/
def oneFile : FileSystem Text := fun n =>
  if n = [] then some .directory else if n = [0x66] then some .file else none

-- with three backslashes behind `f` the call fails, as it must, and leaves `f\` in the buffer
example : (createDirectoryMulti relativePaths oneFile
      (some [0x66, backslash, backslash, backslash])).ret = false ∧
    cText (createDirectoryMulti relativePaths oneFile
      (some [0x66, backslash, backslash, backslash])).buffer = [0x66, backslash] := by
  decide

/-- `f` succeeds and leaves the file; `\d` fails at the empty prefix and empties the buffer. -/
theorem file_and_rooted :
    (createDirectoryMulti relativePaths oneFile (some [0x66])).ret = true ∧
      ¬ MakesDirectories relativePaths oneFile (cText [0x66])
        (createDirectoryMulti relativePaths oneFile (some [0x66])) ∧
      cText (createDirectoryMulti relativePaths oneFile (some [backslash, 0x64])).buffer = [] ∧
      ¬ MakesDirectories relativePaths oneFile (cText [backslash, 0x64])
        (createDirectoryMulti relativePaths oneFile (some [backslash, 0x64])) := by
  have hret : (createDirectoryMulti relativePaths oneFile (some [0x66])).ret = true := by decide
  have hbuffer : cText (createDirectoryMulti relativePaths oneFile
      (some [backslash, 0x64])).buffer = [] := by decide
  apply And.intro hret
  constructor
  · intro h
    have hdir := h.ret.mp hret [0x66] (by decide)
    revert hdir
    decide
  · apply And.intro hbuffer
    intro h
    have hnormal := hbuffer.symm.trans h.buffer
    revert hnormal
    decide

end VerifyServer.Common.Directories
