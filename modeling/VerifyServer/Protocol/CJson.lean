import VerifyServer.Reasoning.DoublyLinked
import VerifyServer.Reasoning.JavaString

/-!
# CJson — cJSON items in memory

An item is a `cJSON` that `malloc` gave out; addresses are given out in order and not again, and
there is always memory left.  An access to an item that was freed has no meaning, nor has a walk
that does not end.  The texts an item owns are part of it.
-/

open VerifyServer.Reasoning

namespace VerifyServer.Protocol

/-! ## 1. Texts -/

/-- A `TCHAR` text up to the NUL at its end. -/
structure TText where
  units : List UInt16
  no_nul : 0 ∉ units
  deriving DecidableEq

/-- `c_str()` up to the NUL that ends it for a reader. -/
def cStr (s : List UInt16) : TText where
  units := s.takeWhile (· ≠ 0)
  no_nul := fun hmem => by simpa using List.mem_takeWhile_imp hmem

/-- The loop of `cJSON_strcasecmp` and what is returned behind it. -/
def compareIgnoringCase : List UInt16 → List UInt16 → Int
  | [], [] => 0
  | [], d :: _ => -(lower d).toNat
  | c :: _, [] => (lower c).toNat
  | c :: s, d :: t =>
    if lower c = lower d then compareIgnoringCase s t else (lower c).toNat - (lower d).toNat

/-- `cJSON_strcasecmp`. -/
def strcasecmp : Option TText → Option TText → Int
  | none, none => 0
  | none, some _ => 1
  | some _, none => 1
  | some s, some t => compareIgnoringCase s.units t.units

/-- The same text but for the case of its letters. -/
def SameKey (s t : TText) : Prop := s.units.map lower = t.units.map lower

instance (s t : TText) : Decidable (SameKey s t) := inferInstanceAs (Decidable (_ = _))

theorem SameKey.refl (s : TText) : SameKey s s := rfl

theorem lower_toNat_ne {c : UInt16} (hc : c ≠ 0) : (lower c).toNat ≠ 0 := by
  rw [lower]
  split
  · next hcap =>
    have hle : c ≤ 0x5A := of_decide_eq_true (Bool.and_eq_true_iff.mp hcap).2
    have hnat : c.toNat ≤ 0x5A := UInt16.le_iff_toNat_le.mp hle
    rw [UInt16.toNat_add]
    change (c.toNat + 32) % 65536 ≠ 0
    omega
  · exact fun hzero => hc (UInt16.toNat_inj.mp hzero)

theorem compareIgnoringCase_eq_zero {s t : List UInt16} (hs : 0 ∉ s) (ht : 0 ∉ t) :
    compareIgnoringCase s t = 0 ↔ s.map lower = t.map lower := by
  induction s generalizing t with
  | nil =>
    cases t with
    | nil => simp [compareIgnoringCase]
    | cons d t =>
      have hd := lower_toNat_ne (c := d) fun hzero => ht (hzero ▸ List.mem_cons_self)
      simp only [compareIgnoringCase, List.map_nil, List.map_cons, reduceCtorEq, iff_false]
      omega
  | cons c s ih =>
    cases t with
    | nil =>
      have hc := lower_toNat_ne (c := c) fun hzero => hs (hzero ▸ List.mem_cons_self)
      simp only [compareIgnoringCase, List.map_nil, List.map_cons, reduceCtorEq, iff_false]
      omega
    | cons d t =>
      have hrest := ih (fun hmem => hs (List.mem_cons_of_mem _ hmem))
        (fun hmem => ht (List.mem_cons_of_mem _ hmem))
      rw [compareIgnoringCase, List.map_cons, List.map_cons, List.cons.injEq]
      by_cases heq : lower c = lower d
      · rw [if_pos heq, hrest, and_iff_right heq]
      · have hnat : (lower c).toNat ≠ (lower d).toNat := fun h => heq (UInt16.toNat_inj.mp h)
        rw [if_neg heq]
        simp only [heq, false_and, iff_false]
        omega

theorem strcasecmp_eq_zero {s t : TText} : strcasecmp (some s) (some t) = 0 ↔ SameKey s t :=
  compareIgnoringCase_eq_zero s.no_nul t.no_nul

/-! ## 2. Items and memory -/

/-- `cJSON`, without the numbers it can hold; an address is a number, and `NULL` none. -/
structure CJson where
  next : Option Nat := none
  prev : Option Nat := none
  child : Option Nat := none
  type : Nat := 0
  valuestring : Option TText := none
  string : Option TText := none
  deriving DecidableEq

def cJSON_NULL : Nat := 2

def cJSON_String : Nat := 4

def cJSON_Object : Nat := 6

def cJSON_IsReference : Nat := 256

structure Memory where
  cell : Nat → Option CJson
  /-- What `malloc` gives out next. -/
  fresh : Nat

/-- Why a call has no result: it used an item that is not there, or a walk along the items does not
end. -/
inductive Fault where
  | dangling
  | endless
  deriving DecidableEq, Repr

namespace Memory

def empty : Memory := ⟨fun _ => none, 0⟩

def Live (m : Memory) (a : Nat) : Prop := ∃ n, m.cell a = some n

def put (m : Memory) (a : Nat) (n : CJson) : Memory :=
  { m with cell := Function.update m.cell a (some n) }

def read (m : Memory) (a : Nat) : Except Fault CJson :=
  match m.cell a with
  | some n => .ok n
  | none => .error .dangling

/-- An assignment to fields of the item at `a`. -/
def modify (m : Memory) (a : Nat) (f : CJson → CJson) : Except Fault Memory := do
  let n ← m.read a
  return m.put a (f n)

/-- `cJSON_New_Item`, and what the caller puts into the item. -/
def newItem (m : Memory) (n : CJson) : Nat × Memory :=
  (m.fresh, { cell := Function.update m.cell m.fresh (some n), fresh := m.fresh + 1 })

/-- `cJSON_free` of an item. -/
def free (m : Memory) (a : Nat) : Except Fault Memory := do
  let _ ← m.read a
  return { m with cell := Function.update m.cell a none }

variable {m : Memory} {a b : Nat} {n : CJson}

@[simp]
theorem put_fresh : (m.put a n).fresh = m.fresh := rfl

@[simp]
theorem put_self : (m.put a n).cell a = some n := Function.update_self ..

theorem put_of_ne (h : b ≠ a) : (m.put a n).cell b = m.cell b := Function.update_of_ne h ..

theorem read_of_some (h : m.cell a = some n) : m.read a = .ok n := by rw [read, h]

theorem read_of_none (h : m.cell a = none) : m.read a = .error .dangling := by rw [read, h]

theorem modify_of_some {f : CJson → CJson} (h : m.cell a = some n) :
    m.modify a f = .ok (m.put a (f n)) := by
  rw [modify, read_of_some h]
  rfl

end Memory

/-! ## 3. The functions -/

/-- `cJSON_Delete`. -/
def delete : Nat → Memory → Option Nat → Except Fault Memory
  | _, m, none => .ok m
  | 0, _, some _ => .error .endless
  | k + 1, m, some c => do
    let item ← m.read c
    let m ← delete k m (if item.type &&& cJSON_IsReference = 0 then item.child else none)
    let m ← m.free c
    delete k m item.next

/-- `while (c && cJSON_strcasecmp(c->string,string)) c=c->next;` -/
def find (string : TText) : Nat → Memory → Option Nat → Except Fault (Option Nat)
  | _, _, none => .ok none
  | 0, _, some _ => .error .endless
  | k + 1, m, some c => do
    let item ← m.read c
    if strcasecmp item.string (some string) = 0 then .ok (some c) else find string k m item.next

/-- `cJSON_GetObjectItem`. -/
def getObjectItem (m : Memory) (object : Nat) (string : TText) : Except Fault (Option Nat) := do
  let item ← m.read object
  find string m.fresh m item.child

/-- `while (c && c->next) c=c->next;` from an item on. -/
def lastFrom : Nat → Memory → Nat → Except Fault Nat
  | 0, _, _ => .error .endless
  | k + 1, m, c => do
    let item ← m.read c
    match item.next with
    | none => .ok c
    | some d => lastFrom k m d

/-- `suffix_object`. -/
def suffixObject (m : Memory) (prev item : Nat) : Except Fault Memory := do
  let m ← m.modify prev fun n => { n with next := some item }
  m.modify item fun n => { n with prev := some prev }

/-- `cJSON_AddItemToArray`. -/
def addItemToArray (m : Memory) (array : Nat) (item : Option Nat) : Except Fault Memory := do
  let a ← m.read array
  match item, a.child with
  | none, _ => .ok m
  | some item, none => m.modify array fun n => { n with child := some item }
  | some item, some c => do
    let last ← lastFrom m.fresh m c
    suffixObject m last item

/-- `cJSON_AddItemToObject`, which deletes the item that has the key. -/
def addItemToObject (m : Memory) (object : Option Nat) (string : TText) (item : Option Nat) :
    Except Fault Memory :=
  match item, object with
  | some item, some object => do
    let p ← getObjectItem m object string
    let m ← delete m.fresh m p
    let m ← m.modify item fun n => { n with string := some string }
    addItemToArray m object (some item)
  | _, _ => .ok m

/-- What a new item is made with. -/
inductive Value where
  | null
  | string (s : Option TText)
  | object
  deriving DecidableEq

/-- `cJSON_CreateNull`, `cJSON_CreateString` or `cJSON_CreateObject`; without a text, a `Null`. -/
def Value.item : Value → CJson
  | .null | .string none => { type := cJSON_NULL }
  | .string (some s) => { type := cJSON_String, valuestring := some s }
  | .object => { type := cJSON_Object }

/-- `cJSON_AddItemToObject` with an item made for it, which is returned too. -/
def addNew (m : Memory) (object : Option Nat) (string : TText) (value : Value) :
    Except Fault (Nat × Memory) := do
  let (item, m) := m.newItem value.item
  let m ← addItemToObject m object string (some item)
  return (item, m)

/-! ## 4. Walks along a list -/

/-- The items from `first` on, with `before` in front of the first. -/
abbrev ChildList (m : Memory) (before first : Option Nat) (items : List Nat) : Prop :=
  DoublyLinked CJson.next CJson.prev m.cell before first items

/-- Whether the item at `a` is found for this key. -/
def Memory.hasKey (m : Memory) (string : TText) (a : Nat) : Bool :=
  match m.cell a with
  | some n => strcasecmp n.string (some string) = 0
  | none => false

variable {m m' : Memory} {before first : Option Nat} {items : List Nat} {string : TText} {k : Nat}

theorem hasKey_of_some {a : Nat} {n : CJson} (h : m.cell a = some n) :
    m.hasKey string a = decide (strcasecmp n.string (some string) = 0) := by
  rw [Memory.hasKey, h]

theorem find_eq (h : ChildList m before first items) (hk : items.length ≤ k) :
    find string k m first = .ok (items.find? (m.hasKey string)) := by
  induction items generalizing before first k with
  | nil =>
    obtain rfl : first = none := h
    cases k <;> rfl
  | cons a items ih =>
    have ⟨hfirst, n, hn, _, hrest⟩ := h
    cases k with
    | zero => simp at hk
    | succ k =>
      have hk : items.length ≤ k := Nat.le_of_succ_le_succ hk
      rw [hfirst, find, Memory.read_of_some hn, List.find?_cons, hasKey_of_some hn]
      change (if strcasecmp n.string (some string) = 0 then _ else find string k m n.next) = _
      by_cases hkey : strcasecmp n.string (some string) = 0
      · rw [if_pos hkey, decide_eq_true hkey]
      · rw [if_neg hkey, decide_eq_false hkey, ih hrest hk]

theorem lastFrom_eq {a last : Nat} (h : ChildList m before (some a) items)
    (hlast : items.getLast? = some last) (hk : items.length ≤ k) :
    lastFrom k m a = .ok last := by
  induction items generalizing before a k with
  | nil => cases hlast
  | cons b items ih =>
    have ⟨hfirst, n, hn, _, hrest⟩ := h
    obtain rfl := Option.some.inj hfirst
    cases k with
    | zero => simp at hk
    | succ k =>
      have hk : items.length ≤ k := Nat.le_of_succ_le_succ hk
      rw [lastFrom, Memory.read_of_some hn]
      change (match n.next with | none => _ | some d => lastFrom k m d) = _
      cases items with
      | nil =>
        have hnext : n.next = none := hrest
        rw [hnext, ← Option.some.inj hlast, List.getLast_singleton]
      | cons c items =>
        have hnext := hrest.1
        rw [hnext] at hrest ⊢
        apply ih hrest _ hk
        rw [← hlast, List.getLast?_cons_cons]

/-- Some items were freed since, and nothing else happened. -/
structure Freed (m m' : Memory) : Prop where
  fresh : m'.fresh = m.fresh
  cell : ∀ a, m'.cell a = none ∨ m'.cell a = m.cell a

theorem Freed.refl (m : Memory) : Freed m m := ⟨rfl, fun _ => .inr rfl⟩

theorem Freed.trans {m'' : Memory} (h : Freed m m') (h' : Freed m' m'') : Freed m m'' where
  fresh := h'.fresh.trans h.fresh
  cell a := (h'.cell a).elim .inl fun heq => heq ▸ h.cell a

theorem Freed.of_none {a : Nat} (h : Freed m m') (ha : m.cell a = none) : m'.cell a = none :=
  (h.cell a).elim id fun heq => heq.trans ha

/-- A walk to the end of a list in which an item was freed does not get past it. -/
theorem lastFrom_freed {a p : Nat} (h : ChildList m before (some a) items)
    (hcell : ∀ b ∈ items, m'.cell b = none ∨ m'.cell b = m.cell b) (hp : p ∈ items)
    (hfreed : m'.cell p = none) (hk : items.length ≤ k) :
    lastFrom k m' a = .error .dangling := by
  induction items generalizing before a k with
  | nil => cases hp
  | cons b items ih =>
    have ⟨hfirst, n, hn, _, hrest⟩ := h
    obtain rfl := Option.some.inj hfirst
    cases k with
    | zero => simp at hk
    | succ k =>
      have hk : items.length ≤ k := Nat.le_of_succ_le_succ hk
      rw [lastFrom]
      rcases hcell a List.mem_cons_self with hnone | hsame
      · rw [Memory.read_of_none hnone]
        rfl
      · rw [Memory.read_of_some (hsame.trans hn)]
        change (match n.next with | none => _ | some d => lastFrom k m' d) = _
        have hp : p ∈ items := by
          cases hp with
          | head => cases hfreed.symm.trans (hsame.trans hn)
          | tail _ hp => exact hp
        have ⟨c, hnext⟩ : ∃ c, n.next = some c := by
          cases items with
          | nil => cases hp
          | cons c items => exact ⟨c, hrest.1⟩
        rw [hnext] at hrest ⊢
        exact ih hrest (fun d hd => hcell d (List.mem_cons_of_mem _ hd)) hp hk

/-! ## 5. `cJSON_Delete` -/

/-- Links lead to items that were given out later. -/
def Ordered (m : Memory) : Prop :=
  ∀ a n, m.cell a = some n → a < m.fresh ∧
    ∀ b, n.next = some b ∨ n.child = some b → a < b ∧ b < m.fresh

theorem Ordered.freed (h : Ordered m) (hfreed : Freed m m') : Ordered m' := by
  intro a n hn
  rw [hfreed.fresh]
  rcases hfreed.cell a with hnone | hsame
  · cases hnone.symm.trans hn
  · exact h a n (hsame.symm.trans hn)

/-- The call comes upon an item that is not there, or has a result with `P`. -/
def DanglesOr {α : Type} (P : α → Prop) (x : Except Fault α) : Prop :=
  x = .error .dangling ∨ ∃ a, x = .ok a ∧ P a

section DanglesOr

variable {α β : Type} {P : α → Prop} {Q : β → Prop} {x : Except Fault α}

theorem DanglesOr.ok {a : α} (h : P a) : DanglesOr P (.ok a) := .inr ⟨a, rfl, h⟩

theorem DanglesOr.bind {f : α → Except Fault β} (h : DanglesOr P x)
    (hf : ∀ a, P a → DanglesOr Q (f a)) : DanglesOr Q (x >>= f) := by
  rcases h with herror | ⟨a, hok, ha⟩
  · left
    rw [herror]
    rfl
  · rw [hok]
    exact hf a ha

theorem DanglesOr.mono {Q : α → Prop} (h : DanglesOr P x) (hPQ : ∀ a, P a → Q a) :
    DanglesOr Q x := h.imp_right fun ⟨a, hok, ha⟩ => ⟨a, hok, hPQ a ha⟩

end DanglesOr

theorem read_dangles (m : Memory) (a : Nat) :
    DanglesOr (fun n => m.cell a = some n) (m.read a) := by
  cases hn : m.cell a with
  | none => exact .inl (Memory.read_of_none hn)
  | some n => exact .inr ⟨n, Memory.read_of_some hn, rfl⟩

theorem free_dangles (m : Memory) (a : Nat) :
    DanglesOr (fun m' => Freed m m' ∧ m'.cell a = none) (m.free a) := by
  apply (read_dangles m a).bind
  intro n hn
  apply DanglesOr.ok
  refine ⟨⟨rfl, fun b => ?_⟩, Function.update_self ..⟩
  by_cases hb : b = a
  · exact .inl (hb ▸ Function.update_self ..)
  · exact .inr (Function.update_of_ne hb ..)

/-- `cJSON_Delete` frees the item it is called on, if all goes well. -/
theorem delete_dangles (hord : Ordered m) {c : Option Nat}
    (hc : ∀ p, c = some p → p < m.fresh ∧ m.fresh ≤ k + p) :
    DanglesOr (fun m' => Freed m m' ∧ ∀ p, c = some p → m'.cell p = none) (delete k m c) := by
  induction k generalizing m c with
  | zero =>
    cases c with
    | none => exact .ok ⟨.refl m, nofun⟩
    | some p =>
      have := hc p rfl
      omega
  | succ k ih =>
    cases c with
    | none => exact .ok ⟨.refl m, nofun⟩
    | some p =>
      have hp := hc p rfl
      rw [delete]
      apply (read_dangles m p).bind
      intro n hn
      have ⟨_, hlinks⟩ := hord p n hn
      have hchild : ∀ q, (if n.type &&& cJSON_IsReference = 0 then n.child else none) = some q →
          q < m.fresh ∧ m.fresh ≤ k + q := by
        intro q hq
        have hq : n.child = some q := by
          split at hq
          · exact hq
          · cases hq
        have := hlinks q (.inr hq)
        omega
      apply (ih hord hchild).bind
      intro m₁ ⟨hfreed₁, _⟩
      apply (free_dangles m₁ p).bind
      intro m₂ ⟨hfreed₂, hnone⟩
      have hfreed := hfreed₁.trans hfreed₂
      have hlater : ∀ q, n.next = some q → q < m₂.fresh ∧ m₂.fresh ≤ k + q := by
        intro q hq
        have := hlinks q (.inl hq)
        rw [hfreed.fresh]
        omega
      apply (ih (hord.freed hfreed) hlater).mono
      intro m₃ ⟨hfreed₃, _⟩
      refine ⟨hfreed.trans hfreed₃, fun q hq => ?_⟩
      obtain rfl := Option.some.inj hq
      exact hfreed₃.of_none hnone

/-! ## 6. `cJSON_AddItemToObject` -/

/-- Memory where `item` has its key and stands behind the items of `object`. -/
def Memory.attach (m : Memory) (object : Nat) (string : TText) (item : Nat) (items : List Nat) :
    Memory where
  cell a :=
    if a = item then
      (m.cell a).map fun n => { n with string := some string, prev := items.getLast? }
    else if items.getLast? = some a then (m.cell a).map fun n => { n with next := some item }
    else if items = [] ∧ a = object then (m.cell a).map fun n => { n with child := some item }
    else m.cell a
  fresh := m.fresh

variable {object item : Nat} {o n : CJson}

theorem addItemToArray_empty (hobject : m.cell object = some o) (hchild : o.child = none) :
    addItemToArray m object (some item) = .ok (m.put object { o with child := some item }) := by
  rw [addItemToArray, Memory.read_of_some hobject]
  simp only [bind, Except.bind, hchild]
  exact Memory.modify_of_some hobject

theorem addItemToArray_child (hobject : m.cell object = some o) {c : Nat}
    (hchild : o.child = some c) :
    addItemToArray m object (some item) =
      (lastFrom m.fresh m c >>= fun last => suffixObject m last item) := by
  rw [addItemToArray, Memory.read_of_some hobject]
  simp only [bind, Except.bind, hchild]

theorem addItemToObject_eq (hobject : m.cell object = some o)
    (hlist : ChildList m none o.child items) (hlen : items.length ≤ m.fresh) :
    addItemToObject m (some object) string (some item) =
      (delete m.fresh m (items.find? (m.hasKey string)) >>= fun m =>
        m.modify item (fun n => { n with string := some string }) >>= fun m =>
          addItemToArray m object (some item)) := by
  rw [addItemToObject, getObjectItem, Memory.read_of_some hobject]
  change (find string m.fresh m o.child >>= _) = _
  rw [find_eq hlist hlen]
  rfl

/-- Under a key that no item has, a new item is put behind the others. -/
theorem addItemToObject_new (hobject : m.cell object = some o)
    (hlist : ChildList m none o.child items) (hlen : items.length ≤ m.fresh)
    (hitem : m.cell item = some n) (hprev : n.prev = none) (hne : object ≠ item)
    (hout : item ∉ items) (hnew : ∀ a ∈ items, m.hasKey string a = false) :
    addItemToObject m (some object) string (some item) =
      .ok (m.attach object string item items) := by
  have hfind : items.find? (m.hasKey string) = none := by
    apply List.find?_eq_none.mpr
    intro a ha
    rw [hnew a ha]
    exact Bool.false_ne_true
  rw [addItemToObject_eq hobject hlist hlen, hfind]
  have hdelete : delete m.fresh m none = .ok m := by cases m.fresh <;> rfl
  rw [hdelete]
  change (m.modify item _ >>= _) = _
  rw [Memory.modify_of_some hitem]
  generalize hm₁ : m.put item { n with string := some string } = m₁
  change addItemToArray m₁ object (some item) = _
  have hself : m₁.cell item = some { n with string := some string } := hm₁ ▸ Memory.put_self
  have hother : ∀ a, a ≠ item → m₁.cell a = m.cell a := fun a ha => hm₁ ▸ Memory.put_of_ne ha
  have hfresh : m₁.fresh = m.fresh := hm₁ ▸ rfl
  have hobject₁ := (hother object hne).trans hobject
  have hlist₁ : ChildList m₁ none o.child items := by
    apply hlist.congr
    intro a ha k hk
    exact ⟨k, (hother a fun h => hout (h ▸ ha)).trans hk, rfl, rfl⟩
  cases items with
  | nil =>
    rw [addItemToArray_empty hobject₁ hlist]
    congr 1
    rw [Memory.put, Memory.attach, hfresh]
    congr 1
    ext1 a
    by_cases ha : a = item
    · rw [if_pos ha, ha, Function.update_of_ne hne.symm, hself, hitem, Option.map_some,
        List.getLast?_nil, ← hprev]
    · rw [if_neg ha, List.getLast?_nil, if_neg nofun]
      by_cases hobj : a = object
      · rw [if_pos ⟨rfl, hobj⟩, hobj, Function.update_self, hobject, Option.map_some]
      · rw [if_neg fun h => hobj h.2, Function.update_of_ne hobj, hother a ha]
  | cons c rest =>
    have hchild := hlist₁.first_eq
    rw [List.head?_cons] at hchild
    have ⟨last, hlast⟩ : ∃ last, (c :: rest).getLast? = some last :=
      ⟨_, List.getLast?_eq_some_getLast (List.cons_ne_nil c rest)⟩
    have hmem := List.mem_of_getLast? hlast
    have hlastne : last ≠ item := fun h => hout (h ▸ hmem)
    have ⟨k, hk⟩ := hlist₁.alive hmem
    rw [addItemToArray_child hobject₁ hchild,
      lastFrom_eq (hchild ▸ hlist₁) hlast (hfresh ▸ hlen)]
    change suffixObject m₁ last item = _
    rw [suffixObject, Memory.modify_of_some hk]
    have hself₂ : (m₁.put last { k with next := some item }).cell item =
        some { n with string := some string } :=
      (Memory.put_of_ne hlastne.symm).trans hself
    change Memory.modify _ item _ = _
    rw [Memory.modify_of_some hself₂]
    congr 1
    rw [Memory.put, Memory.attach, Memory.put_fresh, hfresh]
    congr 1
    ext1 a
    by_cases ha : a = item
    · rw [if_pos ha, ha, Function.update_self, hitem, Option.map_some, hlast]
    · rw [if_neg ha, Function.update_of_ne ha, hlast]
      by_cases hal : a = last
      · rw [if_pos (congrArg some hal.symm), hal, Memory.put_self, ← hother last hlastne, hk,
          Option.map_some]
      · have hal' : some last ≠ some a := fun h => hal (Option.some.inj h).symm
        rw [if_neg hal', if_neg fun h => List.cons_ne_nil c rest h.1, Memory.put_of_ne hal,
          hother a ha]

/-- Under a key that an item has, the call comes upon the items it freed. -/
theorem addItemToObject_old (hord : Ordered m) (hobject : m.cell object = some o)
    (hlist : ChildList m none o.child items) (hlen : items.length ≤ m.fresh)
    (hne : object ≠ item) (hout : item ∉ items) {p : Nat} (hp : p ∈ items)
    (hkey : m.hasKey string p = true) :
    addItemToObject m (some object) string (some item) = .error .dangling := by
  have ⟨q, hq⟩ : ∃ q, items.find? (m.hasKey string) = some q :=
    Option.isSome_iff_exists.mp (List.find?_isSome.mpr ⟨p, hp, hkey⟩)
  have hqmem := List.mem_of_find?_eq_some hq
  rw [addItemToObject_eq hobject hlist hlen, hq]
  have ⟨k, hk⟩ := hlist.alive hqmem
  have hbound : ∀ r, some q = some r → r < m.fresh ∧ m.fresh ≤ m.fresh + r := by
    intro r hr
    obtain rfl := Option.some.inj hr
    exact ⟨(hord q k hk).1, Nat.le_add_right ..⟩
  have hdangles : DanglesOr (fun _ : Memory => False)
      (delete m.fresh m (some q) >>= fun m =>
        m.modify item (fun n => { n with string := some string }) >>= fun m =>
          addItemToArray m object (some item)) := by
    apply (delete_dangles hord hbound).bind
    intro m₁ ⟨hfreed, hnone⟩
    have hmodify : DanglesOr (fun m₂ => m₂.fresh = m.fresh ∧
        ∀ a, a ≠ item → m₂.cell a = m₁.cell a)
        (m₁.modify item fun n => { n with string := some string }) := by
      apply (read_dangles m₁ item).bind
      intro n _
      exact .ok ⟨hfreed.fresh, fun a ha => Memory.put_of_ne ha⟩
    apply hmodify.bind
    intro m₂ ⟨hfresh, hsame⟩
    left
    rcases hfreed.cell object with hgone | hkept
    · rw [addItemToArray, Memory.read_of_none ((hsame object hne).trans hgone)]
      rfl
    · have hobject₂ := (hsame object hne).trans (hkept.trans hobject)
      have ⟨c, hchild⟩ : ∃ c, o.child = some c := by
        cases items with
        | nil => cases hqmem
        | cons c rest => exact ⟨c, hlist.first_eq⟩
      have hin : ∀ a ∈ items, a ≠ item := fun a ha h => hout (h ▸ ha)
      have hcells : ∀ a ∈ items, m₂.cell a = none ∨ m₂.cell a = m.cell a := by
        intro a ha
        rw [hsame a (hin a ha)]
        exact hfreed.cell a
      have hgone := (hsame q (hin q hqmem)).trans (hnone q rfl)
      rw [addItemToArray_child hobject₂ hchild,
        lastFrom_freed (hchild ▸ hlist) hcells hqmem hgone (hfresh ▸ hlen)]
      rfl
  exact hdangles.resolve_right fun ⟨_, _, h⟩ => h

end VerifyServer.Protocol
