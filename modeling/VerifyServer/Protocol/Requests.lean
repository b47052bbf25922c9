import VerifyServer.Protocol.CJson
import VerifyServer.Reasoning.Run

/-!
# Requests — building a request out of cJSON items

A session is a sequence of calls; each is given the pointers that earlier calls returned.  What was
written to which object is recorded beside the memory.
-/

open VerifyServer.Reasoning

namespace VerifyServer.Protocol

/-! ## 1. The calls -/

def JSON_COMMON_REQUEST_TRANSITIONID : TText := ⟨lit "transitionid", by decide⟩

def JSON_COMMON_REQUEST_MAGICID : TText := ⟨lit "magicid", by decide⟩

def JSON_COMMON_CONTENT_KEY : TText := ⟨lit "content", by decide⟩

def JSON_COMMON_CTYPE_KEY : TText := ⟨lit "ctype", by decide⟩

def JSON_COMMON_CVALUE_KEY : TText := ⟨lit "cvalue", by decide⟩

/-- `CreateCommonRequestJson`. -/
def createCommonRequestJson (m : Memory) : Except Fault (Nat × Memory) := do
  let (root, m) := m.newItem Value.object.item
  let (_, m) ← addNew m (some root) JSON_COMMON_REQUEST_TRANSITIONID .null
  let (_, m) ← addNew m (some root) JSON_COMMON_REQUEST_MAGICID .null
  return (root, m)

/-- A new object under a key of `pjson`, when that is not `NULL`. -/
def createUnder (key : TText) (m : Memory) (pjson : Option Nat) :
    Except Fault (Option Nat × Memory) :=
  match pjson with
  | none => .ok (none, m)
  | some p => do
    let (ret, m) ← addNew m (some p) key .object
    return (some ret, m)

/-- `CreateJsonContent`. -/
def createJsonContent : Memory → Option Nat → Except Fault (Option Nat × Memory) :=
  createUnder JSON_COMMON_CONTENT_KEY

/-- `WriteJsonType`. -/
def writeJsonType (m : Memory) (pjson : Option Nat) (strType : List UInt16) :
    Except Fault (Option Nat × Memory) :=
  match pjson with
  | none => .ok (none, m)
  | some p => do
    let (_, m) ← addNew m (some p) JSON_COMMON_CTYPE_KEY (.string (some (cStr strType)))
    return (some p, m)

/-- `CrateJsonValue`. -/
def crateJsonValue : Memory → Option Nat → Except Fault (Option Nat × Memory) :=
  createUnder JSON_COMMON_CVALUE_KEY

/-! ## 2. Sessions -/

/-- A call; a pointer is named by the number of the call that returned it. -/
inductive Call where
  | createCommonRequestJson
  | createJsonContent (pjson : Nat)
  | writeJsonType (pjson : Nat) (strType : List UInt16)
  | crateJsonValue (pjson : Nat)
  | addItemToObject (object : Nat) (string : TText) (value : Value)

/-- What was written to an object, and the pointer to it that the call returned, if it did. -/
structure Write where
  object : Nat
  key : TText
  value : Value
  returned : Option Nat

structure Session where
  memory : Memory
  results : List (Option Nat)
  written : List Write

namespace Session

def start : Session := ⟨.empty, [], []⟩

/-- The pointer that the call with this number returned. -/
def pointer (s : Session) (i : Nat) : Option Nat := (s.results[i]?).join

def after (s : Session) (m : Memory) (ret : Option Nat) (ws : List Write) : Session :=
  ⟨m, s.results ++ [ret], s.written ++ ws⟩

/-- A call that makes an object under a key. -/
def create (s : Session) (make : Memory → Option Nat → Except Fault (Option Nat × Memory))
    (key : TText) (pjson : Option Nat) : Except Fault Session := do
  let (ret, m) ← make s.memory pjson
  return s.after m ret (pjson.map fun p => ⟨p, key, .object, ret⟩).toList

def perform (s : Session) : Call → Except Fault Session
  | .createCommonRequestJson => do
    let (root, m) ← createCommonRequestJson s.memory
    return s.after m (some root) [⟨root, JSON_COMMON_REQUEST_TRANSITIONID, .null, none⟩,
      ⟨root, JSON_COMMON_REQUEST_MAGICID, .null, none⟩]
  | .createJsonContent i => s.create createJsonContent JSON_COMMON_CONTENT_KEY (s.pointer i)
  | .writeJsonType i strType => do
    let (ret, m) ← writeJsonType s.memory (s.pointer i) strType
    return s.after m ret ((s.pointer i).map fun p =>
      ⟨p, JSON_COMMON_CTYPE_KEY, .string (some (cStr strType)), none⟩).toList
  | .crateJsonValue i => s.create crateJsonValue JSON_COMMON_CVALUE_KEY (s.pointer i)
  | .addItemToObject i string value => do
    let (item, m) ← addNew s.memory (s.pointer i) string value
    return s.after m (some item)
      ((s.pointer i).map fun p => ⟨p, string, value, some item⟩).toList

/-- A call that comes to an end. -/
def step (s : Session) (c : Call) : Option Session := (s.perform c).toOption

end Session

/-! ## 3. What an object is to hold -/

def writesTo (ws : List Write) (o : Nat) : List Write := ws.filter fun w => w.object = o

/-- The last write to an object under this key, in whatever case. -/
def lastWrite (ws : List Write) (o : Nat) (key : TText) : Option Write :=
  ((writesTo ws o).filter fun w => SameKey w.key key).getLast?

/-- The item at `i` is what was written. -/
def Shows (m : Memory) (i : Nat) (w : Write) : Prop :=
  ∃ n, m.cell i = some n ∧ n.string = some w.key ∧ n.type = w.value.item.type ∧
    n.valuestring = w.value.item.valuestring ∧ ∀ a, w.returned = some a → i = a

/-- The items of an object, in a list that is well formed, have different keys, each was written,
and the last value written under a key is there. -/
def HoldsWritten (m : Memory) (ws : List Write) (o : Nat) : Prop :=
  ∃ n items, m.cell o = some n ∧ ChildList m none n.child items ∧
    items.Pairwise (fun i j => ∀ k l, m.cell i = some k → m.cell j = some l →
      strcasecmp k.string l.string ≠ 0) ∧
    (∀ i ∈ items, ∃ w ∈ writesTo ws o, Shows m i w) ∧
    ∀ key w, lastWrite ws o key = some w → ∃ i ∈ items, Shows m i w

/-- The call ends, and every object that was returned holds what was written to it. -/
def Session.Keeps (s : Session) (c : Call) : Prop :=
  ∃ t, s.perform c = .ok t ∧ ∀ o, some o ∈ t.results → HoldsWritten t.memory t.written o

/-- Nothing was written to the object under this key, in whatever case. -/
def NewKey (ws : List Write) (o : Nat) (key : TText) : Prop :=
  ∀ w ∈ writesTo ws o, ¬SameKey w.key key

/-- The object a call writes to and the key it writes. -/
def Session.entry (s : Session) : Call → Option (Nat × TText)
  | .createCommonRequestJson => none
  | .createJsonContent i => (s.pointer i).map fun p => (p, JSON_COMMON_CONTENT_KEY)
  | .writeJsonType i _ => (s.pointer i).map fun p => (p, JSON_COMMON_CTYPE_KEY)
  | .crateJsonValue i => (s.pointer i).map fun p => (p, JSON_COMMON_CVALUE_KEY)
  | .addItemToObject i string _ => (s.pointer i).map fun p => (p, string)

/-- The call does not write a key that was written to the object before. -/
def Session.WritesNewKey (s : Session) (c : Call) : Prop :=
  ∀ o key, s.entry c = some (o, key) → NewKey s.written o key

/-! ## 4. Items in memory -/

/-- Every item there is has a list of its own, which shows what was written to the item, each key
once. -/
structure Forest (m : Memory) (ws : List Write) (items : Nat → List Nat) : Prop where
  ordered : Ordered m
  lists : ∀ a n, m.cell a = some n → ChildList m none n.child (items a)
  bare : ∀ a, m.cell a = none → items a = []
  nodup : ∀ a, (items a).Nodup
  apart : ∀ a b i, i ∈ items a → i ∈ items b → a = b
  shown : ∀ a, List.Forall₂ (Shows m) (items a) (writesTo ws a)
  keys : ∀ a, (writesTo ws a).Pairwise fun w w' => ¬SameKey w.key w'.key

variable {m : Memory} {ws : List Write} {items : Nat → List Nat} {o item : Nat} {key : TText}

theorem forest_start : Forest .empty [] fun _ => [] where
  ordered := nofun
  lists := nofun
  bare _ _ := rfl
  nodup _ := List.nodup_nil
  apart := nofun
  shown _ := .nil
  keys _ := .nil

theorem Shows.alive {i : Nat} {w : Write} (h : Shows m i w) : m.Live i :=
  have ⟨n, hn, _⟩ := h
  ⟨n, hn⟩

theorem Forest.shows (h : Forest m ws items) {i : Nat} (hi : i ∈ items o) :
    ∃ w ∈ writesTo ws o, Shows m i w := by
  have ⟨k, hk, hget⟩ := List.getElem_of_mem hi
  have hlen := (h.shown o).length_eq
  have hshows := (h.shown o).get hk (hlen ▸ hk)
  rw [List.get_eq_getElem, hget] at hshows
  exact ⟨_, List.get_mem .., hshows⟩

theorem Forest.shown_of_mem (h : Forest m ws items) {w : Write} (hw : w ∈ writesTo ws o) :
    ∃ i ∈ items o, Shows m i w := by
  have ⟨k, hk, hget⟩ := List.getElem_of_mem hw
  have hlen := (h.shown o).length_eq
  have hshows := (h.shown o).get (hlen ▸ hk) hk
  rw [List.get_eq_getElem, List.get_eq_getElem, hget] at hshows
  exact ⟨_, List.getElem_mem .., hshows⟩

theorem Forest.alive (h : Forest m ws items) {i : Nat} (hi : i ∈ items o) : m.Live i :=
  have ⟨_, _, hshows⟩ := h.shows hi
  hshows.alive

theorem Forest.lt_fresh (h : Forest m ws items) {i : Nat} (hi : i ∈ items o) : i < m.fresh :=
  have ⟨n, hn⟩ := h.alive hi
  (h.ordered i n hn).1

theorem Forest.length_le (h : Forest m ws items) (o : Nat) : (items o).length ≤ m.fresh := by
  have hsub : items o ⊆ List.range m.fresh := fun i hi => List.mem_range.mpr (h.lt_fresh hi)
  have hle := ((h.nodup o).subperm hsub).length_le
  rwa [List.length_range] at hle

theorem hasKey_iff_of_shows {i : Nat} {w : Write} (h : Shows m i w) :
    m.hasKey key i = true ↔ SameKey w.key key := by
  have ⟨n, hn, hstring, _⟩ := h
  rw [hasKey_of_some hn, hstring, decide_eq_true_eq, strcasecmp_eq_zero]

theorem Forest.hasKey_of_new (h : Forest m ws items) (hnew : NewKey ws o key) :
    ∀ i ∈ items o, m.hasKey key i = false := by
  intro i hi
  have ⟨w, hw, hshows⟩ := h.shows hi
  apply Bool.eq_false_iff.mpr
  exact fun hkey => hnew w hw ((hasKey_iff_of_shows hshows).mp hkey)

/-- Each object of such a forest holds what was written, and nothing else. -/
theorem Forest.holdsWritten (h : Forest m ws items) (hlive : m.Live o) : HoldsWritten m ws o := by
  have ⟨n, hn⟩ := hlive
  refine ⟨n, items o, hn, h.lists o n hn, ?_, fun i hi => h.shows hi, fun key w hw => ?_⟩
  · have hlen := (h.shown o).length_eq
    apply List.pairwise_iff_getElem.mpr
    intro i j hi hj hij k l hk hl
    have hkeys := List.pairwise_iff_getElem.mp (h.keys o) i j (hlen ▸ hi) (hlen ▸ hj) hij
    have ⟨k', hk', hks, _⟩ := (h.shown o).get hi (hlen ▸ hi)
    have ⟨l', hl', hls, _⟩ := (h.shown o).get hj (hlen ▸ hj)
    obtain rfl := Option.some.inj (hk.symm.trans hk')
    obtain rfl := Option.some.inj (hl.symm.trans hl')
    rw [hks, hls]
    exact fun hzero => hkeys (strcasecmp_eq_zero.mp hzero)
  · exact h.shown_of_mem (List.mem_of_mem_filter (List.mem_of_getLast? hw))

/-! ### A new item -/

theorem newItem_cell_of_ne {n : CJson} {a : Nat} (ha : a ≠ m.fresh) :
    (m.newItem n).2.cell a = m.cell a := Function.update_of_ne ha ..

theorem Ordered.cell_fresh (h : Ordered m) : m.cell m.fresh = none := by
  cases hn : m.cell m.fresh with
  | none => rfl
  | some n => exact absurd (h _ n hn).1 (Nat.lt_irrefl _)

theorem Shows.congr {m' : Memory} {i : Nat} {w : Write} (h : Shows m i w)
    (hsame : ∀ n, m.cell i = some n → ∃ n', m'.cell i = some n' ∧ n'.string = n.string ∧
      n'.type = n.type ∧ n'.valuestring = n.valuestring) : Shows m' i w := by
  have ⟨n, hn, hstring, htype, hvalue, hreturned⟩ := h
  have ⟨n', hn', hstring', htype', hvalue'⟩ := hsame n hn
  exact ⟨n', hn', hstring'.trans hstring, htype'.trans htype, hvalue'.trans hvalue, hreturned⟩

/-- A new item is linked to nothing and has no key. -/
theorem Value.item_bare (v : Value) :
    v.item.next = none ∧ v.item.prev = none ∧ v.item.child = none ∧ v.item.string = none := by
  cases v with
  | string s => cases s <;> exact ⟨rfl, rfl, rfl, rfl⟩
  | null | object => exact ⟨rfl, rfl, rfl, rfl⟩

theorem Forest.newItem (h : Forest m ws items) (v : Value) :
    Forest (m.newItem v.item).2 ws items := by
  have hout : ∀ a, ∀ i ∈ items a, (m.newItem v.item).2.cell i = m.cell i := fun a i hi =>
    newItem_cell_of_ne (Nat.ne_of_lt (h.lt_fresh hi))
  have hself : (m.newItem v.item).2.cell m.fresh = some v.item := Function.update_self ..
  have ⟨hnext, _, hchild, _⟩ := v.item_bare
  constructor
  · intro a n hn
    by_cases ha : a = m.fresh
    · obtain rfl := Option.some.inj ((ha ▸ hself).symm.trans hn)
      refine ⟨ha ▸ Nat.lt_succ_self _, fun b hb => ?_⟩
      rw [hnext, hchild] at hb
      rcases hb with hb | hb <;> cases hb
    · have ⟨hlt, hlater⟩ := h.ordered a n ((newItem_cell_of_ne ha).symm.trans hn)
      refine ⟨Nat.lt_succ_of_lt hlt, fun b hb => ?_⟩
      exact ⟨(hlater b hb).1, Nat.lt_succ_of_lt (hlater b hb).2⟩
  · intro a n hn
    by_cases ha : a = m.fresh
    · obtain rfl := Option.some.inj ((ha ▸ hself).symm.trans hn)
      rw [ha, h.bare _ h.ordered.cell_fresh]
      exact hchild
    · apply (h.lists a n ((newItem_cell_of_ne ha).symm.trans hn)).congr
      exact fun i hi k hk => ⟨k, (hout a i hi).trans hk, rfl, rfl⟩
  · intro a hn
    by_cases ha : a = m.fresh
    · exact ha ▸ h.bare _ h.ordered.cell_fresh
    · exact h.bare a ((newItem_cell_of_ne ha).symm.trans hn)
  · exact h.nodup
  · exact h.apart
  · intro a
    apply (h.shown a).imp
    intro i w hshows
    apply hshows.congr
    intro n hn
    have hi : i ≠ m.fresh := Nat.ne_of_lt (h.ordered i n hn).1
    exact ⟨n, (newItem_cell_of_ne hi).trans hn, rfl, rfl, rfl⟩
  · exact h.keys

/-! ### An item put behind the others -/

section Attach

variable {L : List Nat} {n : CJson} {a : Nat}

theorem attach_item (o : Nat) (key : TText) (L : List Nat) (h : m.cell item = some n) :
    (m.attach o key item L).cell item =
      some { n with string := some key, prev := L.getLast? } := by
  simp only [Memory.attach, if_true, h, Option.map_some]

theorem attach_none (h : m.cell a = none) : (m.attach o key item L).cell a = none := by
  simp only [Memory.attach, h, Option.map_none, ite_self]

/-- Of the other items the last one gets a link and the object, if it had none, a child. -/
theorem attach_of_ne (o : Nat) (key : TText) (L : List Nat) (hne : a ≠ item)
    (h : m.cell a = some n) :
    ∃ n', (m.attach o key item L).cell a = some n' ∧ n'.prev = n.prev ∧ n'.string = n.string ∧
      n'.type = n.type ∧ n'.valuestring = n.valuestring ∧
      n'.next = (if L.getLast? = some a then some item else n.next) ∧
      n'.child = (if L = [] ∧ a = o then some item else n.child) := by
  unfold Memory.attach
  simp only [if_neg hne, h, Option.map_some]
  by_cases hlast : L.getLast? = some a
  · have hL : ¬(L = [] ∧ a = o) := by
      intro ⟨hnil, _⟩
      rw [hnil] at hlast
      cases hlast
    rw [if_pos hlast, if_pos hlast, if_neg hL]
    exact ⟨_, rfl, rfl, rfl, rfl, rfl, rfl, rfl⟩
  · rw [if_neg hlast, if_neg hlast]
    by_cases hL : L = [] ∧ a = o
    · rw [if_pos hL, if_pos hL]
      exact ⟨_, rfl, rfl, rfl, rfl, rfl, rfl, rfl⟩
    · rw [if_neg hL, if_neg hL]
      exact ⟨_, rfl, rfl, rfl, rfl, rfl, rfl, rfl⟩

theorem attach_alive : (m.attach o key item L).Live a ↔ m.Live a := by
  constructor
  · intro ⟨n', hn'⟩
    cases hn : m.cell a with
    | none => cases (attach_none hn).symm.trans hn'
    | some n => exact ⟨n, hn⟩
  · intro ⟨n, hn⟩
    by_cases ha : a = item
    · subst ha
      exact ⟨_, attach_item o key L hn⟩
    · have ⟨n', hn', _⟩ := attach_of_ne o key L ha hn
      exact ⟨n', hn'⟩

/-- An item that was just made. -/
structure JustMade (m : Memory) (items : Nat → List Nat) (item : Nat) (n : CJson) : Prop where
  cell : m.cell item = some n
  prev : n.prev = none
  next : n.next = none
  string : n.string = none
  last : item + 1 = m.fresh
  bare : items item = []
  out : ∀ a, item ∉ items a

theorem attach_ordered (h : Ordered m) (hmade : JustMade m items item n) (hne : o ≠ item)
    (hout : item ∉ L) : Ordered (m.attach o key item L) := by
  intro a n' hn'
  have hfresh : (m.attach o key item L).fresh = m.fresh := rfl
  have hlast := hmade.last
  by_cases ha : a = item
  · subst ha
    obtain rfl := Option.some.inj ((attach_item o key L hmade.cell).symm.trans hn')
    exact h a n hmade.cell
  · have ⟨k, hk⟩ : m.Live a := attach_alive.mp ⟨n', hn'⟩
    have ⟨k', hk', _, _, _, _, hnext, hchild⟩ :=
      attach_of_ne o key L ha hk
    obtain rfl := Option.some.inj (hk'.symm.trans hn')
    have ⟨hlt, hlater⟩ := h a k hk
    refine ⟨hlt, fun b hb => ?_⟩
    rw [hfresh]
    -- a link is an old one or leads to the new item
    have hb : b = item ∨ k.next = some b ∨ k.child = some b := by
      rw [hnext, hchild] at hb
      rcases hb with hb | hb <;> split at hb
      · exact .inl (Option.some.inj hb).symm
      · exact .inr (.inl hb)
      · exact .inl (Option.some.inj hb).symm
      · exact .inr (.inr hb)
    rcases hb with rfl | hb
    · omega
    · exact hlater b hb

/-- The list of the object, with the new item at its end. -/
theorem attach_list {c : Option Nat} (h : ChildList m none c L) (hnodup : L.Nodup)
    (hmade : JustMade m items item n) (hout : item ∉ L) {c' : Option Nat}
    (hc : c' = if L = [] then some item else c) :
    ChildList (m.attach o key item L) none c' (L ++ [item]) := by
  have hitem := attach_item o key L hmade.cell
  rcases List.eq_nil_or_concat L with hL | ⟨init, last, hL⟩
  · rw [hL] at hitem hc ⊢
    exact ⟨hc, _, hitem, rfl, hmade.next⟩
  · rw [List.concat_eq_append] at hL
    subst hL
    have hne : init ++ [last] ≠ [] := List.append_ne_nil_of_right_ne_nil _ (List.cons_ne_nil _ _)
    rw [if_neg hne] at hc
    subst hc
    have hlast : (init ++ [last]).getLast? = some last := List.getLast?_concat ..
    have hinit : last ∉ init := by
      have := (List.nodup_append.mp hnodup).2.2
      exact fun hmem => this last hmem last (List.mem_singleton_self _) rfl
    have hnot : ∀ a ∈ init ++ [last], a ≠ item := fun a ha heq => hout (heq ▸ ha)
    apply h.snoc hinit
    · intro a ha k hk
      have ⟨k', hk', hprev, _, _, _, hnext, _⟩ := attach_of_ne o key (init ++ [last])
        (hnot a (List.mem_append_left _ ha)) hk
      have hal : some last ≠ some a := fun heq => hinit (Option.some.inj heq ▸ ha)
      rw [hlast, if_neg hal] at hnext
      exact ⟨k', hk', hnext, hprev⟩
    · intro k hk
      have ⟨k', hk', hprev, _, _, _, hnext, _⟩ := attach_of_ne o key (init ++ [last])
        (hnot last (List.mem_append_right _ (List.mem_singleton_self _))) hk
      rw [hlast, if_pos rfl] at hnext
      exact ⟨k', hk', hnext, hprev⟩
    · rw [hlast] at hitem
      exact ⟨_, hitem, hmade.next, rfl⟩

end Attach

theorem writesTo_append (ws : List Write) (w : Write) (a : Nat) :
    writesTo (ws ++ [w]) a = writesTo ws a ++ if w.object = a then [w] else [] := by
  rw [writesTo, List.filter_append, List.filter_cons, List.filter_nil, writesTo]
  by_cases ha : w.object = a
  · rw [if_pos (decide_eq_true ha), if_pos ha]
  · rw [if_neg (by rw [decide_eq_false ha]; exact Bool.false_ne_true), if_neg ha]

/-- A new item under a new key. -/
theorem Forest.attach (h : Forest m ws items) {n : CJson} (hmade : JustMade m items item n)
    (hlive : m.Live o) (hne : o ≠ item) {w : Write} (hobject : w.object = o) (hkey : w.key = key)
    (htype : n.type = w.value.item.type) (hvalue : n.valuestring = w.value.item.valuestring)
    (hreturned : ∀ a, w.returned = some a → item = a) (hnew : NewKey ws o key) :
    Forest (m.attach o key item (items o)) (ws ++ [w])
      (Function.update items o (items o ++ [item])) := by
  have hself : Function.update items o (items o ++ [item]) o = items o ++ [item] :=
    Function.update_self ..
  have hothers : ∀ a, a ≠ o → Function.update items o (items o ++ [item]) a = items a :=
    fun a ha => Function.update_of_ne ha ..
  have hitem := attach_item o key (items o) hmade.cell
  -- no older item is the new one, which has no name yet
  have hshown : ∀ i v, Shows m i v → Shows (m.attach o key item (items o)) i v := by
    intro i v hshows
    have hi : i ≠ item := by
      rintro rfl
      have ⟨k, hk, hstring, _⟩ := hshows
      obtain rfl := Option.some.inj (hk.symm.trans hmade.cell)
      cases hmade.string.symm.trans hstring
    apply hshows.congr
    intro k hk
    have ⟨k', hk', _, hstring, htype, hvalue, _⟩ := attach_of_ne o key (items o) hi hk
    exact ⟨k', hk', hstring, htype, hvalue⟩
  constructor
  case ordered =>
    exact attach_ordered h.ordered hmade hne (hmade.out o)
  -- that of the new item is empty, that of the object longer by it, the others are as before
  case lists =>
    intro a n' hn'
    by_cases ha : a = item
    · subst ha
      obtain rfl := Option.some.inj (hitem.symm.trans hn')
      have hlist := h.lists a n hmade.cell
      rw [hmade.bare] at hlist
      rw [hothers a hne.symm, hmade.bare]
      exact hlist
    · have ⟨k, hk⟩ : m.Live a := attach_alive.mp ⟨n', hn'⟩
      have ⟨k', hk', _, _, _, _, _, hchild⟩ := attach_of_ne o key (items o) ha hk
      obtain rfl := Option.some.inj (hk'.symm.trans hn')
      by_cases hao : a = o
      · subst hao
        rw [hself]
        apply attach_list (h.lists a k hk) (h.nodup a) hmade (hmade.out a)
        simpa only [and_true] using hchild
      · rw [if_neg fun hand => hao hand.2] at hchild
        rw [hothers a hao, hchild]
        apply (h.lists a k hk).congr
        intro i hi l hl
        have hii : i ≠ item := fun heq => hmade.out a (heq ▸ hi)
        have ⟨l', hl', hprev, _, _, _, hnext, _⟩ := attach_of_ne o key (items o) hii hl
        have hlast : (items o).getLast? ≠ some i := fun hlast =>
          hao (h.apart a o i hi (List.mem_of_getLast? hlast))
        rw [if_neg hlast] at hnext
        exact ⟨l', hl', hnext, hprev⟩
  case bare =>
    intro a hn
    have hdead : ¬m.Live a := by
      intro hlive
      have ⟨k, hk⟩ : (m.attach o key item (items o)).Live a := attach_alive.mpr hlive
      cases hn.symm.trans hk
    have hao : a ≠ o := fun heq => hdead (heq ▸ hlive)
    rw [hothers a hao]
    apply h.bare
    exact Option.eq_none_iff_forall_ne_some.mpr fun k hk => hdead ⟨k, hk⟩
  case nodup =>
    intro a
    by_cases ha : a = o
    · rw [ha, hself]
      apply List.Nodup.append (h.nodup o) (List.nodup_singleton _)
      exact List.disjoint_singleton.mpr (hmade.out o)
    · exact hothers a ha ▸ h.nodup a
  case apart =>
    intro a b i hi hj
    by_cases hii : i = item
    · have hown : ∀ c, i ∈ Function.update items o (items o ++ [item]) c → c = o := by
        intro c hc
        by_contra hco
        exact hmade.out c (hii ▸ hothers c hco ▸ hc)
      rw [hown a hi, hown b hj]
    · have hold : ∀ c, i ∈ Function.update items o (items o ++ [item]) c → i ∈ items c := by
        intro c hc
        by_cases hco : c = o
        · rw [hco, hself] at hc
          have := (List.mem_append.mp hc).resolve_right fun hs => hii (List.mem_singleton.mp hs)
          exact hco ▸ this
        · exact hothers c hco ▸ hc
      exact h.apart a b i (hold a hi) (hold b hj)
  case shown =>
    intro a
    rw [writesTo_append, hobject]
    by_cases ha : o = a
    · rw [if_pos ha, ← ha, hself]
      apply List.rel_append ((h.shown o).imp hshown)
      refine .cons ⟨_, hitem, ?_, htype, hvalue, hreturned⟩ .nil
      rw [hkey]
    · rw [if_neg ha, List.append_nil, hothers a fun heq => ha heq.symm]
      exact (h.shown a).imp hshown
  case keys =>
    intro a
    rw [writesTo_append, hobject]
    by_cases ha : o = a
    · rw [if_pos ha, ← ha]
      apply List.pairwise_append.mpr
      refine ⟨h.keys o, List.pairwise_singleton .., fun v hv v' hv' => ?_⟩
      rw [List.mem_singleton.mp hv', hkey]
      exact hnew v hv
    · rw [if_neg ha, List.append_nil]
      exact h.keys a

/-! ## 5. One call -/

theorem Forest.justMade (h : Forest m ws items) (v : Value) :
    JustMade (m.newItem v.item).2 items m.fresh v.item where
  cell := Function.update_self ..
  prev := v.item_bare.2.1
  next := v.item_bare.1
  string := v.item_bare.2.2.2
  last := rfl
  bare := h.bare _ h.ordered.cell_fresh
  out _ hmem := Nat.lt_irrefl _ (h.lt_fresh hmem)

theorem live_newItem {n : CJson} {a : Nat} (hlive : m.Live a) : (m.newItem n).2.Live a := by
  by_cases ha : a = m.fresh
  · exact ⟨n, ha ▸ Function.update_self ..⟩
  · have ⟨k, hk⟩ := hlive
    exact ⟨k, (newItem_cell_of_ne ha).trans hk⟩

theorem addNew_eq (m : Memory) (object : Option Nat) (key : TText) (v : Value) :
    addNew m object key v =
      (addItemToObject (m.newItem v.item).2 object key (some m.fresh)).map fun m' =>
        (m.fresh, m') := by
  rw [addNew]
  change (addItemToObject (m.newItem v.item).2 object key (some m.fresh) >>= _) = _
  cases addItemToObject (m.newItem v.item).2 object key (some m.fresh) <;> rfl

theorem Forest.ne_fresh (h : Forest m ws items) (hlive : m.Live o) : o ≠ m.fresh := by
  have ⟨n, hn⟩ := hlive
  exact Nat.ne_of_lt (h.ordered o n hn).1

/-- Under a new key the item is there and so is all that was there before. -/
theorem Forest.addNew_new (h : Forest m ws items) (hlive : m.Live o) (hnew : NewKey ws o key)
    (v : Value) (returned : Option Nat) (hreturned : ∀ a, returned = some a → m.fresh = a) :
    ∃ m' items', addNew m (some o) key v = .ok (m.fresh, m') ∧
      Forest m' (ws ++ [⟨o, key, v, returned⟩]) items' ∧ m'.Live m.fresh ∧
      ∀ a, m.Live a → m'.Live a := by
  have hmade := h.justMade v
  have hforest := h.newItem v
  have ⟨n, hn⟩ : (m.newItem v.item).2.Live o := live_newItem hlive
  have hne := h.ne_fresh hlive
  have hadd := addItemToObject_new hn (hforest.lists o n hn) (hforest.length_le o) hmade.cell
    hmade.prev hne (hmade.out o) (hforest.hasKey_of_new hnew)
  refine ⟨_, _, ?_, hforest.attach hmade ⟨n, hn⟩ hne rfl rfl rfl rfl hreturned hnew, ?_, ?_⟩
  · rw [addNew_eq, hadd]
    rfl
  · exact attach_alive.mpr ⟨_, hmade.cell⟩
  · exact fun a ha => attach_alive.mpr (live_newItem ha)

/-- Under a key that was written before the call uses an item it freed. -/
theorem Forest.addNew_old (h : Forest m ws items) (hlive : m.Live o) (hold : ¬NewKey ws o key)
    (v : Value) : addNew m (some o) key v = .error .dangling := by
  have hforest := h.newItem v
  have ⟨n, hn⟩ : (m.newItem v.item).2.Live o := live_newItem hlive
  have ⟨w, hw, hsame⟩ : ∃ w ∈ writesTo ws o, SameKey w.key key := by
    by_contra hno
    exact hold fun w hw hsame => hno ⟨w, hw, hsame⟩
  have ⟨i, hi, hshows⟩ := hforest.shown_of_mem hw
  rw [addNew_eq, addItemToObject_old hforest.ordered hn (hforest.lists o n hn)
    (hforest.length_le o) (h.ne_fresh hlive) ((h.justMade v).out o) hi
    ((hasKey_iff_of_shows hshows).mpr hsame)]
  rfl

/-- All calls so far wrote new keys. -/
structure Sound (s : Session) : Prop where
  forest : ∃ items, Forest s.memory s.written items
  alive : ∀ o, some o ∈ s.results → s.memory.Live o

variable {s : Session} {c : Call}

theorem sound_start : Sound .start := ⟨⟨_, forest_start⟩, nofun⟩

theorem Sound.pointer_alive (h : Sound s) {i p : Nat} (hp : s.pointer i = some p) :
    s.memory.Live p := by
  apply h.alive
  exact List.mem_of_getElem? (Option.join_eq_some_iff.mp hp)

theorem Sound.after (h : Sound s) {m' : Memory} {ret : Option Nat} {ws' : List Write}
    {items' : Nat → List Nat} (hforest : Forest m' (s.written ++ ws') items')
    (hkept : ∀ a, s.memory.Live a → m'.Live a) (hret : ∀ o, ret = some o → m'.Live o) :
    Sound (s.after m' ret ws') where
  forest := ⟨items', hforest⟩
  alive o ho := by
    rcases List.mem_append.mp ho with ho | ho
    · exact hkept o (h.alive o ho)
    · exact hret o (List.mem_singleton.mp ho).symm

theorem create_eq (s : Session) (key : TText) (o : Nat) :
    s.create (createUnder key) key (some o) = (addNew s.memory (some o) key .object).map fun p =>
      s.after p.2 (some p.1) [⟨o, key, .object, some p.1⟩] := by
  simp only [Session.create, createUnder]
  cases addNew s.memory (some o) key .object <;> rfl

/-- A call that writes under a key does so by one `cJSON_AddItemToObject`, and returns the item or
the object. -/
theorem perform_entry (hentry : s.entry c = some (o, key)) :
    ∃ v, ∃ ret returned : Nat → Option Nat,
      (∃ i, s.pointer i = some o) ∧ (∀ i, ret i = some i ∨ ret i = some o) ∧
      (∀ i a, returned i = some a → i = a) ∧
      s.perform c = (addNew s.memory (some o) key v).map fun p =>
        s.after p.2 (ret p.1) [⟨o, key, v, returned p.1⟩] := by
  cases c with
  | createCommonRequestJson => cases hentry
  | createJsonContent i =>
    have ⟨p, hp, heq⟩ := Option.map_eq_some_iff.mp hentry
    cases heq
    refine ⟨.object, some, some, ⟨i, hp⟩, fun _ => .inl rfl, fun _ _ h => Option.some.inj h, ?_⟩
    simp only [Session.perform, createJsonContent, hp, create_eq]
  | writeJsonType i strType =>
    have ⟨p, hp, heq⟩ := Option.map_eq_some_iff.mp hentry
    cases heq
    refine ⟨.string (some (cStr strType)), fun _ => some o, fun _ => none, ⟨i, hp⟩,
      fun _ => .inr rfl, nofun, ?_⟩
    simp only [Session.perform, writeJsonType, hp]
    cases addNew s.memory (some o) JSON_COMMON_CTYPE_KEY (.string (some (cStr strType))) <;> rfl
  | crateJsonValue i =>
    have ⟨p, hp, heq⟩ := Option.map_eq_some_iff.mp hentry
    cases heq
    refine ⟨.object, some, some, ⟨i, hp⟩, fun _ => .inl rfl, fun _ _ h => Option.some.inj h, ?_⟩
    simp only [Session.perform, crateJsonValue, hp, create_eq]
  | addItemToObject i string value =>
    have ⟨p, hp, heq⟩ := Option.map_eq_some_iff.mp hentry
    cases heq
    refine ⟨value, some, some, ⟨i, hp⟩, fun _ => .inl rfl, fun _ _ h => Option.some.inj h, ?_⟩
    simp only [Session.perform, hp]
    cases addNew s.memory (some o) key value <;> rfl

/-- `CreateCommonRequestJson` writes two keys to an object it made. -/
theorem Sound.perform_common (h : Sound s) :
    ∃ t, s.perform .createCommonRequestJson = .ok t ∧ Sound t := by
  have ⟨items, hforest⟩ := h.forest
  have hroot := hforest.newItem .object
  have hbare : writesTo s.written s.memory.fresh = [] := by
    have hlen := (hroot.shown s.memory.fresh).length_eq
    rw [(hforest.justMade .object).bare] at hlen
    exact List.eq_nil_of_length_eq_zero hlen.symm
  have hlive : (s.memory.newItem Value.object.item).2.Live s.memory.fresh :=
    ⟨_, (hforest.justMade .object).cell⟩
  have hfirst : NewKey s.written s.memory.fresh JSON_COMMON_REQUEST_TRANSITIONID := by
    rw [NewKey, hbare]
    exact nofun
  have ⟨m₁, items₁, hadd₁, hforest₁, _, hkept₁⟩ :=
    hroot.addNew_new hlive hfirst .null none nofun
  have hsecond : NewKey (s.written ++ [⟨s.memory.fresh, JSON_COMMON_REQUEST_TRANSITIONID, .null,
      none⟩]) s.memory.fresh JSON_COMMON_REQUEST_MAGICID := by
    intro w hw
    rw [writesTo_append, hbare, if_pos rfl, List.nil_append] at hw
    rw [List.mem_singleton.mp hw]
    change ¬SameKey JSON_COMMON_REQUEST_TRANSITIONID JSON_COMMON_REQUEST_MAGICID
    decide
  have ⟨m₂, items₂, hadd₂, hforest₂, _, hkept₂⟩ :=
    hforest₁.addNew_new (hkept₁ _ hlive) hsecond .null none nofun
  have hcall : createCommonRequestJson s.memory = .ok (s.memory.fresh, m₂) := by
    rw [createCommonRequestJson]
    change (addNew (s.memory.newItem Value.object.item).2 (some s.memory.fresh)
      JSON_COMMON_REQUEST_TRANSITIONID .null >>= _) = _
    rw [hadd₁]
    change (addNew m₁ (some s.memory.fresh) JSON_COMMON_REQUEST_MAGICID .null >>= _) = _
    rw [hadd₂]
    rfl
  rw [List.append_assoc] at hforest₂
  refine ⟨_, by rw [Session.perform, hcall]; rfl, h.after hforest₂ ?_ fun o ho => ?_⟩
  · exact fun a ha => hkept₂ a (hkept₁ a (live_newItem ha))
  · exact Option.some.inj ho ▸ hkept₂ _ (hkept₁ _ hlive)

theorem Sound.perform_new (h : Sound s) (hnew : s.WritesNewKey c) :
    ∃ t, s.perform c = .ok t ∧ Sound t := by
  have ⟨items, hforest⟩ := h.forest
  cases hentry : s.entry c with
  | some entry =>
    have ⟨v, ret, returned, ⟨i, hp⟩, hret, hreturned, heq⟩ := perform_entry hentry
    have ⟨m', items', hadd, hforest', hitem, hkept⟩ := hforest.addNew_new (h.pointer_alive hp)
      (hnew _ _ hentry) v _ (hreturned s.memory.fresh)
    refine ⟨_, by rw [heq, hadd]; rfl, h.after hforest' hkept fun o ho => ?_⟩
    rcases hret s.memory.fresh with hr | hr
    · exact Option.some.inj (hr.symm.trans ho) ▸ hitem
    · exact Option.some.inj (hr.symm.trans ho) ▸ hkept _ (h.pointer_alive hp)
  | none =>
    have hsame : Forest s.memory (s.written ++ []) items :=
      (List.append_nil s.written).symm ▸ hforest
    have hnull : Sound (s.after s.memory none []) := h.after hsame (fun _ ha => ha) nofun
    cases c with
    | createCommonRequestJson => exact h.perform_common
    | createJsonContent i =>
      have hp : s.pointer i = none := Option.map_eq_none_iff.mp hentry
      refine ⟨_, ?_, hnull⟩
      simp only [Session.perform, hp]
      rfl
    | writeJsonType i strType =>
      have hp : s.pointer i = none := Option.map_eq_none_iff.mp hentry
      refine ⟨_, ?_, hnull⟩
      simp only [Session.perform, writeJsonType, hp]
      rfl
    | crateJsonValue i =>
      have hp : s.pointer i = none := Option.map_eq_none_iff.mp hentry
      refine ⟨_, ?_, hnull⟩
      simp only [Session.perform, hp]
      rfl
    | addItemToObject i string value =>
      -- the item is made and belongs to no object
      have hp : s.pointer i = none := Option.map_eq_none_iff.mp hentry
      have hforest' : Forest (s.memory.newItem value.item).2 (s.written ++ []) items :=
        (List.append_nil s.written).symm ▸ hforest.newItem value
      refine ⟨s.after (s.memory.newItem value.item).2 (some s.memory.fresh) [], ?_,
        h.after hforest' (fun _ => live_newItem) fun o ho => ?_⟩
      · simp only [Session.perform, hp]
        rfl
      · exact Option.some.inj ho ▸ ⟨_, (hforest.justMade value).cell⟩

theorem Sound.perform_old (h : Sound s) (hold : ¬s.WritesNewKey c) :
    s.perform c = .error .dangling := by
  have ⟨items, hforest⟩ := h.forest
  have ⟨o, key, hentry, hwritten⟩ : ∃ o key, s.entry c = some (o, key) ∧
      ¬NewKey s.written o key := by
    by_contra hno
    exact hold fun o key hentry => by_contra fun hw => hno ⟨o, key, hentry, hw⟩
  have ⟨v, ret, returned, ⟨i, hp⟩, _, _, heq⟩ := perform_entry hentry
  rw [heq, hforest.addNew_old (h.pointer_alive hp) hwritten v]
  rfl

/-! ## 6. Sessions -/

theorem Sound.keeps_iff (h : Sound s) : s.WritesNewKey c ↔ s.Keeps c := by
  constructor
  · intro hnew
    have ⟨t, ht, hsound⟩ := h.perform_new hnew
    have ⟨_, hforest⟩ := hsound.forest
    exact ⟨t, ht, fun o ho => hforest.holdsWritten (hsound.alive o ho)⟩
  · intro ⟨t, ht, _⟩
    by_contra hold
    rw [h.perform_old hold] at ht
    cases ht

/-- The calls of a session all end and leave every object with what was written to it just when each
of them writes keys that are new to their object. -/
theorem session_keeps_iff (calls : List Call) :
    RunMeets Session.step Session.Keeps .start calls ↔
      RunMeets Session.step Session.WritesNewKey .start calls := by
  symm
  apply runMeets_congr_of_invariant (I := Sound) _ (fun _ _ h => h.keeps_iff) sound_start
  intro s c t h hnew hstep
  have ⟨u, hu, hsound⟩ := h.perform_new hnew
  rw [Session.step, hu] at hstep
  exact Option.some.inj hstep ▸ hsound

/-- `WriteJsonType` twice on a request: the second call comes upon the item it freed. -/
theorem type_twice_dangles :
    ¬RunMeets Session.step Session.Keeps .start
      [.createCommonRequestJson, .writeJsonType 0 (lit "a"), .writeJsonType 0 (lit "b")] := by
  intro ⟨_, hrest⟩
  have ⟨_, hlast⟩ := hrest _ rfl
  have ⟨⟨_, hdone, _⟩, _⟩ := hlast _ rfl
  cases hdone

end VerifyServer.Protocol
