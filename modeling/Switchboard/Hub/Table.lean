import Switchboard.Hub.Snapshot
import Switchboard.Leaf
import Switchboard.Literal.Number
import Switchboard.Name

/-!
# The leaves of a hub

A hub keeps its leaves by predicate, and beside them the two slots that are stamped with the
time of a publication. A leaf registered under a reserved predicate takes over its slot.

A published text lists the slots first. The leaves that are in no slot follow under short names:
the trailing segment of the predicate, or the whole predicate if another one ends in the same
segment. Short names are in descending order.
-/

namespace Switchboard

/-- The leaves of a hub by predicate, and the leaves in the reserved slots. -/
structure LeafTable where
  byPredicate : Register LeafId := Register.empty
  instant : LeafId
  datetime : LeafId
  deriving Inhabited

/-- An entry of a published text after the reserved ones. -/
structure ShortName where
  key : String
  predicate : String
  leaf : LeafId
  deriving DecidableEq, Inhabited

namespace LeafTable

/-- The leaf in the slot of a reserved predicate. -/
def slot (t : LeafTable) : Name.Reserved → LeafId
  | .instant => t.instant
  | .datetime => t.datetime

/-- Whether a leaf is in a reserved slot. -/
def isReserved (t : LeafTable) (l : LeafId) : Bool := l = t.instant || l = t.datetime

/-- The table after a leaf is registered under a new predicate. -/
def add (t : LeafTable) (predicate : String) (l : LeafId) : LeafTable :=
  let t := { t with byPredicate := t.byPredicate.put predicate l }
  match Name.Reserved.ofPredicate? predicate with
  | some .instant => { t with instant := l }
  | some .datetime => { t with datetime := l }
  | none => t

/-- Every leaf that the table refers to. -/
def leaves (t : LeafTable) : List LeafId := t.instant :: t.datetime :: t.byPredicate.values

/-- The registered leaves that are in no reserved slot, with their predicates. -/
def indexed (t : LeafTable) : List (String × LeafId) :=
  t.byPredicate.entries.filter fun e => !t.isReserved e.2

/-- Whether no other indexed predicate ends in the same segment. -/
def isUnique (t : LeafTable) (predicate : String) : Bool :=
  (t.indexed.filter fun e => Name.localName e.1 = Name.localName predicate).length = 1

/-- The key of an indexed predicate. -/
def key (t : LeafTable) (predicate : String) : String :=
  if t.isUnique predicate then Name.localName predicate else predicate

/-- Puts an entry before the first one whose key is not greater. -/
def insertDescending (e : ShortName) : List ShortName → List ShortName
  | [] => [e]
  | f :: fs => if f.key ≤ e.key then e :: f :: fs else f :: insertDescending e fs

/-- Entries in descending order of their keys. -/
def sortDescending (es : List ShortName) : List ShortName := es.foldr insertDescending []

/-- The short-name index: the indexed leaves under their keys, in descending order. -/
def shortNames (t : LeafTable) : List ShortName :=
  sortDescending (t.indexed.map fun e => ⟨t.key e.1, e.1, e.2⟩)

/-- The values of all leaves: the slots whose predicate is not registered, then the registered
predicates in order. -/
def capture (t : LeafTable) (leafOf : LeafId → Leaf) (time : Timestamp) : Snapshot where
  takenAt := time
  values :=
    let slots := [Name.Reserved.instant, .datetime].filter fun r =>
      !t.byPredicate.contains r.predicate
    Register.ofList
      (slots.map (fun r => (r.predicate, (leafOf (t.slot r)).values)) ++
        t.byPredicate.entries.map fun e => (e.1, (leafOf e.2).values))

/-- The text of the values of a leaf. -/
def valuesText (array : Bool) (vs : List Literal) : List Char :=
  let items := Text.join [','] (vs.map Literal.json)
  if array then '[' :: items ++ [']'] else items

/-- A member of a published text. -/
def entryText (key : String) (array : Bool) (vs : List Literal) : List Char :=
  Json.quote key.toList ++ ':' :: valuesText array vs

/-- The members of a published text: a key, whether it holds an array, and its values. -/
def entries (t : LeafTable) (leafOf : LeafId → Leaf) (s : Snapshot) :
    List (String × Bool × List Literal) :=
  ([Name.Reserved.instant, .datetime].map fun r =>
    (r.label, (leafOf (t.slot r)).isArray, (s.get? r.predicate).getD [])) ++
  t.shortNames.map fun e => (e.key, (leafOf e.leaf).isArray, (s.get? e.predicate).getD [])

/-- The published text of a snapshot: one JSON object on one line. -/
def render (t : LeafTable) (leafOf : LeafId → Leaf) (s : Snapshot) : List Char :=
  '\x7b' :: Text.join [','] ((t.entries leafOf s).map fun e => entryText e.1 e.2.1 e.2.2) ++
    ['\x7d']

/-! ### What is captured -/

/-- The slots that are captured by themselves: those whose predicate is not registered. -/
def ownSlots (t : LeafTable) : List Name.Reserved :=
  [Name.Reserved.instant, .datetime].filter fun r => !t.byPredicate.contains r.predicate

theorem mem_ownSlots {t : LeafTable} {r : Name.Reserved} :
    r ∈ t.ownSlots ↔ t.byPredicate.contains r.predicate = false := by
  rw [ownSlots, List.mem_filter, Bool.not_eq_true']
  cases r <;> simp

/-- The captured values, in order. -/
theorem entries_capture (t : LeafTable) (leafOf : LeafId → Leaf) (time : Timestamp) :
    (t.capture leafOf time).values.entries =
      t.ownSlots.map (fun r => (r.predicate, (leafOf (t.slot r)).values)) ++
        t.byPredicate.entries.map fun e => (e.1, (leafOf e.2).values) := by
  refine Register.entries_ofList ?_
  rw [List.map_append, List.map_map, List.map_map, List.nodup_append]
  refine ⟨?_, t.byPredicate.distinct, ?_⟩
  · have hs : ([Name.Reserved.instant, .datetime].map Name.Reserved.predicate).Nodup := by decide
    exact hs.sublist (List.filter_sublist.map _)
  · intro p hp q hq hpq
    obtain ⟨r, hr, rfl⟩ := List.mem_map.1 hp
    subst hpq
    have hc : t.byPredicate.contains r.predicate = true := Register.contains_iff.2 hq
    rw [mem_ownSlots.1 hr] at hc
    cases hc

/-- **A snapshot has the reserved predicates and the registered ones**, and no other. -/
theorem contains_capture (t : LeafTable) (leafOf : LeafId → Leaf) (time : Timestamp) (p : String) :
    (t.capture leafOf time).values.contains p = true ↔
      (∃ r : Name.Reserved, p = r.predicate) ∨ t.byPredicate.contains p = true := by
  rw [Register.contains_iff, Register.keys, entries_capture, List.map_append, List.map_map,
    List.map_map, List.mem_append, List.mem_map]
  constructor
  · rintro (⟨r, -, rfl⟩ | hp)
    · exact .inl ⟨r, rfl⟩
    · exact .inr (Register.contains_iff.2 hp)
  · rintro (⟨r, rfl⟩ | hp)
    · cases hc : t.byPredicate.contains r.predicate with
      | false => exact .inl ⟨r, mem_ownSlots.2 hc, rfl⟩
      | true => exact .inr (Register.contains_iff.1 hc)
    · exact .inr (Register.contains_iff.1 hp)

/-- **A snapshot shows the values of a registered leaf.** -/
theorem get?_capture {t : LeafTable} {p : String} {l : LeafId} (h : t.byPredicate.get? p = some l)
    (leafOf : LeafId → Leaf) (time : Timestamp) :
    (t.capture leafOf time).get? p = some (leafOf l).values := by
  rw [Snapshot.get?, Register.get?_eq_some_iff, entries_capture, List.mem_append]
  exact .inr (List.mem_map.2 ⟨(p, l), Register.get?_eq_some_iff.1 h, rfl⟩)

/-! ### Registering a leaf -/

theorem byPredicate_add (t : LeafTable) (predicate : String) (l : LeafId) :
    (t.add predicate l).byPredicate = t.byPredicate.put predicate l := by
  unfold add
  dsimp only
  split <;> rfl

/-- A leaf takes over the slot whose predicate it is registered under. -/
theorem slot_add (t : LeafTable) (predicate : String) (l : LeafId) (r : Name.Reserved) :
    (t.add predicate l).slot r = if predicate = r.predicate then l else t.slot r := by
  have hr : _ = some r ↔ predicate = r.predicate := Name.ofPredicate?_eq_some
  unfold add
  dsimp only
  cases hp : Name.Reserved.ofPredicate? predicate with
  | none =>
    rw [hp] at hr
    rw [if_neg fun h => by cases hr.2 h]
    cases r <;> rfl
  | some q =>
    rw [hp] at hr
    by_cases hq : q = r
    · rw [if_pos (hr.1 (congrArg some hq)), ← hq]
      cases q <;> rfl
    · rw [if_neg fun h => hq (Option.some.inj (hr.2 h))]
      cases q <;> cases r <;> first | rfl | exact absurd rfl hq

theorem isReserved_iff {t : LeafTable} {l : LeafId} :
    t.isReserved l = true ↔ ∃ r, t.slot r = l := by
  rw [isReserved, Bool.or_eq_true, decide_eq_true_eq, decide_eq_true_eq]
  constructor
  · rintro (rfl | rfl)
    · exact ⟨.instant, rfl⟩
    · exact ⟨.datetime, rfl⟩
  · rintro ⟨r, rfl⟩
    cases r with
    | instant => exact .inl rfl
    | datetime => exact .inr rfl

theorem mem_leaves_iff (t : LeafTable) (l : LeafId) :
    l ∈ t.leaves ↔ (∃ r, t.slot r = l) ∨ l ∈ t.byPredicate.values := by
  constructor
  · intro h
    rcases List.mem_cons.1 h with rfl | h
    · exact .inl ⟨.instant, rfl⟩
    · rcases List.mem_cons.1 h with rfl | h
      · exact .inl ⟨.datetime, rfl⟩
      · exact .inr h
  · rintro (⟨r, rfl⟩ | h)
    · cases r
      · exact List.mem_cons_self
      · exact List.mem_cons_of_mem _ List.mem_cons_self
    · exact List.mem_cons_of_mem _ (List.mem_cons_of_mem _ h)

end LeafTable

end Switchboard
