import Switchboard.Proofs.Roster
import Switchboard.Proofs.System

/-!
# Names of leaves

A leaf is entered under its own name when the name is first used, and is found by it from then on.
Triples take the leaf that they register from there. A meter is entered too, but in the place of
whatever leaf had its name. So a name leads to one leaf exactly until a meter takes the name over.

* `register_eq`: what registering a leaf on a hub by their names does.
* `step_names`: what an operation does to the names of leaves.
* `leaf?_run_iff`: a name leads to one leaf until a meter takes it.
* `leafNames`: the leaves that were put on hubs by their names, after any operations.
-/

namespace Switchboard

namespace Board

variable {A : Action → Prop} {E : Edit → Prop} {b b' b'' : Board}

/-! ### Leaves stay and keep their names -/

theorem leaves_newHub (b : Board) (name : String) (withHistory : Bool) :
    (b.newHub name withHistory).1.leaves.size = b.leaves.size + 2 := by
  show ((b.leaves.add _).add _).size = _
  rw [Store.size_add, Store.size_add]

theorem Change.leafCount (hc : Change A E b b') : b.leaves.size ≤ b'.leaves.size := by
  cases hc with
  | move m => exact m.frame.leafCount
  | openHub name id _ _ _ =>
    exact Nat.le_trans (Nat.le_add_right _ 2) (Nat.le_of_eq (leaves_newHub b name true).symm)
  | makeHub label name _ =>
    exact Nat.le_trans (Nat.le_add_right _ 2) (Nat.le_of_eq (leaves_newHub b name false).symm)
  | newLeaf x free _ => exact (Kept.newLeaf b free).leafCount
  | addLeaf h predicate l _ _ free _ => exact leaves_addLeaf free
  | write l vs time _ _ => exact (Frame.writeLeaf b l vs time).leafCount
  | sample l m m' time body =>
    exact (Frame.modifyLeaf b (f := ({ · with body := .meter m', updatedAt := time }))
      ⟨rfl, by simp [Leaf.sort, body]⟩ rfl).leafCount
  | _ => exact Nat.le_refl _

/-- A leaf keeps its name when one is registered. -/
theorem leafName_addLeaf (b : Board) (h : HubId) (predicate : String) (l k : LeafId) :
    ((b.addLeaf h predicate l).1.leaf k).name = (b.leaf k).name := by
  cases free : (b.hub h).table.byPredicate.contains predicate with
  | true => rw [addLeaf_of_taken free]
  | false =>
    rw [leaf_addLeaf free]
    split
    · rename_i hk
      rw [hk]
      rfl
    · rfl

/-- A leaf keeps its name for good. -/
theorem Change.leafName (hc : Change A E b b') {l : LeafId} (hl : l.index < b.leaves.size) :
    (b'.leaf l).name = (b.leaf l).name := by
  cases hc with
  | move m => exact (m.frame.leaf l).name
  | openHub name id legal _ _ =>
    rw [newHub_true name legal]
    exact congrArg Leaf.name (leaf_addHub_of_lt name (b.disk.openFile id).1
      (some ⟨name, id, (b.disk.openFile id).2⟩) hl)
  | makeHub label name _ =>
    rw [newHub_false]
    exact congrArg Leaf.name (leaf_addHub_of_lt name b.disk none hl)
  | newLeaf x _ _ =>
    have hne : (b.newLeaf x).2 ≠ l := by
      rintro rfl
      exact absurd hl (Nat.lt_irrefl _)
    rw [leaf_newLeaf, if_neg hne]
  | addLeaf h predicate k _ _ _ _ => exact leafName_addLeaf b h predicate k l
  | write k vs time _ _ => exact ((Frame.writeLeaf b k vs time).leaf l).name
  | sample k m m' time body =>
    exact ((Frame.modifyLeaf b (f := ({ · with body := .meter m', updatedAt := time }))
      ⟨rfl, by simp [Leaf.sort, body]⟩ rfl).leaf l).name
  | _ => rfl

theorem ChangesBy.leafName (hc : ChangesBy A E b b') {l : LeafId} (hl : l.index < b.leaves.size) :
    (b'.leaf l).name = (b.leaf l).name ∧ l.index < b'.leaves.size := by
  induction hc with
  | refl => exact ⟨rfl, hl⟩
  | tail _ hc ih => exact ⟨(hc.leafName ih.2).trans ih.1, Nat.lt_of_lt_of_le ih.2 hc.leafCount⟩

/-- A predicate of a hub leads to one leaf, whatever is done. -/
theorem ChangesBy.place (hc : ChangesBy A E b b') {h : HubId} {p : String} {l : LeafId}
    (hg : (b.hub h).table.byPredicate.get? p = some l) :
    (b'.hub h).table.byPredicate.get? p = some l := by
  induction hc with
  | refl => exact hg
  | tail _ hc ih => exact hc.place ih

/-- A leaf that is known by name was made. -/
theorem Sound.leaf?_lt (hb : Sound b) {name : String} {l : LeafId} (hn : b.leaf? name = some l) :
    l.index < b.leaves.size :=
  (hb.fair l (isKnownLeaf_of_leaf? hn)).room

/-! ### How leaves are entered -/

/-- **A leaf is entered**: it was just made, and its name leads to it from now on. -/
structure Enters (b b' : Board) (name : String) (l : LeafId) : Prop where
  leaves : b'.registry.leaves = b.registry.leaves.put name l
  new : b.leaves.size ≤ l.index
  room : l.index < b'.leaves.size
  named : (b'.leaf l).name = name

/-- What is done to a board before and after a leaf is entered, as long as it concerns neither the
names of leaves nor the leaf. -/
theorem Enters.among {a c : Board} {name : String} {l : LeafId} (he : Enters b b' name l)
    (before : b.registry.leaves = a.registry.leaves) (count : a.leaves.size ≤ b.leaves.size)
    (after : c.registry.leaves = b'.registry.leaves) (count' : b'.leaves.size ≤ c.leaves.size)
    (same : (c.leaf l).name = (b'.leaf l).name) : Enters a c name l where
  leaves := by rw [after, he.leaves, before]
  new := Nat.le_trans count he.new
  room := Nat.lt_of_lt_of_le he.room count'
  named := same.trans he.named

theorem Enters.leaf? {name : String} {l : LeafId} (he : Enters b b' name l) (other : String) :
    b'.leaf? other = if name = other then some l else b.leaf? other := by
  rw [Board.leaf?, he.leaves, Register.get?_put]
  rfl

/-- A leaf that is made under a name and entered. -/
theorem enters_newLeaf (b : Board) (x : Leaf) :
    Enters b ((b.newLeaf x).1.enterLeaf x.name (b.newLeaf x).2) x.name (b.newLeaf x).2 where
  leaves := rfl
  new := Nat.le_refl _
  room := by
    show b.leaves.size < (b.leaves.add x).size
    rw [Store.size_add]
    exact Nat.lt_succ_self _
  named := by
    show ((b.newLeaf x).1.leaf (b.newLeaf x).2).name = x.name
    rw [leaf_newLeaf, if_pos rfl]

/-- Opening a hub does not concern the names of leaves. -/
theorem leaves_openHub {name : String} {h : HubId} (ho : b.openHub name = .ok (b', h)) :
    b'.registry.leaves = b.registry.leaves ∧ b.leaves.size ≤ b'.leaves.size := by
  rcases openHub_cases ho with ⟨-, rfl⟩ | ⟨id, legal, -, rfl, -⟩
  · exact ⟨rfl, Nat.le_refl _⟩
  · refine ⟨?_, ?_⟩
    · rw [newHub_true name legal]
      rfl
    · exact Nat.le_trans (Nat.le_add_right _ 2) (Nat.le_of_eq (leaves_newHub b name true).symm)

/-- A name that leads to a leaf is known already, or the leaf is entered. -/
theorem openLeaf_enters {name : String} {l : LeafId} (ho : b.openLeaf name = .ok (b', l)) :
    (b.leaf? name = some l ∧ b' = b) ∨ (b.leaf? name = none ∧ Enters b b' name l) := by
  cases hn : b.leaf? name with
  | some k =>
    unfold openLeaf at ho
    rw [hn] at ho
    cases hk : Name.leafKind? name with
    | none =>
      rw [hk] at ho
      cases ho
    | some kind =>
      rw [hk] at ho
      cases ho
      exact .inl ⟨rfl, rfl⟩
  | none =>
    rcases openLeaf_cases ho with ⟨hl, -⟩ | ⟨make, rfl, rfl⟩
    · rw [hn] at hl
      cases hl
    · have hname : (make.leaf name b.now).name = name := by cases make <;> rfl
      have he := enters_newLeaf b (make.leaf name b.now)
      rw [hname] at he
      exact .inr ⟨rfl, he⟩

/-- Offering a leaf to a hub does not concern the registries. -/
theorem registry_addLeaf_fst (b : Board) (h : HubId) (predicate : String) (l : LeafId) :
    (b.addLeaf h predicate l).1.registry = b.registry := by
  cases free : (b.hub h).table.byPredicate.contains predicate with
  | true => rw [addLeaf_of_taken free]
  | false => exact registry_addLeaf free

theorem leafCount_addLeaf (b : Board) (h : HubId) (predicate : String) (l : LeafId) :
    b.leaves.size ≤ (b.addLeaf h predicate l).1.leaves.size := by
  cases free : (b.hub h).table.byPredicate.contains predicate with
  | true => exact Nat.le_of_eq (by rw [addLeaf_of_taken free])
  | false => exact leaves_addLeaf free

/-- **What registering a leaf on a hub by their names does**, if both names are legal: both are
opened, and the leaf is offered to the hub. -/
theorem register_eq {subject id name : String} {kind : Name.LeafKind}
    (hs : Name.hubId? subject = some id) (hk : Name.leafKind? name = some kind) (b : Board)
    (predicate : String) : ∃ b1 h b2 l, b.openHub subject = .ok (b1, h) ∧
      b1.openLeaf name = .ok (b2, l) ∧
      b.register subject predicate name = ((b2.addLeaf h predicate l).1, .registered) := by
  obtain ⟨b1, h, h1⟩ := openHub_of_legal (b := b) hs
  have h2 : ∃ b2 l, b1.openLeaf name = .ok (b2, l) := by
    cases hn : b1.leaf? name with
    | some l =>
      refine ⟨b1, l, ?_⟩
      unfold openLeaf
      rw [hk, hn]
    | none =>
      obtain ⟨make, hm⟩ := openLeaf_of_new hk hn
      exact ⟨_, _, hm⟩
  obtain ⟨b2, l, h2⟩ := h2
  refine ⟨b1, h, b2, l, h1, h2, ?_⟩
  unfold register
  rw [h1]
  dsimp only
  rw [h2]

/-- What becomes of the names of leaves when one is registered by its name. -/
theorem register_enters {subject id name : String} {kind : Name.LeafKind}
    (hs : Name.hubId? subject = some id) (hk : Name.leafKind? name = some kind) (b : Board)
    (predicate : String) :
    (b.register subject predicate name).1.registry.leaves = b.registry.leaves ∨
      (b.leaf? name = none ∧ ∃ l, Enters b (b.register subject predicate name).1 name l) := by
  obtain ⟨b1, h, b2, l, h1, h2, he⟩ := register_eq hs hk b predicate
  obtain ⟨hr, hc⟩ := leaves_openHub h1
  have hr' := congrArg Registry.leaves (registry_addLeaf_fst b2 h predicate l)
  rw [he]
  rcases openLeaf_enters h2 with ⟨-, rfl⟩ | ⟨hn, hx⟩
  · exact .inl (hr'.trans hr)
  · refine .inr ⟨?_, l, hx.among hr hc hr' (leafCount_addLeaf b2 h predicate l)
      (leafName_addLeaf b2 h predicate l l)⟩
    rw [leaf?, ← hr]
    exact hn

/-- A meter whose predicate is free on the hub. -/
theorem addMeter_of_free {h : HubId} {predicate : String}
    (free : (b.hub h).table.byPredicate.contains predicate = false) (name : String) :
    b.addMeter h predicate name =
      (((((b.newLeaf (.meter name b.settings.leastWindow b.now)).1.addLeaf h predicate
        ⟨b.leaves.size⟩).1.enterLeaf name ⟨b.leaves.size⟩).track ⟨b.leaves.size⟩),
          ⟨b.leaves.size⟩) := by
  have hadd : (b.newLeaf (.meter name b.settings.leastWindow b.now)).1.addLeaf h predicate
      ⟨b.leaves.size⟩ = (((b.newLeaf (.meter name b.settings.leastWindow b.now)).1.addLeaf h
        predicate ⟨b.leaves.size⟩).1, true) := by
    refine Prod.ext rfl ?_
    have free' : ((b.newLeaf (.meter name b.settings.leastWindow b.now)).1.hub
      h).table.byPredicate.contains predicate = false := free
    rw [addLeaf, free']
    rfl
  unfold addMeter
  dsimp only [newLeaf] at hadd ⊢
  rw [hadd]

/-- A meter whose predicate is not free stays off the hub, and is not entered. -/
theorem addMeter_of_taken {h : HubId} {predicate : String}
    (taken : (b.hub h).table.byPredicate.contains predicate = true) (name : String) :
    (b.addMeter h predicate name).1 =
      (b.newLeaf (.meter name b.settings.leastWindow b.now)).1 := by
  have taken' : ((b.newLeaf (.meter name b.settings.leastWindow b.now)).1.hub
    h).table.byPredicate.contains predicate = true := taken
  unfold addMeter
  dsimp only
  rw [addLeaf_of_taken taken']

/-- A leaf that is entered may be registered first, and tracked afterwards. -/
theorem Enters.registered {name : String} {l : LeafId} (he : Enters b (b'.enterLeaf name l) name l)
    (h : HubId) (predicate : String) :
    Enters b (((b'.addLeaf h predicate l).1.enterLeaf name l).track l) name l := by
  have hr := registry_addLeaf_fst b' h predicate l
  exact he.among rfl (Nat.le_refl _) (congrArg (fun r => r.leaves.put name l) hr)
    (leafCount_addLeaf b' h predicate l) (leafName_addLeaf b' h predicate l l)

/-- A meter is entered if its predicate is free. -/
theorem addMeter_enters {h : HubId} {predicate : String}
    (free : (b.hub h).table.byPredicate.contains predicate = false) (name : String) :
    Enters b (b.addMeter h predicate name).1 name ⟨b.leaves.size⟩ := by
  rw [addMeter_of_free free]
  exact (enters_newLeaf b (.meter name b.settings.leastWindow b.now)).registered h predicate

/-! ### What operations do to the names of leaves -/

/-- Whether an operation makes a meter that takes a name, from another leaf if one has it. -/
def takes (b : Board) (name : String) : Op → Bool
  | .addMeter _ h predicate other =>
    other = name && b.isHubHeld h && !(b.hub h).table.byPredicate.contains predicate
  | _ => false

/-- Whether a meter takes a name in the course of a run. -/
def isTaken (b : Board) (name : String) : List Op → Bool
  | [] => false
  | op :: ops => b.takes name op || (b.step op).isTaken name ops

theorem takes_addMeter {label name predicate other : String} {h : HubId} :
    b.takes name (.addMeter label h predicate other) = true ↔ other = name ∧ b.isHubHeld h = true ∧
      (b.hub h).table.byPredicate.contains predicate = false := by
  rw [takes, Bool.and_eq_true, Bool.and_eq_true, decide_eq_true_eq, Bool.not_eq_true', and_assoc]

/-- A change that registers nothing leaves the names of leaves alone. -/
theorem Change.leaves (hc : Change A E b b') (he : ¬ E .register) :
    b'.registry.leaves = b.registry.leaves := by
  cases hc with
  | move m => rw [m.frame.registry]
  | openHub _ _ _ _ allowed => exact absurd allowed he
  | makeHub _ _ allowed => exact absurd allowed he
  | enterLeaf _ _ _ allowed => exact absurd allowed he
  | addLeaf _ _ _ _ _ _ allowed => exact absurd allowed he
  | _ => rfl

/-- What may become of the names of leaves: nothing, or a name that led nowhere, or is taken by a
meter, leads to a new leaf. -/
def Names (b b' : Board) (op : Op) : Prop :=
  (b'.registry.leaves = b.registry.leaves ∧ ∀ name, b.takes name op = false) ∨
  ∃ name l, Enters b b' name l ∧ (b.leaf? name = none ∧ (∀ other, b.takes other op = false) ∨
    ∀ other, b.takes other op = true ↔ name = other)

theorem addMeter_names (b : Board) (label : String) (h : HubId) (predicate name : String) :
    Names b (b.step (.addMeter label h predicate name)) (.addMeter label h predicate name) := by
  cases held : b.isHubHeld h with
  | false =>
    refine .inl ⟨?_, fun other => ?_⟩
    · rw [step, held]
      rfl
    · rw [takes, held, Bool.and_false]
      rfl
  | true =>
    rw [step, held, onlyIf_true]
    cases free : (b.hub h).table.byPredicate.contains predicate with
    | true =>
      refine .inl ⟨?_, fun other => ?_⟩
      · rw [addMeter_of_taken free]
        rfl
      · rw [takes, free, Bool.not_true, Bool.and_false]
    | false =>
      have hx := addMeter_enters free name
      generalize b.addMeter h predicate name = r at hx
      refine .inr ⟨name, _, hx.among rfl (Nat.le_refl _) rfl (Nat.le_refl _) rfl, .inr ?_⟩
      intro other
      rw [takes_addMeter]
      exact ⟨And.left, fun hn => ⟨hn, held, free⟩⟩

/-- The triples that register a leaf, and what they come to. -/
theorem classify_iri (b : Board) (subject predicate name : String) :
    (∃ id kind, Name.hubId? subject = some id ∧ Name.leafKind? name = some kind ∧
      b.classify subject predicate (.iri name) = b.register subject predicate name) ∨
    b.classify subject predicate (.iri name) = (b, .ignored) := by
  rw [classify]
  split
  · rename_i h
    rw [Bool.and_eq_true, Option.isSome_iff_exists, Option.isSome_iff_exists] at h
    obtain ⟨⟨id, hs⟩, ⟨kind, hk⟩⟩ := h
    exact .inl ⟨id, kind, hs, hk, rfl⟩
  · exact .inr rfl

theorem classify_names (b : Board) (subject predicate name : String) :
    Names b (b.step (.classify subject predicate (.iri name)))
      (.classify subject predicate (.iri name)) := by
  refine onlyIf_of (P := fun c => Names b c (.classify subject predicate (.iri name)))
    (.inl ⟨rfl, fun _ => rfl⟩) fun _ => ?_
  rcases classify_iri b subject predicate name with ⟨id, kind, hs, hk, he⟩ | he <;> rw [he]
  · rcases register_enters hs hk b predicate with hr | ⟨hn, l, hx⟩
    · exact .inl ⟨hr, fun _ => rfl⟩
    · exact .inr ⟨name, l, hx, .inl ⟨hn, fun _ => rfl⟩⟩
  · exact .inl ⟨rfl, fun _ => rfl⟩

/-- **What an operation does to the names of leaves.** -/
theorem step_names (hb : Sound b) (op : Op) : Names b (b.step op) op := by
  have hquiet : op.edit? ≠ some .register → (b.step op).registry.leaves = b.registry.leaves := by
    intro hne
    have hc := step_changesBy hb (plansWithin_true b) op.plansWithin_true
    generalize b.step op = b' at hc
    induction hc with
    | refl => rfl
    | tail _ hc ih => exact (hc.leaves hne).trans ih
  cases op with
  | openHub name =>
    refine .inl ⟨?_, fun _ => rfl⟩
    rw [step]
    cases ho : b.openHub name with
    | error e => rfl
    | ok r => exact (leaves_openHub ho).1
  | makeHub label name =>
    refine .inl ⟨?_, fun _ => rfl⟩
    rw [step, newHub_false]
    rfl
  | openLeaf name =>
    rw [step]
    cases ho : b.openLeaf name with
    | error e => exact .inl ⟨rfl, fun _ => rfl⟩
    | ok r =>
      rcases openLeaf_enters ho with ⟨-, he⟩ | ⟨hn, hx⟩
      · exact .inl ⟨congrArg (Registry.leaves ∘ Board.registry) he, fun _ => rfl⟩
      · exact .inr ⟨name, _, hx, .inl ⟨hn, fun _ => rfl⟩⟩
  | makeLeaf label kind name => exact .inl ⟨rfl, fun _ => rfl⟩
  | labelLeaf label l =>
    exact .inl ⟨onlyIf_of (P := (·.registry.leaves = b.registry.leaves)) rfl fun _ => rfl,
      fun _ => rfl⟩
  | addLeaf h predicate l =>
    exact .inl ⟨onlyIf_of (P := (·.registry.leaves = b.registry.leaves)) rfl
      fun _ => congrArg Registry.leaves (registry_addLeaf_fst b h predicate l), fun _ => rfl⟩
  | addMeter label h predicate name => exact addMeter_names b label h predicate name
  | classify subject predicate object =>
    cases object with
    | literal v => exact .inl ⟨hquiet (by rintro ⟨⟩), fun _ => rfl⟩
    | iri name => exact classify_names b subject predicate name
  | _ => exact .inl ⟨hquiet (by rintro ⟨⟩), fun _ => rfl⟩

/-! ### A name leads to one leaf until a meter takes it -/

/-- A name that is not taken leads where it led. -/
theorem leaf?_step (hb : Sound b) {op : Op} {name : String} {l : LeafId}
    (hn : b.leaf? name = some l) (ht : b.takes name op = false) :
    (b.step op).leaf? name = some l := by
  rcases step_names hb op with ⟨hr, -⟩ | ⟨other, k, hx, hother⟩
  · rw [leaf?, hr]
    exact hn
  · rw [hx.leaf?, if_neg]
    · exact hn
    · rintro rfl
      rcases hother with ⟨hfree, -⟩ | htakes
      · rw [hfree] at hn
        cases hn
      · rw [(htakes other).2 rfl] at ht
        cases ht

/-- A name that is taken leads to the new meter. -/
theorem enters_of_takes (hb : Sound b) {op : Op} {name : String} (ht : b.takes name op = true) :
    ∃ l, Enters b (b.step op) name l := by
  rcases step_names hb op with ⟨-, hno⟩ | ⟨other, l, hx, ⟨-, hno⟩ | htakes⟩
  · rw [hno] at ht
    cases ht
  · rw [hno] at ht
    cases ht
  · rw [(htakes name).1 ht] at hx
    exact ⟨l, hx⟩

/-- Where a name leads after an operation it led before, or the leaf is new. -/
theorem leaf?_step_cases (hb : Sound b) {op : Op} {name : String} {l : LeafId}
    (hn : (b.step op).leaf? name = some l) :
    b.leaf? name = some l ∨ Enters b (b.step op) name l := by
  rcases step_names hb op with ⟨hr, -⟩ | ⟨other, k, hx, -⟩
  · rw [leaf?, hr] at hn
    exact .inl hn
  · rw [hx.leaf?] at hn
    split at hn
    · rename_i he
      cases hn
      exact .inr (he ▸ hx)
    · exact .inl hn

/-- A name does not lead back to a leaf that it does not lead to any more. -/
theorem leaf?_run_ne (hb : Sound b) {name : String} {l : LeafId} (hl : l.index < b.leaves.size)
    (lost : b.leaf? name ≠ some l) (ops : List Op) : (b.run ops).leaf? name ≠ some l := by
  induction ops generalizing b with
  | nil => exact lost
  | cons op ops ih =>
    have hl' := ((step_changes hb op).leafName hl).2
    refine ih (step_sound hb op) hl' fun hn => ?_
    rcases leaf?_step_cases hb hn with hn | hx
    · exact lost hn
    · exact absurd hl (Nat.not_lt.2 hx.new)

/-- **A name leads to one leaf exactly until a meter takes it.** -/
theorem leaf?_run_iff (hb : Sound b) {name : String} {l : LeafId} (hn : b.leaf? name = some l)
    (ops : List Op) : (b.run ops).leaf? name = some l ↔ b.isTaken name ops = false := by
  induction ops generalizing b with
  | nil => exact iff_of_true hn rfl
  | cons op ops ih =>
    rw [run_cons, isTaken]
    cases ht : b.takes name op with
    | false =>
      rw [Bool.false_or]
      exact ih (step_sound hb op) (leaf?_step hb hn ht)
    | true =>
      -- the meter is a new leaf, and the old one does not get its name back
      obtain ⟨k, hx⟩ := enters_of_takes hb ht
      have hl := hb.leaf?_lt hn
      refine iff_of_false (leaf?_run_ne (step_sound hb op) ((step_changes hb op).leafName hl).2
        (fun he => ?_) ops) (by simp)
      rw [hx.leaf?, if_pos rfl] at he
      cases he
      exact absurd hl (Nat.not_lt.2 hx.new)

/-- Whether every name leads to a leaf of that name. -/
def IsNamed (b : Board) : Prop := ∀ name l, b.leaf? name = some l → (b.leaf l).name = name

theorem isNamed_start (settings : Settings) (wall : Timestamp) (disk : Disk) :
    (start settings wall disk).IsNamed := by
  intro name l hn
  rw [leaf?, start_eq, Register.get?_put, Register.get?_put] at hn
  rw [start_eq]
  split at hn
  · rename_i he
    cases hn
    exact he
  · split at hn
    · rename_i he
      cases hn
      exact he
    · cases hn

theorem step_isNamed (hb : Sound b) (hn : b.IsNamed) (op : Op) : (b.step op).IsNamed := by
  intro name l hl
  rcases leaf?_step_cases hb hl with hl | hx
  · rw [((step_changes hb op).leafName (hb.leaf?_lt hl)).1]
    exact hn name l hl
  · exact hx.named

theorem Reachable.isNamed (hb : Reachable b) : b.IsNamed := by
  obtain ⟨settings, wall, disk, ops, hd, rfl⟩ := hb
  have hs := sound_start settings wall disk hd
  have hn := isNamed_start settings wall disk
  generalize start settings wall disk = b at hs hn
  induction ops generalizing b with
  | nil => exact hn
  | cons op ops ih => exact ih _ (step_sound hs op) (step_isNamed hs hn op)

/-! ### Leaves that are put on hubs by their names -/

/-- **A leaf was just put on a hub by its name**: it is there at the start, or by the last
operation, which offers a triple or makes a meter. -/
inductive JustPut : Board → HubId → String → LeafId → Prop
  | start {settings : Settings} {wall : Timestamp} {disk : Disk} {h : HubId} {p : String}
    {l : LeafId} (there : ((start settings wall disk).hub h).table.byPredicate.get? p = some l) :
    JustPut (start settings wall disk) h p l
  | classify {b : Board} {subject predicate p : String} {o : TripleObject} {h : HubId} {l : LeafId}
    (hb : Reachable b) (free : (b.hub h).table.byPredicate.get? p = none)
    (put : ((b.step (.classify subject predicate o)).hub h).table.byPredicate.get? p = some l) :
    JustPut (b.step (.classify subject predicate o)) h p l
  | addMeter {b : Board} {label predicate name : String} {k h : HubId} {p : String} {l : LeafId}
    (hb : Reachable b) (free : (b.hub h).table.byPredicate.get? p = none)
    (put : ((b.step (.addMeter label k predicate name)).hub h).table.byPredicate.get? p = some l) :
    JustPut (b.step (.addMeter label k predicate name)) h p l

/-- What came onto a hub by a registration is the leaf that was registered. -/
theorem eq_of_addLeaf {h k : HubId} {predicate p : String} {l x : LeafId}
    (free : (b.hub h).table.byPredicate.get? p = none)
    (put : ((b.addLeaf k predicate x).1.hub h).table.byPredicate.get? p = some l) : l = x := by
  cases hc : (b.hub k).table.byPredicate.contains predicate with
  | true =>
    rw [addLeaf_of_taken hc] at put
    cases free.symm.trans put
  | false =>
    rw [hub_addLeaf hc] at put
    split at put
    · rename_i hk
      subst hk
      change ((b.hub k).table.add predicate x).byPredicate.get? p = some l at put
      rw [LeafTable.byPredicate_add, Register.get?_put] at put
      split at put
      · cases put
        rfl
      · cases free.symm.trans put
    · cases free.symm.trans put

/-- A new hub has no registered leaves. -/
theorem get?_openHub {name : String} {k h : HubId} {p : String} (ho : b.openHub name = .ok (b', k))
    (free : (b.hub h).table.byPredicate.get? p = none) :
    (b'.hub h).table.byPredicate.get? p = none := by
  rcases openHub_cases ho with ⟨-, rfl⟩ | ⟨id, legal, -, rfl, -⟩
  · exact free
  · show ((b.newHub name true).1.hub h).table.byPredicate.get? p = none
    rw [newHub_true name legal, hub_addHub]
    split
    · rfl
    · exact free

theorem hub_openLeaf {name : String} {l : LeafId} (ho : b.openLeaf name = .ok (b', l)) (h : HubId) :
    b'.hub h = b.hub h := by
  rcases openLeaf_cases ho with ⟨-, rfl⟩ | ⟨make, rfl, -⟩ <;> rfl

theorem leaf?_openLeaf {name : String} {l : LeafId} (ho : b.openLeaf name = .ok (b', l)) :
    b'.leaf? name = some l := by
  rcases openLeaf_enters ho with ⟨hn, rfl⟩ | ⟨-, hx⟩
  · exact hn
  · rw [hx.leaf?, if_pos rfl]

theorem hub_setValues (b : Board) (k : HubId) (predicate : String) (vs : List Literal) (h : HubId) :
    (b.setValues k predicate vs).1.hub h = b.hub h := by
  rcases setValues_cases b k predicate vs with ⟨tx, l, -, -, he⟩ | ⟨-, he⟩ <;> rw [he]
  rfl

/-- What a triple put on a hub is known by the name in it. -/
theorem classify_put {subject predicate : String} {object : TripleObject} {h : HubId} {p : String}
    {l : LeafId} (free : (b.hub h).table.byPredicate.get? p = none)
    (put : ((b.classify subject predicate object).1.hub h).table.byPredicate.get? p = some l) :
    ∃ name, (b.classify subject predicate object).1.leaf? name = some l := by
  cases object with
  | literal v =>
    -- a value that is written registers nothing
    have same : (b.classify subject predicate (.literal v)).1.hub h = b.hub h := by
      rw [classify]
      split
      · exact hub_setValues b _ predicate [v] h
      · rfl
    rw [same, free] at put
    cases put
  | iri name =>
    rcases classify_iri b subject predicate name with ⟨id, kind, hs, hk, he⟩ | he <;>
      rw [he] at put ⊢
    · obtain ⟨b1, k, b2, x, h1, h2, he⟩ := register_eq hs hk b predicate
      rw [he] at put ⊢
      have free2 : (b2.hub h).table.byPredicate.get? p = none := by
        rw [hub_openLeaf h2]
        exact get?_openHub h1 free
      refine ⟨name, ?_⟩
      rw [eq_of_addLeaf free2 put, leaf?, registry_addLeaf_fst]
      exact leaf?_openLeaf h2
    · cases free.symm.trans put

/-- A meter that was put on a hub is known by its name. -/
theorem addMeter_put {k h : HubId} {predicate name p : String} {l : LeafId}
    (free : (b.hub h).table.byPredicate.get? p = none)
    (put : ((b.addMeter k predicate name).1.hub h).table.byPredicate.get? p = some l) :
    (b.addMeter k predicate name).1.leaf? name = some l := by
  cases hc : (b.hub k).table.byPredicate.contains predicate with
  | true =>
    rw [addMeter_of_taken hc] at put
    cases free.symm.trans put
  | false =>
    rw [addMeter_of_free hc] at put
    have he : l = ⟨b.leaves.size⟩ :=
      eq_of_addLeaf (b := (b.newLeaf (.meter name b.settings.leastWindow b.now)).1) free put
    rw [he, (addMeter_enters hc name).leaf?, if_pos rfl]

/-- At the start the leaves of the system hub are known. -/
theorem start_put {settings : Settings} {wall : Timestamp} {disk : Disk} {h : HubId} {p : String}
    {l : LeafId} (there : ((start settings wall disk).hub h).table.byPredicate.get? p = some l) :
    ∃ name, (start settings wall disk).leaf? name = some l := by
  rw [hub_start] at there
  split at there
  · have hl := Register.mem_values_of_get? there
    rw [values_systemHub] at hl
    rw [start_eq]
    rcases List.mem_cons.1 hl with rfl | hl
    · exact ⟨Name.connectionsLeaf, by rw [leaf?, Register.get?_put_of_ne _ (by decide),
        Register.get?_put_self]⟩
    · rcases List.mem_singleton.1 hl with rfl
      exact ⟨Name.sendRateLeaf, Register.get?_put_self ..⟩
  · cases there

/-- **What was put on a hub by its name is found by it.** -/
theorem JustPut.known {h : HubId} {p : String} {l : LeafId} (hp : JustPut b h p l) :
    (b.hub h).table.byPredicate.get? p = some l ∧ ∃ name, b.leaf? name = some l := by
  cases hp with
  | start there => exact ⟨there, start_put there⟩
  | @classify b subject predicate object _ _ _ _ free put =>
    refine ⟨put, ?_⟩
    rw [step] at put ⊢
    cases ht : b.transaction.isSome with
    | false =>
      rw [ht] at put
      cases free.symm.trans put
    | true =>
      rw [ht, onlyIf_true] at put
      exact classify_put free put
  | @addMeter b label predicate name k _ _ _ _ free put =>
    refine ⟨put, name, ?_⟩
    rw [step] at put ⊢
    cases held : b.isHubHeld k with
    | false =>
      rw [held] at put
      cases free.symm.trans put
    | true =>
      rw [held, onlyIf_true] at put
      exact addMeter_put free put

/-- **The names of leaves**, on every reachable board and after any operations. A leaf that is given
out for a name is what the name leads to. It has that name, and the name leads there exactly until a
meter takes it. A leaf that was put on a hub by its name stays there. Its name leads to it exactly
until a meter takes the name, and until then what is read by the name is what the hub shows under
the predicate. -/
theorem leafNames (hb : Reachable b) (ops : List Op) :
    (∀ name b' l, b.openLeaf name = .ok (b', l) →
      b' = b.step (.openLeaf name) ∧ b'.leaf? name = some l) ∧
    (∀ name l, b.leaf? name = some l → ((b.run ops).leaf l).name = name ∧
      ((b.run ops).leaf? name = some l ↔ b.isTaken name ops = false)) ∧
    ∀ h p l, JustPut b h p l →
      ((b.run ops).hub h).table.byPredicate.get? p = some l ∧
      ((b.run ops).leaf? ((b.run ops).leaf l).name = some l ↔
        b.isTaken ((b.run ops).leaf l).name ops = false) ∧
      (b.isTaken ((b.run ops).leaf l).name ops = false → ∀ time,
        (b.run ops).leafValues? ((b.run ops).leaf l).name =
          (((b.run ops).hub h).table.capture (b.run ops).leaf time).get? p) := by
  have hfound : ∀ name l, b.leaf? name = some l → ((b.run ops).leaf l).name = name ∧
      ((b.run ops).leaf? name = some l ↔ b.isTaken name ops = false) := by
    intro name l hn
    refine ⟨?_, leaf?_run_iff hb.sound hn ops⟩
    rw [((run_changes hb.sound ops).leafName (hb.sound.leaf?_lt hn)).1]
    exact hb.isNamed name l hn
  refine ⟨fun name b' l ho => ⟨by rw [step, ho, orElse], leaf?_openLeaf ho⟩, hfound, ?_⟩
  intro h p l hp
  obtain ⟨there, name, hn⟩ := hp.known
  obtain ⟨hname, hiff⟩ := hfound name l hn
  have hplace := (run_changes hb.sound ops).place there
  rw [hname]
  refine ⟨hplace, hiff, fun ht time => ?_⟩
  rw [leafValues?, hiff.2 ht, LeafTable.get?_capture hplace]
  rfl

/-- A board on which a triple has put the leaf with a name on a hub. -/
def namedLeaf : Board :=
  (start {} default {}).run [.openTransaction .triple,
    .classify (Name.hubName "r") "http://x/v" (.iri (Name.leafBase ++ "n"))]

theorem reachable_namedLeaf : Reachable namedLeaf :=
  ⟨{}, default, {}, _, Disk.sound_empty, rfl⟩

theorem justPut_namedLeaf : JustPut namedLeaf ⟨1⟩ "http://x/v" ⟨6⟩ :=
  .classify (b := (start {} default {}).run [.openTransaction .triple])
    ⟨{}, default, {}, _, Disk.sound_empty, rfl⟩ (by decide +kernel) (by decide +kernel)

/-- A triple puts the leaf on another hub, and a meter of another name is made. -/
def sharing : List Op :=
  [.classify (Name.hubName "s") "http://x/w" (.iri (Name.leafBase ++ "n")),
    .addMeter "m" ⟨2⟩ "http://x/m" (Name.leafBase ++ "m")]

/-- The name leads to the leaf as long as it is shared, and does not once a meter has taken it. -/
theorem leafNames_namedLeaf : Reachable namedLeaf ∧ JustPut namedLeaf ⟨1⟩ "http://x/v" ⟨6⟩ ∧
    (namedLeaf.run sharing).leaf? (Name.leafBase ++ "n") = some ⟨6⟩ ∧
    (namedLeaf.run sharing).leafValues? (Name.leafBase ++ "n") =
      (((namedLeaf.run sharing).hub ⟨1⟩).table.capture (namedLeaf.run sharing).leaf default).get?
        "http://x/v" ∧
    (namedLeaf.run [.addMeter "m" ⟨1⟩ "http://x/m" (Name.leafBase ++ "n")]).leaf?
      (Name.leafBase ++ "n") ≠ some ⟨6⟩ := by
  have hn : namedLeaf.leaf? (Name.leafBase ++ "n") = some ⟨6⟩ := by decide +kernel
  have kept : namedLeaf.isTaken (Name.leafBase ++ "n") sharing = false := by decide +kernel
  obtain ⟨-, hfound, hput⟩ := leafNames reachable_namedLeaf sharing
  obtain ⟨hname, hiff⟩ := hfound _ _ hn
  obtain ⟨-, -, hread⟩ := hput _ _ _ justPut_namedLeaf
  rw [hname] at hread
  refine ⟨reachable_namedLeaf, justPut_namedLeaf, hiff.2 kept, hread kept _, ?_⟩
  rw [ne_eq, ((leafNames reachable_namedLeaf _).2.1 _ _ hn).2]
  decide +kernel

end Board

end Switchboard
