import Switchboard.Proofs.KeptCells

/-!
# Registrations

An operation that registers hubs or leaves publishes nothing. Old leaves keep their content and
their places, new ones are blank, and no other leaf becomes known.

* `OnlyRegisters`: what registrations do, closed under each of the steps that they consist of.
* `step_onlyRegisters`: an operation that registers.
-/

namespace Switchboard

namespace Board

variable {b b' b'' : Board}

/-- **What registrations do**: old leaves keep their content and their places, new ones are blank,
no other leaf becomes known, and nothing is published. -/
structure OnlyRegisters (b b' : Board) : Prop where
  size : b.leaves.size ≤ b'.leaves.size
  body : ∀ l, l.index < b.leaves.size → (b'.leaf l).body = (b.leaf l).body
  blank : ∀ l, b.leaves.size ≤ l.index → l.index < b'.leaves.size → (b'.leaf l).isCell = true →
    (b'.leaf l).values = (b'.leaf l).shown []
  places : ∀ h p l, (b.hub h).table.byPredicate.get? p = some l →
    (b'.hub h).table.byPredicate.get? p = some l
  known : ∀ l, b'.isKnownLeaf l = true → b.isKnownLeaf l = true ∨ b.leaves.size ≤ l.index
  journal : b'.journal = b.journal

namespace OnlyRegisters

protected theorem refl (b : Board) : OnlyRegisters b b where
  size := Nat.le_refl _
  body _ _ := rfl
  blank _ hl hl' := absurd hl' (Nat.not_lt.2 hl)
  places _ _ _ h := h
  known _ h := .inl h
  journal := rfl

/-- Leaves are named or labelled that were known, or are new. -/
theorem relabel (hx : OnlyRegisters b b') (hl : b''.leaves = b'.leaves) (hh : b''.hubs = b'.hubs)
    (hj : b''.journal = b'.journal)
    (hk : ∀ l, b''.isKnownLeaf l = true → b'.isKnownLeaf l = true ∨ b.leaves.size ≤ l.index) :
    OnlyRegisters b b'' where
  size := by rw [hl]; exact hx.size
  body l h := by rw [leaf, hl]; exact hx.body l h
  blank l h h' hc := by
    rw [leaf, hl] at hc ⊢
    rw [hl] at h'
    exact hx.blank l h h' hc
  places h p l hp := by rw [hub, hh]; exact hx.places h p l hp
  known l h := by
    rcases hk l h with h | h
    · exact hx.known l h
    · exact .inr h
  journal := hj.trans hx.journal

theorem newLeaf (hx : OnlyRegisters b b') {x : Leaf}
    (hv : x.isCell = true → x.values = x.shown []) : OnlyRegisters b (b'.newLeaf x).1 where
  size := by
    show b.leaves.size ≤ (b'.leaves.add x).size
    rw [Store.size_add]
    exact Nat.le_succ_of_le hx.size
  body l h := by
    -- the new leaf comes behind all that were there
    have hne : (b'.newLeaf x).2 ≠ l := by
      rintro rfl
      exact absurd (Nat.lt_of_lt_of_le h hx.size) (Nat.lt_irrefl _)
    rw [leaf_newLeaf, if_neg hne]
    exact hx.body l h
  blank l h h' hc := by
    change l.index < (b'.leaves.add x).size at h'
    rw [Store.size_add] at h'
    rw [leaf_newLeaf] at hc ⊢
    split at hc
    · rename_i hl
      rw [if_pos hl]
      exact hv hc
    · rename_i hl
      rw [if_neg hl]
      refine hx.blank l h (Nat.lt_of_le_of_ne (Nat.lt_succ_iff.1 h') fun he => hl ?_) hc
      cases l
      cases he
      rfl
  places := hx.places
  known := hx.known
  journal := hx.journal

/-- A hub with a registered leaf is not the next one to be made. -/
theorem ne_of_get? {h : HubId} {p : String} {l : LeafId}
    (hg : (b.hub h).table.byPredicate.get? p = some l) : b.hubs.size ≠ h.index := by
  intro he
  rw [hub_of_size_le (Nat.le_of_eq he)] at hg
  cases hg

theorem addHub (hx : OnlyRegisters b b') (name : String) (disk : Disk)
    (series : Option TimeSeries) : OnlyRegisters b (b'.addHub name disk series) where
  size := by
    rw [leaves_addHub]
    exact Nat.le_add_right_of_le hx.size
  body l h := by
    rw [leaf_addHub_of_lt _ _ _ (Nat.lt_of_lt_of_le h hx.size)]
    exact hx.body l h
  blank l h h' hc := by
    rw [leaves_addHub] at h'
    rw [leaf_addHub] at hc ⊢
    split at hc
    · rename_i h1
      rw [if_pos h1]
      rfl
    · rename_i h1
      rw [if_neg h1]
      split at hc
      · rename_i h2
        rw [if_pos h2]
        rfl
      · rename_i h2
        rw [if_neg h2]
        exact hx.blank l h (by omega) hc
  places h p l hp := by
    have hg := hx.places h p l hp
    rw [hub_addHub, if_neg (ne_of_get? hg)]
    exact hg
  known l h := hx.known l (isKnownLeaf_addHub l h)
  journal := hx.journal

/-- A free predicate is none under which a leaf is registered. -/
theorem ne_of_free {r : Register LeafId} {p q : String} {l : LeafId} (free : r.contains p = false)
    (hg : r.get? q = some l) : p ≠ q := by
  rintro rfl
  rw [Register.contains, hg] at free
  cases free

/-- What leaves with one content share. -/
theorem of_body {x y : Leaf} (h : y.body = x.body) : y.isCell = x.isCell ∧ y.values = x.values ∧
    ∀ vs, y.shown vs = x.shown vs := by
  unfold Leaf.isCell Leaf.sort Leaf.values Leaf.shown Leaf.isArray
  rw [h]
  exact ⟨rfl, rfl, fun _ => rfl⟩

theorem addLeaf (hx : OnlyRegisters b b') {h : HubId} {predicate : String} {l : LeafId}
    (hl : b'.isKnownLeaf l = true ∨ b.leaves.size ≤ l.index) (room : l.index < b'.leaves.size) :
    OnlyRegisters b (b'.addLeaf h predicate l).1 := by
  cases free : (b'.hub h).table.byPredicate.contains predicate with
  | true =>
    rw [Board.addLeaf, free]
    exact hx
  | false =>
    have hsize : (b'.addLeaf h predicate l).1.leaves.size = b'.leaves.size := by
      rw [addLeaf_fst free]
      show (b'.leaves.put l.index _).size = _
      rw [Store.size_put]
      omega
    constructor
    case size =>
      rw [hsize]
      exact hx.size
    case body =>
      intro k hk
      rw [body_addLeaf free]
      exact hx.body k hk
    case blank =>
      intro k hk hk' hc
      rw [hsize] at hk'
      obtain ⟨hcell, hvals, hshown⟩ := of_body (body_addLeaf free k)
      rw [hcell] at hc
      rw [hvals, hshown]
      exact hx.blank k hk hk' hc
    case places =>
      intro j p k hp
      have hg := hx.places j p k hp
      rw [hub_addLeaf free]
      split
      · rename_i hj
        subst hj
        show ((b'.hub h).table.add predicate l).byPredicate.get? p = some k
        rw [LeafTable.byPredicate_add, Register.get?_put_of_ne _ (ne_of_free free hg)]
        exact hg
      · exact hg
    case known =>
      intro k hk
      rcases known_addLeaf free hk with hk | rfl
      · exact hx.known k hk
      · rcases hl with hl | hl
        · exact hx.known k hl
        · exact .inr hl
    case journal =>
      rw [journal_addLeaf]
      exact hx.journal

theorem enterLeaf (hx : OnlyRegisters b b') (name : String) {l : LeafId}
    (hl : b'.isKnownLeaf l = true ∨ b.leaves.size ≤ l.index) :
      OnlyRegisters b (b'.enterLeaf name l) := by
  refine hx.relabel rfl rfl rfl fun k hk => ?_
  rcases known_enterLeaf hk with hk | rfl
  · exact .inl hk
  · exact hl

theorem labelLeaf (hx : OnlyRegisters b b') (label : String) {l : LeafId}
    (hl : b'.isKnownLeaf l = true ∨ b.leaves.size ≤ l.index) :
    OnlyRegisters b (b'.labelLeaf label l false) := by
  refine hx.relabel rfl rfl rfl fun k hk => ?_
  rcases known_labelLeaf hk with hk | rfl
  · exact .inl hk
  · exact hl

theorem openHub (hx : OnlyRegisters b b') {name : String} {h : HubId}
    (ho : b'.openHub name = .ok (b'', h)) : OnlyRegisters b b'' := by
  rcases openHub_cases ho with ⟨-, rfl⟩ | ⟨id, hl, -, rfl, -⟩
  · exact hx
  · rw [newHub_true name hl]
    exact (hx.addHub name _ _).relabel rfl rfl rfl fun _ hk => .inl hk

/-- A leaf that a caller makes shows at first what it does if nothing was written. -/
theorem blank_make (make : LeafMake) (name : String) (now : Int)
    (hc : (make.leaf name now).isCell = true) :
    (make.leaf name now).values = (make.leaf name now).shown [] := by
  cases make with
  | scalar => rfl
  | array => rfl
  | counter => cases hc
  | meter least => cases hc

/-- The leaf that a name leads to is known or new. -/
theorem openLeaf (hx : OnlyRegisters b b') (hb : Sound b') {name : String} {l : LeafId}
    (ho : b'.openLeaf name = .ok (b'', l)) : OnlyRegisters b b'' ∧
      (b''.isKnownLeaf l = true ∨ b.leaves.size ≤ l.index) ∧ l.index < b''.leaves.size := by
  rcases openLeaf_cases ho with ⟨hl, rfl⟩ | ⟨make, rfl, rfl⟩
  · have hk := isKnownLeaf_of_leaf? hl
    exact ⟨hx, .inl hk, (hb.fair l hk).room⟩
  · have hf := fair_newLeaf hb (make.leaf name b'.now)
    have h1 := hx.newLeaf (blank_make make name b'.now)
    exact ⟨h1.enterLeaf name (.inr hx.size), .inr hx.size, hf.room⟩

theorem addMeter (hx : OnlyRegisters b b') (hb : Sound b') (h : HubId) (predicate name : String) :
    OnlyRegisters b (b'.addMeter h predicate name).1 ∧
      b.leaves.size ≤ (b'.addMeter h predicate name).2.index := by
  have h1 := hx.newLeaf (blank_make (.meter b'.settings.leastWindow) name b'.now)
  have hf := fair_newLeaf hb (.meter name b'.settings.leastWindow b'.now)
  have h2 := @OnlyRegisters.addLeaf b _ h1 h predicate
    (b'.newLeaf (.meter name b'.settings.leastWindow b'.now)).2 (.inr hx.size) hf.room
  unfold Board.addMeter
  dsimp only
  split
  · rename_i b2 he
    rw [LeafMake.leaf, he] at h2
    exact ⟨(h2.enterLeaf name (.inr hx.size)).relabel rfl rfl rfl fun _ hk => .inl hk, hx.size⟩
  · rename_i b2 he
    rw [LeafMake.leaf, he] at h2
    exact ⟨h2, hx.size⟩

end OnlyRegisters

theorem register_onlyRegisters (hb : Sound b) (hubName predicate leafName : String) :
    OnlyRegisters b (b.register hubName predicate leafName).1 := by
  unfold register
  split
  · exact .refl b
  · rename_i b1 h h1
    have x1 := (OnlyRegisters.refl b).openHub h1
    have c1 := (openHub_changes (A := fun _ => True) (E := fun _ => True) trivial h1).1
    split
    · exact x1
    · rename_i b2 l h2
      obtain ⟨x2, hl, room⟩ := x1.openLeaf (ChangesBy.sound c1 hb) h2
      exact x2.addLeaf hl room

/-- **An operation that registers does nothing else.** -/
theorem step_onlyRegisters (hb : Sound b) {op : Op} (he : op.edit? = some .register) :
    OnlyRegisters b (b.step op) := by
  have hif : ∀ {allowed : Bool} {c : Board}, (allowed = true → OnlyRegisters b c) →
      OnlyRegisters b (b.onlyIf allowed c) := onlyIf_of (.refl b)
  cases op with
  | openHub name => exact orElse_of (.refl b) fun _ _ ho => (OnlyRegisters.refl b).openHub ho
  | makeHub label name =>
    rw [step, newHub_false]
    exact ((OnlyRegisters.refl b).addHub name _ _).relabel rfl rfl rfl fun _ hk => .inl hk
  | openLeaf name =>
    exact orElse_of (.refl b) fun _ _ ho => ((OnlyRegisters.refl b).openLeaf hb ho).1
  | makeLeaf label kind name =>
    have h1 := (OnlyRegisters.refl b).newLeaf (OnlyRegisters.blank_make kind name b.now)
    exact h1.labelLeaf label (.inr (Nat.le_refl _))
  | labelLeaf label l => exact hif fun hl => (OnlyRegisters.refl b).labelLeaf label (.inl hl)
  | addLeaf h predicate l =>
    refine hif fun ha => ?_
    rw [Bool.and_eq_true] at ha
    exact (OnlyRegisters.refl b).addLeaf (.inl ha.2) (hb.fair l ha.2).room
  | addMeter label h predicate name =>
    refine hif fun _ => ?_
    obtain ⟨h1, hl⟩ := (OnlyRegisters.refl b).addMeter hb h predicate name
    exact h1.labelLeaf label (.inr hl)
  | classify subject predicate object =>
    cases object with
    | literal v => cases he
    | iri name =>
      refine hif fun _ => ?_
      rw [classify]
      split
      · exact register_onlyRegisters hb subject predicate name
      · exact .refl b
  | _ => cases he

/-- **An open cell that is known after a registration** was so before with the same content, or is
new and blank. -/
theorem OnlyRegisters.openCell (hx : OnlyRegisters b b') (hb : Sound b) (hb' : Sound b')
    {l : LeafId} (hk : b'.isKnownLeaf l = true) (ho : b'.IsOpenCell l) :
    (b.isKnownLeaf l = true ∧ b.IsOpenCell l ∧ (b'.leaf l).body = (b.leaf l).body) ∨
      b.leaves.size ≤ l.index ∧ (b'.leaf l).values = (b'.leaf l).shown [] := by
  by_cases hl : l.index < b.leaves.size
  · left
    have hk1 : b.isKnownLeaf l = true := (hx.known l hk).resolve_right (Nat.not_le.2 hl)
    have hbody := hx.body l hl
    refine ⟨hk1, ⟨?_, fun h r hs => ?_⟩, hbody⟩
    · rw [← (OnlyRegisters.of_body hbody).1]
      exact ho.cell
    · exact ho.unslotted h r (hb'.slotted h r l (hx.places h _ l ((hb.fair l hk1).slots h r hs)))
  · right
    have hl' := Nat.not_lt.1 hl
    exact ⟨hl', hx.blank l hl' (hb'.fair l hk).room ho.cell⟩

end Board

end Switchboard
