import Switchboard.Proofs.Course
import Switchboard.Proofs.Naming

/-!
# What becomes of a triple

The disposition of a triple says how the triple was read: as a registration, as a value, or as
neither. A triple that is ignored leaves the board alone. What the other two answers announce is
offered to the hub, which may refuse it: it has no leaf under the predicate that a value could be
written to, or another leaf under the predicate already.

* `mem_hubs_touch`: whether a hub that is touched is among those that finishing publishes.
* `bound_register`: whether a registration puts the leaf on the hub.
* `dispositions`: what each of the three answers tells.
-/

namespace Switchboard

namespace Board

variable {b b' : Board} {tx : Transaction} {subject predicate : String}

/-! ### Values -/

/-- **A value arrived**: the leaf under the predicate was given it as of the time of the
transaction, and the hub is among those that finishing publishes. -/
def Arrived (b b' : Board) (tx : Transaction) (h : HubId) (predicate : String) (v : Literal) :
    Prop :=
  ∃ l tx', (b.hub h).table.byPredicate.get? predicate = some l ∧
    b'.leaf l = (b.leaf l).write v tx.openedAt ∧ b'.transaction = some tx' ∧ h ∈ tx'.hubs

/-- **A hub that is touched will be published** unless another hub of its name was touched first. -/
theorem mem_hubs_touch (hn : b.NamesTouched) (ht : b.transaction = some tx) {h : HubId}
    (name : (b.hub h).name = subject) :
    h ∈ ({ tx with touched := tx.touched.putNew subject h } : Transaction).hubs ↔
      ∀ k, tx.touched.get? subject = some k → k = h := by
  show h ∈ (tx.touched.putNew subject h).values ↔ _
  cases hg : tx.touched.get? subject with
  | none =>
    have free : tx.touched.contains subject = false := by rw [Register.contains, hg]; rfl
    rw [Register.putNew, free]
    exact iff_of_true ((Register.mem_values_put_of_free h free).2 (.inl rfl)) (by rintro _ ⟨⟩)
  | some k =>
    have taken : tx.touched.contains subject = true := by rw [Register.contains, hg]; rfl
    rw [Register.putNew, taken, if_pos rfl]
    constructor
    · intro hm k' hk
      cases hk
      -- a touched hub stands under its own name
      obtain ⟨e, he, rfl⟩ := List.mem_map.1 hm
      have hg' := Register.get?_eq_some_iff.2 he
      rw [← (hn tx ht e.1 e.2 hg').symm.trans name, hg'] at hg
      exact (Option.some.inj hg).symm
    · intro hk
      obtain rfl := hk k rfl
      exact Register.mem_values_of_get? hg

/-- A value that is written to a leaf arrives, if the hub will be published. -/
theorem arrived_iff (hb : Reachable b) (ht : b.transaction = some tx) {h : HubId}
    (hn : b.hub? subject = some h) (v : Literal) :
    b.Arrived (b.setValue h predicate v).1 tx h predicate v ↔
      (b.hub h).table.byPredicate.contains predicate = true ∧
        ∀ k, tx.touched.get? subject = some k → k = h := by
  have hname := hb.sound.named subject h hn
  rcases setValues_cases b h predicate [v] with ⟨tx', l, ht', hl, he⟩ | ⟨hno, he⟩
  · obtain rfl := Option.some.inj (ht.symm.trans ht')
    have touched : (b.setValue h predicate v).1.transaction =
        some { tx with touched := tx.touched.putNew subject h } := by
      rw [setValue, he]
      show b.transaction.map _ = _
      rw [ht, Option.map_some]
      show some { tx with touched := tx.touched.putNew (b.hub h).name h } = _
      rw [hname]
    have hleaf : (b.setValue h predicate v).1.leaf l = (b.leaf l).write v tx.openedAt := by
      rw [setValue, he]
      show (b.modifyLeaf l _).leaf l = _
      rw [leaf_modifyLeaf, if_pos rfl]
      rfl
    have contained : (b.hub h).table.byPredicate.contains predicate = true := by
      rw [Register.contains, hl]
      rfl
    rw [← mem_hubs_touch hb.touched ht hname]
    constructor
    · rintro ⟨-, tx', -, -, ht', hm⟩
      rw [touched] at ht'
      cases ht'
      exact ⟨contained, hm⟩
    · rintro ⟨-, hm⟩
      exact ⟨l, _, hl, hleaf, touched, hm⟩
  · -- without a leaf nothing is written
    have none : (b.hub h).table.byPredicate.get? predicate = none := by
      rcases hno with hno | hno
      · rw [ht] at hno
        cases hno
      · exact hno
    refine iff_of_false ?_ ?_
    · rintro ⟨l, -, hl, -⟩
      rw [none] at hl
      cases hl
    · rintro ⟨hc, -⟩
      rw [Register.contains, none] at hc
      cases hc

/-! ### Registrations -/

/-- **A leaf is bound**: the hub has it under the predicate, and its name leads to it. -/
def Bound (b : Board) (h : HubId) (predicate name : String) : Prop :=
  ∃ l, b.leaf? name = some l ∧ (b.hub h).table.byPredicate.get? predicate = some l

theorem hub?_openLeaf {name other : String} {l : LeafId} (ho : b.openLeaf name = .ok (b', l)) :
    b'.hub? other = b.hub? other := by
  rcases openLeaf_cases ho with ⟨-, rfl⟩ | ⟨make, rfl, -⟩ <;> rfl

/-- A leaf that is offered to a hub is there afterwards, or the predicate was taken. -/
theorem get?_addLeaf_self (b : Board) (h : HubId) (predicate : String) (l : LeafId) :
    ((b.addLeaf h predicate l).1.hub h).table.byPredicate.get? predicate =
      some (((b.hub h).table.byPredicate.get? predicate).getD l) := by
  rw [get?_addLeaf, if_pos rfl]
  cases (b.hub h).table.byPredicate.get? predicate <;> rfl

/-- A leaf that is on a hub was made. -/
theorem Sound.get?_lt (hb : Sound b) {h : HubId} {l : LeafId}
    (hg : (b.hub h).table.byPredicate.get? predicate = some l) : l.index < b.leaves.size :=
  hb.rooms h l ((LeafTable.mem_leaves_iff _ l).2 (.inr (Register.mem_values_of_get? hg)))

/-- **A registration binds the leaf** unless the hub has another leaf under the predicate. -/
theorem bound_register (hb : Sound b) (predicate : String) {id name : String}
    {kind : Name.LeafKind}
    (hs : Name.hubId? subject = some id) (hk : Name.leafKind? name = some kind) :
    ∃ h, (b.register subject predicate name).1.hub? subject = some h ∧
      ((b.register subject predicate name).1.leaf? name).isSome = true ∧
      ((b.register subject predicate name).1.Bound h predicate name ↔
        ∀ k l, b.hub? subject = some k → (b.hub k).table.byPredicate.get? predicate = some l →
          b.leaf? name = some l) := by
  obtain ⟨b1, h, b2, l, h1, h2, he⟩ := register_eq hs hk b predicate
  have hleaf : ((b2.addLeaf h predicate l).1).leaf? name = some l := by
    rw [leaf?, registry_addLeaf_fst]
    exact leaf?_openLeaf h2
  rw [he]
  refine ⟨h, ?_, ?_, ?_⟩
  · rw [hub?, registry_addLeaf_fst]
    exact (hub?_openLeaf h2).trans (hub?_of_openHub h1)
  · rw [hleaf]
    rfl
  · have hbound : (b2.addLeaf h predicate l).1.Bound h predicate name ↔
        ((b1.hub h).table.byPredicate.get? predicate).getD l = l := by
      rw [Bound, hleaf, get?_addLeaf_self, hub_openLeaf h2]
      simp [eq_comm]
    rw [hbound]
    rcases openHub_cases h1 with ⟨hn, rfl⟩ | ⟨_, legal, new, rfl, rfl⟩
    · -- the hub was known: what counts is the leaf that it had
      have hall : (∀ k x, b1.hub? subject = some k →
          (b1.hub k).table.byPredicate.get? predicate = some x → b1.leaf? name = some x) ↔
          ∀ x, (b1.hub h).table.byPredicate.get? predicate = some x → b1.leaf? name = some x := by
        rw [hn]
        exact ⟨fun hx x => hx h x rfl, by rintro hx k x ⟨⟩; exact hx x⟩
      rw [hall]
      cases hg : (b1.hub h).table.byPredicate.get? predicate with
      | none => exact iff_of_true rfl (by rintro _ ⟨⟩)
      | some x =>
        have hone : (∀ y, some x = some y → b1.leaf? name = some y) ↔ b1.leaf? name = some x :=
          ⟨fun hy => hy x rfl, by rintro hx y ⟨⟩; exact hx⟩
        rw [hone, Option.getD_some]
        rcases openLeaf_enters h2 with ⟨hl, -⟩ | ⟨hfree, hx⟩
        · rw [hl, Option.some.injEq, eq_comm]
        -- a new leaf is none that was on the hub
        · refine iff_of_false ?_ (by rw [hfree]; rintro ⟨⟩)
          rintro rfl
          exact absurd (hb.get?_lt hg) (Nat.not_lt.2 hx.new)
    · -- a new hub has no leaves yet
      refine iff_of_true ?_ ?_
      · have hnone : ((b.newHub subject true).1.hub
            (b.newHub subject true).2).table.byPredicate.get? predicate = none := by
          rw [newHub_true subject legal, hub_addHub, if_pos rfl]
          rfl
        show (((b.newHub subject true).1.hub
          (b.newHub subject true).2).table.byPredicate.get? predicate).getD l = l
        rw [hnone, Option.getD_none]
      · intro k x hk
        rw [new] at hk
        cases hk

/-! ### Dispositions -/

/-- The triples that write a value, and what they come to. -/
theorem classify_literal (b : Board) (subject predicate : String) (v : Literal) :
    (∃ h, b.hub? subject = some h ∧
      b.classify subject predicate (.literal v) = ((b.setValue h predicate v).1, .valueWritten)) ∨
    b.classify subject predicate (.literal v) = (b, .ignored) := by
  rw [classify]
  split
  · rename_i h _ hn
    exact .inl ⟨h, hn, rfl⟩
  · exact .inr rfl

/-- **What the disposition of a triple tells**, on every reachable board with an open transaction.
If it was ignored, the board is as before. If it was read as a value, its hub is known, and the leaf
under the predicate was written or, if there is none, the board is as before. The value arrived
exactly if there is a leaf and no other hub of that name was touched first. If it was read as a
registration, hub and leaf are known by their names, and the leaf is bound exactly if the hub did
not have another leaf under the predicate. -/
theorem dispositions (hb : Reachable b) (ht : b.transaction = some tx) {object : TripleObject}
    {d : Disposition} (hc : b.classify subject predicate object = (b', d)) :
    (d = .ignored → b' = b) ∧
    (d = .valueWritten → ∃ v h, object = .literal v ∧ b.hub? subject = some h ∧
      (∀ l, (b.hub h).table.byPredicate.get? predicate = some l →
        b' = (b.modifyLeaf l (·.write v tx.openedAt)).touch h) ∧
      ((b.hub h).table.byPredicate.get? predicate = none → b' = b) ∧
      (b.Arrived b' tx h predicate v ↔
        (b.hub h).table.byPredicate.contains predicate = true ∧
          ∀ k, tx.touched.get? subject = some k → k = h)) ∧
    (d = .registered → ∃ name h, object = .iri name ∧ b'.hub? subject = some h ∧
      (b'.leaf? name).isSome = true ∧ b.OnlyRegisters b' ∧ b'.transaction = b.transaction ∧
      (b'.Bound h predicate name ↔ ∀ k l, b.hub? subject = some k →
        (b.hub k).table.byPredicate.get? predicate = some l → b.leaf? name = some l)) := by
  cases object with
  | literal v =>
    rcases classify_literal b subject predicate v with ⟨h, hn, he⟩ | he <;>
      obtain ⟨rfl, rfl⟩ := Prod.mk.inj (he.symm.trans hc)
    · refine ⟨by rintro ⟨⟩, fun _ => ⟨v, h, rfl, hn, fun l hl => ?_, fun hl => ?_,
        arrived_iff hb ht hn v⟩, by rintro ⟨⟩⟩
      · rw [setValue, setValues, ht, hl]
        rfl
      · rw [setValue, setValues, ht, hl]
    · exact ⟨fun _ => rfl, by rintro ⟨⟩, by rintro ⟨⟩⟩
  | iri name =>
    rcases classify_iri b subject predicate name with ⟨id, kind, hs, hk, he⟩ | he
    · obtain ⟨b1, h, b2, l, -, -, hr⟩ := register_eq hs hk b predicate
      have hd : (b.register subject predicate name).2 = .registered := by rw [hr]
      obtain ⟨k, hhub, hleaf, hbound⟩ := bound_register hb.sound predicate hs hk
      have hx := register_onlyRegisters hb.sound subject predicate name
      have htx := (Dated.register (T := fun _ _ => True) b subject predicate name).transaction
      rw [he] at hc
      rw [hc] at hd hhub hleaf hbound hx htx
      dsimp only at hd hhub hleaf hbound hx htx
      refine ⟨fun h => ?_, fun h => ?_, fun _ => ⟨name, k, rfl, hhub, hleaf, hx, htx, hbound⟩⟩ <;>
        cases hd.symm.trans h
    · obtain ⟨rfl, rfl⟩ := Prod.mk.inj (he.symm.trans hc)
      exact ⟨fun _ => rfl, by rintro ⟨⟩, by rintro ⟨⟩⟩

/-- A board with an open transaction on which a hub has a leaf under one predicate, and another leaf
is known by its name. -/
def offered : Board :=
  (start {} default {}).run [.openLeaf (Name.leafBase ++ "m"), .openTransaction .triple,
    .classify (Name.hubName "r") "http://x/v" (.iri (Name.leafBase ++ "n"))]

theorem reachable_offered : Reachable offered := ⟨{}, default, {}, _, Disk.sound_empty, rfl⟩

/-- Offers a triple of the first hub to that board. -/
def offer? (predicate : String) (object : TripleObject) : Board × Disposition :=
  offered.classify (Name.hubName "r") predicate object

/-- A value under the predicate arrives. One under another predicate does not, and the other leaf is
not bound under the predicate, though both triples are read as what they look like. -/
theorem dispositions_offered : ∃ tx, offered.transaction = some tx ∧ Reachable offered ∧
    offered.Arrived (offer? "http://x/v" (.literal .placeholder)).1 tx ⟨1⟩ "http://x/v"
      .placeholder ∧
    offer? "http://x/w" (.literal .placeholder) = (offered, .valueWritten) ∧
    (offer? "http://x/v" (.iri (Name.leafBase ++ "m"))).2 = .registered ∧
    ¬ (offer? "http://x/v" (.iri (Name.leafBase ++ "m"))).1.Bound ⟨1⟩ "http://x/v"
      (Name.leafBase ++ "m") := by
  obtain ⟨hhub, hleaf, hnone, hother, huntouched⟩ :
      offered.hub? (Name.hubName "r") = some ⟨1⟩ ∧
      (offered.hub ⟨1⟩).table.byPredicate.get? "http://x/v" = some ⟨7⟩ ∧
      (offered.hub ⟨1⟩).table.byPredicate.get? "http://x/w" = none ∧
      offered.leaf? (Name.leafBase ++ "m") = some ⟨4⟩ ∧
      offered.transaction.map (·.touched.get? (Name.hubName "r")) = some none := by decide +kernel
  obtain ⟨hv, hw, hm, hfound⟩ :
      (offer? "http://x/v" (.literal .placeholder)).2 = .valueWritten ∧
      (offer? "http://x/w" (.literal .placeholder)).2 = .valueWritten ∧
      (offer? "http://x/v" (.iri (Name.leafBase ++ "m"))).2 = .registered ∧
      (offer? "http://x/v" (.iri (Name.leafBase ++ "m"))).1.hub? (Name.hubName "r") = some ⟨1⟩ := by
    decide +kernel
  have hc : ∀ p o, offered.classify (Name.hubName "r") p o = ((offer? p o).1, (offer? p o).2) :=
    fun _ _ => rfl
  obtain ⟨tx, ht, hget⟩ := Option.map_eq_some_iff.1 huntouched
  refine ⟨tx, ht, reachable_offered, ?_, ?_, hm, ?_⟩
  · obtain ⟨v, h, he, hn, -, -, harrived⟩ :=
      (dispositions reachable_offered ht (hc "http://x/v" (.literal .placeholder))).2.1 hv
    cases he
    obtain rfl := Option.some.inj (hhub.symm.trans hn)
    refine harrived.2 ⟨by rw [Register.contains, hleaf]; rfl, fun k hk => ?_⟩
    rw [hget] at hk
    cases hk
  · obtain ⟨v, h, he, hn, -, hsame, -⟩ :=
      (dispositions reachable_offered ht (hc "http://x/w" (.literal .placeholder))).2.1 hw
    obtain rfl := Option.some.inj (hhub.symm.trans hn)
    exact Prod.ext (hsame hnone) hw
  · obtain ⟨name, h, he, hn, -, -, -, hbound⟩ :=
      (dispositions reachable_offered ht (hc "http://x/v" (.iri (Name.leafBase ++ "m")))).2.2 hm
    cases he
    obtain rfl := Option.some.inj (hfound.symm.trans hn)
    -- the hub has the first leaf there, and the name leads to the other one
    intro hb
    cases hother.symm.trans (hbound.1 hb ⟨1⟩ ⟨7⟩ hhub hleaf)

end Board

end Switchboard
