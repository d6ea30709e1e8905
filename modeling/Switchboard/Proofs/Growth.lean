import Switchboard.Proofs.Sound

/-!
# Boards that grow

A new hub comes with two leaves of its own, which callers cannot get at. A leaf is registered
under a predicate that is free, and takes over a reserved slot if the predicate is that of one.
Both keep a board sound.
-/

namespace Switchboard

namespace Board

/-! ### A new hub -/

/-- A board with one more hub, and the two leaves of its reserved slots. -/
def addHub (b : Board) (name : String) (disk : Disk) (series : Option TimeSeries) : Board :=
  { b with
    disk
    leaves := (b.leaves.add (.scalar Name.Reserved.instant.predicate)).add
      (.scalar Name.Reserved.datetime.predicate)
    hubs := b.hubs.add
      { name, series, table := { instant := ⟨b.leaves.size⟩, datetime := ⟨b.leaves.size + 1⟩ } } }

section AddHub

variable {b : Board} (name : String) (disk : Disk) (series : Option TimeSeries)

theorem hub_of_size_le {h : HubId} (hh : b.hubs.size ≤ h.index) : b.hub h = default :=
  List.getD_eq_default _ _ hh

theorem hub_addHub (h : HubId) : (b.addHub name disk series).hub h =
    if b.hubs.size = h.index then
      { name, series, table := { instant := ⟨b.leaves.size⟩, datetime := ⟨b.leaves.size + 1⟩ } }
    else b.hub h :=
  Store.get_add b.hubs _ h.index

theorem hubs_addHub : (b.addHub name disk series).hubs.size = b.hubs.size + 1 :=
  Store.size_add b.hubs _

theorem leaves_addHub : (b.addHub name disk series).leaves.size = b.leaves.size + 2 := by
  show ((b.leaves.add _).add _).size = _
  rw [Store.size_add, Store.size_add]

theorem leaf_addHub (l : LeafId) : (b.addHub name disk series).leaf l =
    if b.leaves.size + 1 = l.index then .scalar Name.Reserved.datetime.predicate
    else if b.leaves.size = l.index then .scalar Name.Reserved.instant.predicate
    else b.leaf l := by
  show ((b.leaves.add _).add _).get l.index = _
  rw [Store.get_add, Store.size_add, Store.get_add]
  rfl

/-- The leaves there were are not affected by a new hub. -/
theorem leaf_addHub_of_lt {l : LeafId} (hl : l.index < b.leaves.size) :
    (b.addHub name disk series).leaf l = b.leaf l := by
  rw [leaf_addHub, if_neg (by omega), if_neg (by omega)]

/-- The hubs there were are not affected by a new one. -/
theorem hub_newHub_of_lt (withHistory : Bool) {h : HubId} (hh : h.index < b.hubs.size) :
    (b.newHub name withHistory).1.hub h = b.hub h :=
  (Store.get_add b.hubs _ h.index).trans (if_neg (Nat.ne_of_gt hh))

theorem hubs_newHub (withHistory : Bool) :
    (b.newHub name withHistory).1.hubs.size = b.hubs.size + 1 :=
  Store.size_add b.hubs _

theorem newHub_false : b.newHub name false = (b.addHub name b.disk none, ⟨b.hubs.size⟩) := by
  have hs : (b.leaves.add (.scalar Name.Reserved.instant.predicate)).size = b.leaves.size + 1 :=
    Store.size_add b.leaves _
  rw [addHub, ← hs]
  rfl

theorem newHub_true {id : String} (legal : Name.hubId? name = some id) : b.newHub name true =
    (b.addHub name (b.disk.openFile id).1 (some ⟨name, id, (b.disk.openFile id).2⟩),
      ⟨b.hubs.size⟩) := by
  have hs : (b.leaves.add (.scalar Name.Reserved.instant.predicate)).size = b.leaves.size + 1 :=
    Store.size_add b.leaves _
  have ho : TimeSeries.openAt b.disk name =
      .ok ((b.disk.openFile id).1, ⟨name, id, (b.disk.openFile id).2⟩) := by
    unfold TimeSeries.openAt
    rw [legal]
  rw [addHub, ← hs]
  unfold newHub
  rw [ho]
  rfl

/-! ### A new hub keeps a board sound -/

variable {name disk series}

theorem rooms_addHub (hb : Sound b) (h : HubId) :
    ∀ l ∈ ((b.addHub name disk series).hub h).table.leaves,
      l.index < (b.addHub name disk series).leaves.size := by
  intro l hl
  rw [leaves_addHub]
  rw [hub_addHub] at hl
  split at hl
  · rcases List.mem_cons.1 hl with rfl | hl
    · exact Nat.lt_add_of_pos_right (by decide)
    · rcases List.mem_cons.1 hl with rfl | hl
      · exact Nat.lt_succ_self _
      · cases hl
  · have := hb.rooms h l hl
    omega

/-- A leaf that could be known before can be known still: a new hub makes its slots for itself. -/
theorem fair_addHub {l : LeafId} (hl : b.IsFair l) : (b.addHub name disk series).IsFair l where
  room := by
    have := hl.room
    rw [leaves_addHub]
    omega
  slots k r hk := by
    rw [hub_addHub] at hk ⊢
    split at hk
    · have hr := hl.room
      cases r <;> subst hk
      · exact absurd hr (Nat.lt_irrefl _)
      · exact absurd hr (Nat.not_lt.2 (Nat.le_succ _))
    · rename_i hne
      rw [if_neg hne]
      exact hl.slots k r hk

theorem isKnownLeaf_addHub (l : LeafId) :
    (b.addHub name disk series).isKnownLeaf l = true → b.isKnownLeaf l = true := by
  rw [isKnownLeaf_iff, isKnownLeaf_iff]
  rintro (hl | hl | ⟨h, hl⟩)
  · exact .inl hl
  · exact .inr (.inl hl)
  · rw [hub_addHub] at hl
    split at hl
    · cases hl
    · exact .inr (.inr ⟨h, hl⟩)

theorem owned_addHub (hb : Sound b) (l : LeafId) (h : HubId)
    (ho : ((b.addHub name disk series).leaf l).owner = some h) :
    l ∈ ((b.addHub name disk series).hub h).table.byPredicate.values := by
  -- the two new leaves have no owner
  have hl : l ∈ (b.hub h).table.byPredicate.values := by
    rw [leaf_addHub] at ho
    split at ho
    · cases ho
    · split at ho
      · cases ho
      · exact hb.owned l h ho
  rw [hub_addHub]
  split
  · rename_i hi
    rw [hub_of_size_le (Nat.le_of_eq hi)] at hl
    cases hl
  · exact hl

theorem slotted_addHub (hb : Sound b) (h : HubId) (r : Name.Reserved) (l : LeafId)
    (hg : ((b.addHub name disk series).hub h).table.byPredicate.get? r.predicate = some l) :
    ((b.addHub name disk series).hub h).table.slot r = l := by
  rw [hub_addHub] at hg ⊢
  split at hg
  · cases hg
  · rename_i hi
    rw [if_neg hi]
    exact hb.slotted h r l hg

theorem once_addHub (hb : Sound b) (h : HubId) :
    ((b.addHub name disk series).hub h).consumers.Nodup := by
  rw [hub_addHub]
  split
  · exact List.nodup_nil
  · exact hb.once h

theorem hub_addHub_of_registered (hb : Sound b) {other : String} {h : HubId}
    (hr : b.registry.hubs.get? other = some h) : (b.addHub name disk series).hub h = b.hub h := by
  have hi := hb.held h ((isHubHeld_iff b h).2 (.inr (.inl (Register.mem_values_of_get? hr))))
  rw [hub_addHub, if_neg (by omega)]

end AddHub

/-! ### Changes keep boards sound -/

section Sound

variable {b b' : Board}

/-- The registries after a hub is entered under a name that was free. -/
theorem registry_enterHub {h : HubId} (hn : b.hub? (b.hub h).name = none) :
    (b.enterHub h).registry.hubs = b.registry.hubs.put (b.hub h).name h := by
  show b.registry.hubs.putNew (b.hub h).name h = _
  have hc : b.registry.hubs.contains (b.hub h).name = false := by
    rw [Register.contains]
    show (b.hub? _).isSome = false
    rw [hn]
    rfl
  rw [Register.putNew, hc]
  rfl

/-- What comes of a new hub beside the hub itself: it may be registered under its name and be
held, and its file may have been made. -/
structure Joins (b : Board) (name : String) (disk : Disk) (series : Option TimeSeries)
    (b' : Board) : Prop where
  hubs : b'.hubs = (b.addHub name disk series).hubs
  leaves : b'.leaves = (b.addHub name disk series).leaves
  registered : ∀ other h, b.registry.hubs.get? other = some h →
    b'.registry.hubs.get? other = some h
  entered : ∀ other h, b'.registry.hubs.get? other = some h →
    b.registry.hubs.get? other = some h ∨ other = name ∧ h = ⟨b.hubs.size⟩
  held : ∀ h, b'.isHubHeld h = true → h = ⟨b.hubs.size⟩ ∨ b.isHubHeld h = true
  known : b'.registry.leaves = b.registry.leaves ∧ b'.labels.leaves = b.labels.leaves
  system : b'.registry.system = b.registry.system
  connections : b'.registry.connections = b.registry.connections
  sendMeter : b'.registry.sendMeter = b.registry.sendMeter
  names : ∀ other f, b.disk.names.get? other = some f → b'.disk.names.get? other = some f
  disk : b'.disk.Sound
  journal : b'.journal = b.journal
  series : ∀ s, series = some s → b'.HasSeries ⟨b.hubs.size⟩ s

namespace Joins

variable {name : String} {disk : Disk} {series : Option TimeSeries}

theorem hub (hj : Joins b name disk series b') (h : HubId) :
    b'.hub h = (b.addHub name disk series).hub h := by
  rw [Board.hub, hj.hubs]
  rfl

theorem leaf (hj : Joins b name disk series b') (l : LeafId) :
    b'.leaf l = (b.addHub name disk series).leaf l := by
  rw [Board.leaf, hj.leaves]
  rfl

theorem hubCount (hj : Joins b name disk series b') : b'.hubs.size = b.hubs.size + 1 := by
  rw [hj.hubs, hubs_addHub]

theorem leafCount (hj : Joins b name disk series b') : b'.leaves.size = b.leaves.size + 2 := by
  rw [hj.leaves, leaves_addHub]

/-- The leaves that a board keeps for itself are the same. -/
theorem leaf_of_lt (hj : Joins b name disk series b') {l : LeafId}
    (hl : l.index < b.leaves.size) : b'.leaf l = b.leaf l := by
  rw [hj.leaf, leaf_addHub_of_lt _ _ _ hl]

/-- Registered hubs were there before, and are the same. -/
theorem hub_of_registered (hj : Joins b name disk series b') (hb : Sound b) {other : String}
    {h : HubId} (hr : b.registry.hubs.get? other = some h) : b'.hub h = b.hub h := by
  rw [hj.hub, hub_addHub_of_registered hb hr]

/-- A new hub has no registered leaf, so no leaf becomes known. -/
theorem isKnownLeaf (hj : Joins b name disk series b') {l : LeafId}
    (hl : b'.isKnownLeaf l = true) : b.isKnownLeaf l = true := by
  refine @isKnownLeaf_addHub b name disk series l ?_
  rw [isKnownLeaf_iff] at hl ⊢
  rw [hj.known.1, hj.known.2] at hl
  simp only [hj.hub] at hl
  exact hl

/-- What is known may be got at still. -/
theorem fair (hj : Joins b name disk series b') (hb : Sound b) (l : LeafId)
    (hl : b'.isKnownLeaf l = true) : b'.IsFair l := by
  have hf := @fair_addHub b name disk series l (hb.fair l (hj.isKnownLeaf hl))
  refine ⟨?_, fun k r hs => ?_⟩
  · rw [hj.leaves]
    exact hf.room
  · rw [hj.hub] at hs ⊢
    exact hf.slots k r hs

/-- Names lead to the hubs that carry them. -/
theorem named (hj : Joins b name disk series b') (hb : Sound b) (other : String) (h : HubId)
    (hn : b'.registry.hubs.get? other = some h) : (b'.hub h).name = other := by
  rcases hj.entered other h hn with hn | ⟨rfl, rfl⟩
  · rw [hj.hub_of_registered hb hn]
    exact hb.named other h hn
  · rw [hj.hub, hub_addHub, if_pos rfl]

/-- The new hub has the new series, and the others have those they had. -/
theorem hasSeries (hj : Joins b name disk series b') (hb : Sound b) (h : HubId) (s : TimeSeries)
    (hs : (b'.hub h).series = some s) : b'.HasSeries h s := by
  rw [hj.hub, hub_addHub] at hs
  split at hs
  · rename_i hi
    have he : h = ⟨b.hubs.size⟩ := by
      cases h
      cases hi
      rfl
    rw [he]
    exact hj.series s hs
  · have hr := hb.series h s hs
    have he := hj.hub_of_registered hb hr.registered
    refine ⟨?_, ?_, fun f hf => hj.names _ _ (hr.file f hf)⟩
    · rw [he]
      exact hj.registered _ _ hr.registered
    · rw [he]
      exact hr.id

end Joins

theorem Sound.of_joins {name : String} {disk : Disk} {series : Option TimeSeries} (hb : Sound b)
    (hj : Joins b name disk series b') : Sound b' where
  named := hj.named hb
  held h hd := by
    rw [hj.hubCount]
    rcases hj.held h hd with rfl | hd
    · exact Nat.lt_succ_self _
    · exact Nat.lt_succ_of_lt (hb.held h hd)
  rooms h l hm := by
    rw [hj.hub] at hm
    rw [hj.leaves]
    exact rooms_addHub hb h l hm
  fair := hj.fair hb
  slotted h r l hg := by
    rw [hj.hub] at hg ⊢
    exact slotted_addHub hb h r l hg
  owned l h ho := by
    rw [hj.leaf] at ho
    rw [hj.hub]
    exact owned_addHub hb l h ho
  once h := by
    rw [hj.hub]
    exact once_addHub hb h
  connections := by
    rw [hj.connections, hj.leafCount]
    exact Nat.lt_add_right 2 hb.connections
  counter := by
    rw [hj.connections, hj.leaf_of_lt hb.connections]
    exact hb.counter
  sendMeter := by
    rw [hj.sendMeter, hj.leafCount]
    exact Nat.lt_add_right 2 hb.sendMeter
  meter := by
    rw [hj.sendMeter, hj.leaf_of_lt hb.sendMeter]
    exact hb.meter
  system := by
    rw [hj.system]
    exact hj.registered _ _ hb.system
  live := by
    rw [hj.system, hj.hub_of_registered hb hb.system]
    exact hb.live
  series := hj.hasSeries hb
  disk := hj.disk
  published h s line hm := by
    rw [hj.journal] at hm
    rw [hj.hubCount]
    exact Nat.lt_succ_of_lt (hb.published h s line hm)

theorem Sound.makeHub (hb : Sound b) (label name : String) :
    Sound ((b.newHub name false).1.labelHub label (b.newHub name false).2) := by
  rw [newHub_false]
  refine @Sound.of_joins b _ name b.disk none hb ?_
  constructor
  case held =>
    intro h hh
    rw [isHubHeld_iff] at hh ⊢
    rcases hh with hh | hh | hh | hh
    · exact .inr (.inl hh)
    · exact .inr (.inr (.inl hh))
    · rcases Register.mem_values_put hh with hh | hh
      · exact .inl hh
      · exact .inr (.inr (.inr (.inl hh)))
    · exact .inr (.inr (.inr (.inr hh)))
  case disk => exact hb.disk
  case series =>
    intro s hs
    cases hs
  case known => exact ⟨rfl, rfl⟩
  case registered => exact fun _ _ h => h
  case entered => exact fun _ _ h => .inl h
  case names => exact fun _ _ h => h
  all_goals rfl

theorem name_openHub {name id : String} (legal : Name.hubId? name = some id) :
    ((b.newHub name true).1.hub (b.newHub name true).2).name = name := by
  rw [newHub_true name legal, hub_addHub, if_pos rfl]

/-- A hub that is opened is found by its name from then on. -/
theorem registry_openHub {name id : String} (legal : Name.hubId? name = some id)
    (new : b.hub? name = none) :
    ((b.newHub name true).1.enterHub (b.newHub name true).2).registry.hubs =
      b.registry.hubs.put name (b.newHub name true).2 := by
  have hr : (b.newHub name true).1.registry = b.registry := by
    rw [newHub_true name legal]
    rfl
  rw [registry_enterHub, name_openHub legal, hr]
  rw [name_openHub legal, hub?, hr]
  exact new

theorem Sound.openHub (hb : Sound b) {name id : String} (legal : Name.hubId? name = some id)
    (new : b.hub? name = none) :
    Sound ((b.newHub name true).1.enterHub (b.newHub name true).2) := by
  have hreg := registry_openHub legal new
  have hname := name_openHub legal (b := b)
  rw [newHub_true name legal] at hreg hname ⊢
  refine @Sound.of_joins b _ name (b.disk.openFile id).1
    (some ⟨name, id, (b.disk.openFile id).2⟩) hb ?_
  constructor
  case registered =>
    intro other h hr
    have hne : name ≠ other := by
      rintro rfl
      rw [hub?, hr] at new
      cases new
    rw [hreg, Register.get?_put_of_ne _ hne]
    exact hr
  case entered =>
    intro other h hr
    rw [hreg, Register.get?_put] at hr
    split at hr
    · rename_i he
      cases hr
      exact .inr ⟨he.symm, rfl⟩
    · exact .inl hr
  case held =>
    intro h hh
    rw [isHubHeld_iff] at hh ⊢
    rcases hh with hh | hh | hh | hh
    · exact .inr (.inl hh)
    · rw [hreg] at hh
      rcases Register.mem_values_put hh with hh | hh
      · exact .inl hh
      · exact .inr (.inr (.inl hh))
    · exact .inr (.inr (.inr (.inl hh)))
    · exact .inr (.inr (.inr (.inr hh)))
  case known => exact ⟨rfl, rfl⟩
  case names => exact fun other f h => Disk.names_openFile b.disk id other f h
  case disk => exact Disk.sound_openFile hb.disk id
  case series =>
    intro s hs
    cases hs
    have hget := Register.get?_put_self b.registry.hubs name (⟨b.hubs.size⟩ : HubId)
    rw [← hreg] at hget
    exact ⟨(congrArg _ hname).trans hget, (congrArg Name.hubId? hname).trans legal,
      fun f hf => Disk.names_openFile_self b.disk hf⟩
  all_goals rfl

/-! ### A registered leaf -/

theorem addLeaf_fst {h : HubId} {predicate : String} {l : LeafId}
    (free : (b.hub h).table.byPredicate.contains predicate = false) :
    (b.addLeaf h predicate l).1 = (b.modifyHub h fun x =>
      { x with table := x.table.add predicate l, formatted := none, wrapped := none }).modifyLeaf l
        (·.attach h) := by
  rw [addLeaf, free]
  rfl

/-- A leaf that is offered under a predicate that is taken stays off the hub. -/
theorem addLeaf_of_taken {h : HubId} {predicate : String}
    (taken : (b.hub h).table.byPredicate.contains predicate = true) (l : LeafId) :
    b.addLeaf h predicate l = (b, false) := by
  rw [addLeaf, taken]
  rfl

theorem hub_addLeaf {h : HubId} {predicate : String} {l : LeafId}
    (free : (b.hub h).table.byPredicate.contains predicate = false) (k : HubId) :
    (b.addLeaf h predicate l).1.hub k = if h = k then
      { b.hub h with
        table := (b.hub h).table.add predicate l, formatted := none, wrapped := none }
    else b.hub k := by
  rw [addLeaf_fst free, hub_modifyLeaf, hub_modifyHub]

/-- A leaf that is offered is registered unless its predicate is taken. -/
theorem get?_addLeaf (b : Board) (h : HubId) (predicate : String) (l : LeafId) (p : String) :
    ((b.addLeaf h predicate l).1.hub h).table.byPredicate.get? p =
      ((b.hub h).table.byPredicate.get? p).or (if predicate = p then some l else none) := by
  cases hc : (b.hub h).table.byPredicate.contains predicate with
  | true =>
    rw [addLeaf_of_taken hc]
    by_cases hp : predicate = p
    · obtain ⟨x, hx⟩ := Option.isSome_iff_exists.1 (hp ▸ hc)
      rw [hx, Option.some_or]
    · rw [if_neg hp, Option.or_none]
  | false =>
    rw [hub_addLeaf hc, if_pos rfl]
    dsimp only
    rw [LeafTable.byPredicate_add, Register.get?_put]
    by_cases hp : predicate = p
    · have hn : (b.hub h).table.byPredicate.get? p = none :=
        Option.isNone_iff_eq_none.1 (Option.isSome_eq_false_iff.1 (hp ▸ hc))
      rw [if_pos hp, if_pos hp, hn, Option.none_or]
    · rw [if_neg hp, if_neg hp, Option.or_none]

theorem leaf_addLeaf {h : HubId} {predicate : String} {l : LeafId}
    (free : (b.hub h).table.byPredicate.contains predicate = false) (k : LeafId) :
    (b.addLeaf h predicate l).1.leaf k = if l = k then (b.leaf l).attach h else b.leaf k := by
  rw [addLeaf_fst free, leaf_modifyLeaf]
  rfl

section AddLeaf

variable {h : HubId} {predicate : String} {l : LeafId}
variable (free : (b.hub h).table.byPredicate.contains predicate = false)
include free

theorem registry_addLeaf : (b.addLeaf h predicate l).1.registry = b.registry := by
  rw [addLeaf_fst free]
  rfl

theorem labels_addLeaf : (b.addLeaf h predicate l).1.labels = b.labels := by
  rw [addLeaf_fst free]
  rfl

theorem isHubHeld_addLeaf (k : HubId) :
    (b.addLeaf h predicate l).1.isHubHeld k = b.isHubHeld k := by
  rw [addLeaf_fst free]
  rfl

theorem hubs_addLeaf : b.hubs.size ≤ (b.addLeaf h predicate l).1.hubs.size := by
  rw [addLeaf_fst free]
  show _ ≤ (b.hubs.put h.index _).size
  rw [Store.size_put]
  omega

theorem leaves_addLeaf : b.leaves.size ≤ (b.addLeaf h predicate l).1.leaves.size := by
  rw [addLeaf_fst free]
  show _ ≤ (b.leaves.put l.index _).size
  rw [Store.size_put]
  omega

/-- A leaf keeps its content when it is registered. -/
theorem body_addLeaf (k : LeafId) :
    ((b.addLeaf h predicate l).1.leaf k).body = (b.leaf k).body := by
  rw [leaf_addLeaf free]
  split
  · rename_i hk
    rw [hk]
    rfl
  · rfl

theorem sort_addLeaf (k : LeafId) :
    ((b.addLeaf h predicate l).1.leaf k).sort = (b.leaf k).sort := by
  unfold Leaf.sort
  rw [body_addLeaf free k]

/-- What a hub shares with what it was before a leaf was registered. -/
theorem like_addLeaf (k : HubId) :
    ((b.addLeaf h predicate l).1.hub k).name = (b.hub k).name ∧
      ((b.addLeaf h predicate l).1.hub k).series = (b.hub k).series ∧
      ((b.addLeaf h predicate l).1.hub k).isVolatile = (b.hub k).isVolatile ∧
      ((b.addLeaf h predicate l).1.hub k).consumers = (b.hub k).consumers := by
  rw [hub_addLeaf free]
  split
  · rename_i hk
    rw [← hk]
    exact ⟨rfl, rfl, rfl, rfl⟩
  · exact ⟨rfl, rfl, rfl, rfl⟩

omit free in
/-- The leaves of a table with one more of them. -/
theorem values_add (t : LeafTable) {predicate : String} {l : LeafId}
    (free : t.byPredicate.contains predicate = false) (x : LeafId) :
    x ∈ (t.add predicate l).byPredicate.values ↔ x = l ∨ x ∈ t.byPredicate.values := by
  rw [LeafTable.byPredicate_add]
  exact Register.mem_values_put_of_free l free

/-- The registered leaves are those that were registered and the new one. -/
theorem values_addLeaf {k : HubId} {x : LeafId}
    (hx : x ∈ ((b.addLeaf h predicate l).1.hub k).table.byPredicate.values) :
    x = l ∨ x ∈ (b.hub k).table.byPredicate.values := by
  rw [hub_addLeaf free] at hx
  split at hx
  · rename_i hk
    rw [← hk]
    exact (values_add _ free x).1 hx
  · exact .inr hx

/-- A leaf becomes known by its registration. -/
theorem known_addLeaf {k : LeafId} (hk : (b.addLeaf h predicate l).1.isKnownLeaf k = true) :
    b.isKnownLeaf k = true ∨ k = l := by
  rw [isKnownLeaf_iff, registry_addLeaf free, labels_addLeaf free] at hk
  rw [isKnownLeaf_iff]
  rcases hk with hk | hk | ⟨j, hk⟩
  · exact .inl (.inl hk)
  · exact .inl (.inr (.inl hk))
  · rcases values_addLeaf free hk with hk | hk
    · exact .inr hk
    · exact .inl (.inr (.inr ⟨j, hk⟩))

/-- A leaf that is registered stays or becomes one that callers may get at. -/
theorem fair_addLeaf {k : LeafId} (hk : b.IsFair k) : (b.addLeaf h predicate l).1.IsFair k where
  room := Nat.lt_of_lt_of_le hk.room (leaves_addLeaf free)
  slots j r hs := by
    rw [hub_addLeaf free] at hs ⊢
    split at hs
    · rename_i hj
      rw [if_pos hj]
      change ((b.hub h).table.add predicate l).slot r = k at hs
      show ((b.hub h).table.add predicate l).byPredicate.get? r.predicate = some k
      rw [LeafTable.slot_add] at hs
      rw [LeafTable.byPredicate_add, Register.get?_put]
      split at hs
      · rename_i hp
        rw [if_pos hp, hs]
      · rename_i hp
        rw [if_neg hp]
        exact hk.slots h r hs
    · rename_i hj
      rw [if_neg hj]
      exact hk.slots j r hs

theorem rooms_addLeaf (hb : Sound b) (fair : b.IsFair l) (k : HubId) :
    ∀ x ∈ ((b.addLeaf h predicate l).1.hub k).table.leaves,
      x.index < (b.addLeaf h predicate l).1.leaves.size := by
  intro x hx
  refine Nat.lt_of_lt_of_le ?_ (leaves_addLeaf free)
  rw [LeafTable.mem_leaves_iff] at hx
  rcases hx with ⟨r, hx⟩ | hx
  · rw [hub_addLeaf free] at hx
    split at hx
    · change ((b.hub h).table.add predicate l).slot r = x at hx
      rw [LeafTable.slot_add] at hx
      split at hx
      · rw [← hx]
        exact fair.room
      · exact hb.rooms h x ((LeafTable.mem_leaves_iff _ x).2 (.inl ⟨r, hx⟩))
    · exact hb.rooms k x ((LeafTable.mem_leaves_iff _ x).2 (.inl ⟨r, hx⟩))
  · rcases values_addLeaf free hx with rfl | hx
    · exact fair.room
    · exact hb.rooms k x ((LeafTable.mem_leaves_iff _ x).2 (.inr hx))

/-- A leaf that is registered for a reserved slot is put there. -/
theorem slotted_addLeaf (hb : Sound b) (k : HubId) (r : Name.Reserved) (x : LeafId)
    (hg : ((b.addLeaf h predicate l).1.hub k).table.byPredicate.get? r.predicate = some x) :
    ((b.addLeaf h predicate l).1.hub k).table.slot r = x := by
  rw [hub_addLeaf free] at hg ⊢
  split at hg
  · rename_i hk
    rw [if_pos hk]
    change ((b.hub h).table.add predicate l).byPredicate.get? r.predicate = some x at hg
    show ((b.hub h).table.add predicate l).slot r = x
    rw [LeafTable.byPredicate_add, Register.get?_put] at hg
    rw [LeafTable.slot_add]
    split at hg
    · rename_i hp
      rw [if_pos hp]
      exact Option.some.inj hg
    · rename_i hp
      rw [if_neg hp]
      exact hb.slotted h r x hg
  · rename_i hk
    rw [if_neg hk]
    exact hb.slotted k r x hg

theorem owned_addLeaf (hb : Sound b) (x : LeafId) (k : HubId)
    (ho : ((b.addLeaf h predicate l).1.leaf x).owner = some k) :
    x ∈ ((b.addLeaf h predicate l).1.hub k).table.byPredicate.values := by
  rw [leaf_addLeaf free] at ho
  rw [hub_addLeaf free]
  split at ho
  · rename_i hx
    cases ho
    rw [if_pos rfl, ← hx]
    exact (values_add _ free l).2 (.inl rfl)
  · have hx := hb.owned x k ho
    split
    · rename_i hk
      rw [← hk] at hx
      exact (values_add _ free x).2 (.inr hx)
    · exact hx

theorem Sound.addLeaf (hb : Sound b) (fair : b.IsFair l) :
    Sound (b.addLeaf h predicate l).1 where
  named name k hn := by
    rw [registry_addLeaf free] at hn
    rw [(like_addLeaf free k).1]
    exact hb.named name k hn
  held k hk := by
    rw [isHubHeld_addLeaf free] at hk
    exact Nat.lt_of_lt_of_le (hb.held k hk) (hubs_addLeaf free)
  rooms := rooms_addLeaf free hb fair
  fair x hx := by
    refine fair_addLeaf free ?_
    rcases known_addLeaf free hx with hx | rfl
    · exact hb.fair x hx
    · exact fair
  slotted := slotted_addLeaf free hb
  owned := owned_addLeaf free hb
  once k := by
    rw [(like_addLeaf free k).2.2.2]
    exact hb.once k
  connections := by
    rw [registry_addLeaf free]
    exact Nat.lt_of_lt_of_le hb.connections (leaves_addLeaf free)
  counter := by
    rw [registry_addLeaf free, sort_addLeaf free]
    exact hb.counter
  sendMeter := by
    rw [registry_addLeaf free]
    exact Nat.lt_of_lt_of_le hb.sendMeter (leaves_addLeaf free)
  meter := by
    rw [registry_addLeaf free, sort_addLeaf free]
    exact hb.meter
  system := by
    rw [registry_addLeaf free]
    exact hb.system
  live := by
    rw [registry_addLeaf free, (like_addLeaf free _).2.2.1]
    exact hb.live
  series k s hs := by
    rw [(like_addLeaf free k).2.1] at hs
    have hr := hb.series k s hs
    refine ⟨?_, ?_, fun f hf => ?_⟩
    · rw [registry_addLeaf free, (like_addLeaf free k).1]
      exact hr.registered
    · rw [(like_addLeaf free k).1]
      exact hr.id
    · rw [addLeaf_fst free]
      exact hr.file f hf
  disk := by
    rw [addLeaf_fst free]
    exact hb.disk
  published k s line hm := by
    rw [addLeaf_fst free] at hm
    exact Nat.lt_of_lt_of_le (hb.published k s line hm) (hubs_addLeaf free)

end AddLeaf

end Sound

end Board

end Switchboard
