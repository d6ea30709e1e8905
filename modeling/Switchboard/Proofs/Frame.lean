import Switchboard.Proofs.Post
import Switchboard.Proofs.Run

/-!
# What publications leave as it was

Publishing a hub moves counters, fills queues and writes to the history, and it may bring about
any number of further publications. All the same it leaves most of a board as it was: the
registries, the labels, the open transaction, the clocks, which leaves a hub has, and of what kind
each leaf is. `Board.Frame` collects this. It is reflexive and transitive, so it only has to be
shown for single changes.
-/

namespace Switchboard

/-- The kinds of contents of a leaf. -/
inductive LeafSort
  | scalar
  | array
  | counter
  | meter
  deriving DecidableEq

namespace Leaf

/-- The kind of content of a leaf. -/
def sort (l : Leaf) : LeafSort :=
  match l.body with
  | .scalar _ => .scalar
  | .array _ => .array
  | .counter _ => .counter
  | .meter _ => .meter

/-- Whether a leaf is a plain cell, which holds what is written to it. -/
def isCell (l : Leaf) : Bool := l.sort = .scalar || l.sort = .array

theorem isArray_eq_sort (l : Leaf) : l.isArray = decide (l.sort = .array) := by
  unfold isArray sort
  cases l.body <;> rfl

/-- What a leaf keeps whatever is done to it: its name and its kind. -/
structure Alike (l k : Leaf) : Prop where
  name : k.name = l.name
  sort : k.sort = l.sort

theorem Alike.refl (l : Leaf) : Alike l l := ⟨rfl, rfl⟩

theorem Alike.trans {l k m : Leaf} (h : Alike l k) (h' : Alike k m) : Alike l m :=
  ⟨h'.name.trans h.name, h'.sort.trans h.sort⟩

theorem Alike.isCell {l k : Leaf} (h : Alike l k) : k.isCell = l.isCell := by
  rw [Leaf.isCell, Leaf.isCell, h.sort]

theorem Alike.isArray {l k : Leaf} (h : Alike l k) : k.isArray = l.isArray := by
  rw [isArray_eq_sort, isArray_eq_sort, h.sort]

theorem alike_writeAll (l : Leaf) (vs : List Literal) (time : Timestamp) :
    Alike l (l.writeAll vs time) := by
  unfold writeAll
  constructor <;> split <;> simp_all [Leaf.sort]

theorem owner_writeAll (l : Leaf) (vs : List Literal) (time : Timestamp) :
    (l.writeAll vs time).owner = l.owner := by
  unfold writeAll
  split <;> rfl

end Leaf

/-- What a hub keeps while hubs are published: its name, its leaves, its series, and whether it
is volatile. -/
structure Hub.Alike (h k : Hub) : Prop where
  name : k.name = h.name
  table : k.table = h.table
  series : k.series = h.series
  isVolatile : k.isVolatile = h.isVolatile

theorem Hub.Alike.refl (h : Hub) : Hub.Alike h h := ⟨rfl, rfl, rfl, rfl⟩

theorem Hub.Alike.trans {h k m : Hub} (a : Hub.Alike h k) (b : Hub.Alike k m) : Hub.Alike h m :=
  ⟨b.name.trans a.name, b.table.trans a.table, b.series.trans a.series,
    b.isVolatile.trans a.isVolatile⟩

/-- What the history directory keeps while lines are appended: which names lead to which files. -/
structure Disk.Alike (d e : Disk) : Prop where
  usable : e.usable = d.usable
  names : e.names = d.names
  size : d.contents.size ≤ e.contents.size

namespace Board

/-- **What publications leave as it was.** -/
structure Frame (b b' : Board) : Prop where
  settings : b'.settings = b.settings
  wall : b'.wall = b.wall
  now : b'.now = b.now
  registry : b'.registry = b.registry
  transaction : b'.transaction = b.transaction
  labels : b'.labels = b.labels
  sampleDue : b'.sampleDue = b.sampleDue
  leafCount : b.leaves.size ≤ b'.leaves.size
  hubCount : b.hubs.size ≤ b'.hubs.size
  consumerCount : b.consumers.size ≤ b'.consumers.size
  leaf : ∀ l, Leaf.Alike (b.leaf l) (b'.leaf l)
  owner : ∀ l, (b'.leaf l).owner = (b.leaf l).owner
  hub : ∀ h, Hub.Alike (b.hub h) (b'.hub h)
  disk : Disk.Alike b.disk b'.disk

namespace Frame

variable {b b' b'' : Board}

protected theorem refl (b : Board) : Frame b b where
  settings := rfl
  wall := rfl
  now := rfl
  registry := rfl
  transaction := rfl
  labels := rfl
  sampleDue := rfl
  leafCount := Nat.le_refl _
  hubCount := Nat.le_refl _
  consumerCount := Nat.le_refl _
  leaf _ := .refl _
  owner _ := rfl
  hub _ := .refl _
  disk := ⟨rfl, rfl, Nat.le_refl _⟩

protected theorem trans (h : Frame b b') (h' : Frame b' b'') : Frame b b'' where
  settings := h'.settings.trans h.settings
  wall := h'.wall.trans h.wall
  now := h'.now.trans h.now
  registry := h'.registry.trans h.registry
  transaction := h'.transaction.trans h.transaction
  labels := h'.labels.trans h.labels
  sampleDue := h'.sampleDue.trans h.sampleDue
  leafCount := Nat.le_trans h.leafCount h'.leafCount
  hubCount := Nat.le_trans h.hubCount h'.hubCount
  consumerCount := Nat.le_trans h.consumerCount h'.consumerCount
  leaf l := (h.leaf l).trans (h'.leaf l)
  owner l := (h'.owner l).trans (h.owner l)
  hub k := (h.hub k).trans (h'.hub k)
  disk := ⟨h'.disk.usable.trans h.disk.usable, h'.disk.names.trans h.disk.names,
    Nat.le_trans h.disk.size h'.disk.size⟩

/-- What is held stays held. -/
theorem isHubHeld (h : Frame b b') (k : HubId) : b'.isHubHeld k = b.isHubHeld k := by
  unfold Board.isHubHeld
  rw [h.registry, h.labels, h.transaction]

/-! ### Single changes -/

theorem modifyLeaf (b : Board) {l : LeafId} {f : Leaf → Leaf}
    (hf : Leaf.Alike (b.leaf l) (f (b.leaf l))) (ho : (f (b.leaf l)).owner = (b.leaf l).owner) :
    Frame b (b.modifyLeaf l f) := by
  refine { Frame.refl b with leafCount := ?_, leaf := fun k => ?_, owner := fun k => ?_ }
  · show b.leaves.size ≤ (b.leaves.put _ _).size
    rw [Store.size_put]
    omega
  · rw [leaf_modifyLeaf]
    split
    · rename_i hk; subst hk; exact hf
    · exact .refl _
  · rw [leaf_modifyLeaf]
    split
    · rename_i hk; subst hk; exact ho
    · rfl

theorem modifyHub (b : Board) {h : HubId} {f : Hub → Hub}
    (hf : Hub.Alike (b.hub h) (f (b.hub h))) : Frame b (b.modifyHub h f) := by
  refine { Frame.refl b with hubCount := ?_, hub := fun k => ?_ }
  · show b.hubs.size ≤ (b.hubs.put _ _).size
    rw [Store.size_put]
    omega
  · rw [hub_modifyHub]
    split
    · rename_i hk; subst hk; exact hf
    · exact .refl _

theorem setConsumer (b : Board) (c : ConsumerId) (x : Consumer) : Frame b (b.setConsumer c x) := by
  refine { Frame.refl b with consumerCount := ?_ }
  show b.consumers.size ≤ (b.consumers.put _ _).size
  rw [Store.size_put]
  omega

theorem note (b : Board) (e : Event) : Frame b (b.note e) := { Frame.refl b with }

theorem writeLeaf (b : Board) (l : LeafId) (vs : List Literal) (time : Timestamp) :
    Frame b (b.modifyLeaf l (·.writeAll vs time)) :=
  modifyLeaf b (Leaf.alike_writeAll _ vs time) (Leaf.owner_writeAll _ vs time)

theorem stamp (b : Board) (h : HubId) (time : Timestamp) : Frame b (b.stamp h time) :=
  (writeLeaf b _ [instantOf time] time).trans (writeLeaf _ _ [datetimeOf time] time)

theorem log (b : Board) (h : HubId) (line : String) : Frame b (b.log h line) := by
  unfold Board.log
  split
  · rename_i s _
    refine { Frame.refl b with disk := ?_ }
    show Disk.Alike b.disk (s.write b.disk line)
    unfold TimeSeries.write
    split
    · refine ⟨rfl, rfl, ?_⟩
      show b.disk.contents.size ≤ (b.disk.contents.put _ _).size
      rw [Store.size_put]
      omega
    · exact ⟨rfl, rfl, Nat.le_refl _⟩
  · exact Frame.refl b

theorem keep (b : Board) (h : HubId) (s : Snapshot) (line : String) : Frame b (b.keep h s line) :=
  modifyHub b ⟨rfl, rfl, rfl, rfl⟩

theorem post (b : Board) (h : HubId) (time : Timestamp) : Frame b (b.post h time) := by
  unfold Board.post
  exact (((stamp b h time).trans (log _ h _)).trans (keep _ h _ _)).trans (note _ _)

theorem formatted (b : Board) (h : HubId) : Frame b (b.formatted h).1 := by
  unfold Board.formatted
  split
  · exact Frame.refl b
  · split
    · exact Frame.refl b
    · exact modifyHub b ⟨rfl, rfl, rfl, rfl⟩

theorem json (b : Board) (h : HubId) : Frame b (b.json h).1 := by
  unfold Board.json
  split
  · exact Frame.refl b
  · split
    · exact Frame.refl b
    · exact (formatted b h).trans (modifyHub _ ⟨rfl, rfl, rfl, rfl⟩)

end Frame

/-! ### Texts -/

variable {b b' : Board}

/-- A text shows values in the same way as long as the leaves stay of their kinds. -/
theorem render_congr {h : HubId} (ht : (b'.hub h).table = (b.hub h).table)
    (ha : ∀ l, Leaf.Alike (b.leaf l) (b'.leaf l)) (s : Snapshot) :
    b'.render h s = b.render h s := by
  unfold render LeafTable.render LeafTable.entries
  rw [ht]
  simp only [fun l => (ha l).isArray]

theorem render_eq (hf : Frame b b') (h : HubId) (s : Snapshot) : b'.render h s = b.render h s :=
  render_congr (hf.hub h).table hf.leaf s

theorem postedLine_eq (b : Board) (h : HubId) (time : Timestamp) :
    b.postedLine h time = b.render h (b.posted h time) :=
  render_eq (Frame.stamp b h time) h _

end Board

end Switchboard
