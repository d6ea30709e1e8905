import Switchboard.Consumer
import Switchboard.Hub.Basic
import Switchboard.Settings
import Switchboard.Store

/-!
# The board

The whole state of a switchboard: its clocks, its leaves, hubs and consumers, the history
directory, the registries, the open transaction, and the labels under which callers hold
objects. An object that nothing holds any more is gone: a counter does not publish such a hub,
and a meter that is gone is not sampled.

The journal holds every publication and every delivery, latest first. Nothing reads it back:
it is what the logs (`ChangesBy.content`), the queues (`Executes.received`) and the snapshots
(`ChangesBy.snapshot`) are compared with.
-/

namespace Switchboard

/-- What happens on a board, as far as others can see it. -/
inductive Event
  /-- A hub published a snapshot, rendered as a line. -/
  | published (hub : HubId) (snapshot : Snapshot) (line : String)
  /-- A consumer was told of a publication and answered whether it stays. -/
  | informed (consumer : ConsumerId) (hub : HubId) (stays : Bool)
  /-- A message about a hub was accepted into the queue of a consumer. -/
  | queued (consumer : ConsumerId) (hub : HubId) (message : String)
  /-- A message about a hub was lost, since the queue of a consumer was full. -/
  | lost (consumer : ConsumerId) (hub : HubId)
  /-- A session ended. -/
  | ended (session : ConsumerId)
  deriving DecidableEq

/-- The two ways of writing. They differ in name only. -/
inductive UpdateKind
  | triple
  | batch
  deriving DecidableEq, Inhabited

/-- An open transaction: the time at which it was opened, and the hubs written in it, by name in
order of their first write. -/
structure Transaction where
  openedAt : Timestamp
  kind : UpdateKind
  touched : Register HubId := Register.empty
  deriving Inhabited

/-- The hubs and leaves that are known by name, the hub with the statistics of the switchboard
and its two leaves, and the meters that are sampled. -/
structure Registry where
  hubs : Register HubId := Register.empty
  hubsById : Register HubId := Register.empty
  leaves : Register LeafId := Register.empty
  meters : List LeafId := []
  system : HubId := ⟨0⟩
  connections : LeafId := ⟨0⟩
  sendMeter : LeafId := ⟨0⟩
  deriving Inhabited

/-- How a caller holds a leaf. A caller that holds it plainly can read and write it only. -/
structure LeafLabel where
  leaf : LeafId
  plain : Bool
  deriving DecidableEq, Inhabited

/-- How a caller holds a consumer. What it received can be read even if it is not held. -/
structure ConsumerLabel where
  consumer : ConsumerId
  held : Bool := true
  deriving DecidableEq, Inhabited

/-- The objects that callers hold, by the labels they gave them. -/
structure Labels where
  hubs : Register HubId := Register.empty
  leaves : Register LeafLabel := Register.empty
  consumers : Register ConsumerLabel := Register.empty
  deriving Inhabited

/-- The state of a switchboard. `now` is a clock in nanoseconds that never goes back,
`sampleDue` the time on it at which all meters are sampled next. -/
structure Board where
  settings : Settings := {}
  wall : Timestamp := default
  now : Int := 0
  leaves : Store Leaf := {}
  hubs : Store Hub := {}
  consumers : Store Consumer := {}
  disk : Disk := {}
  registry : Registry := {}
  transaction : Option Transaction := none
  labels : Labels := {}
  sampleDue : Option Int := none
  journal : List Event := []
  deriving Inhabited

namespace Board

/-! ### Objects -/

/-- The leaf with an identity. -/
def leaf (b : Board) (l : LeafId) : Leaf := b.leaves.get l.index

/-- The hub with an identity. -/
def hub (b : Board) (h : HubId) : Hub := b.hubs.get h.index

/-- The consumer with an identity. -/
def consumer (b : Board) (c : ConsumerId) : Consumer := b.consumers.get c.index

/-- Changes a leaf. -/
def modifyLeaf (b : Board) (l : LeafId) (f : Leaf → Leaf) : Board :=
  { b with leaves := b.leaves.modify l.index f }

/-- Changes a hub. -/
def modifyHub (b : Board) (h : HubId) (f : Hub → Hub) : Board :=
  { b with hubs := b.hubs.modify h.index f }

/-- Changes a consumer. -/
def setConsumer (b : Board) (c : ConsumerId) (x : Consumer) : Board :=
  { b with consumers := b.consumers.put c.index x }

/-- Makes a leaf. -/
def newLeaf (b : Board) (l : Leaf) : Board × LeafId :=
  ({ b with leaves := b.leaves.add l }, ⟨b.leaves.size⟩)

/-- Makes a consumer. -/
def newConsumer (b : Board) (x : Consumer) : Board × ConsumerId :=
  ({ b with consumers := b.consumers.add x }, ⟨b.consumers.size⟩)

/-- Notes an event in the journal. -/
def note (b : Board) (e : Event) : Board := { b with journal := e :: b.journal }

/-! ### What is held -/

/-- Whether a hub is held by a registry, a label or the open transaction. -/
def isHubHeld (b : Board) (h : HubId) : Bool :=
  h = b.registry.system || b.registry.hubs.values.contains h || b.labels.hubs.values.contains h ||
    b.transaction.any fun tx => tx.touched.values.contains h

/-- The hubs that are held. -/
def heldHubs (b : Board) : List HubId :=
  ((List.range b.hubs.size).map HubId.mk).filter b.isHubHeld

/-- Whether a leaf is held by a registry, a label or a hub that is held. -/
def isLeafHeld (b : Board) (l : LeafId) : Bool :=
  l = b.registry.connections || l = b.registry.sendMeter ||
    b.registry.leaves.values.contains l || b.labels.leaves.values.any (·.leaf = l) ||
    b.heldHubs.any fun h => (b.hub h).table.leaves.contains l

/-- Whether a consumer is held by a label or a hub that is held. -/
def isConsumerHeld (b : Board) (c : ConsumerId) : Bool :=
  b.labels.consumers.values.any (fun x => x.held && x.consumer = c) ||
    b.heldHubs.any fun h => (b.hub h).consumers.contains c

/-! ### Reading after a change -/

section Reading

variable (b : Board)

theorem leaf_modifyLeaf (l k : LeafId) (f : Leaf → Leaf) :
    (b.modifyLeaf l f).leaf k = if l = k then f (b.leaf l) else b.leaf k := by
  obtain ⟨i⟩ := l
  obtain ⟨j⟩ := k
  simp [leaf, modifyLeaf, Store.modify, Store.get_put]

theorem hub_modifyHub (h k : HubId) (f : Hub → Hub) :
    (b.modifyHub h f).hub k = if h = k then f (b.hub h) else b.hub k := by
  obtain ⟨i⟩ := h
  obtain ⟨j⟩ := k
  simp [hub, modifyHub, Store.modify, Store.get_put]

theorem consumer_setConsumer (c d : ConsumerId) (x : Consumer) :
    (b.setConsumer c x).consumer d = if c = d then x else b.consumer d := by
  obtain ⟨i⟩ := c
  obtain ⟨j⟩ := d
  simp [consumer, setConsumer, Store.get_put]

theorem leaf_newLeaf (x : Leaf) (l : LeafId) :
    (b.newLeaf x).1.leaf l = if (b.newLeaf x).2 = l then x else b.leaf l := by
  obtain ⟨i⟩ := l
  simp [leaf, newLeaf, Store.get_add]

theorem consumer_newConsumer (x : Consumer) (c : ConsumerId) :
    (b.newConsumer x).1.consumer c = if (b.newConsumer x).2 = c then x else b.consumer c := by
  obtain ⟨i⟩ := c
  simp [consumer, newConsumer, Store.get_add]

@[simp] theorem leaf_modifyHub (h : HubId) (f : Hub → Hub) (l : LeafId) :
    (b.modifyHub h f).leaf l = b.leaf l := rfl

@[simp] theorem leaf_setConsumer (c : ConsumerId) (x : Consumer) (l : LeafId) :
    (b.setConsumer c x).leaf l = b.leaf l := rfl

@[simp] theorem leaf_note (e : Event) (l : LeafId) : (b.note e).leaf l = b.leaf l := rfl

@[simp] theorem hub_modifyLeaf (l : LeafId) (f : Leaf → Leaf) (h : HubId) :
    (b.modifyLeaf l f).hub h = b.hub h := rfl

@[simp] theorem hub_setConsumer (c : ConsumerId) (x : Consumer) (h : HubId) :
    (b.setConsumer c x).hub h = b.hub h := rfl

@[simp] theorem hub_note (e : Event) (h : HubId) : (b.note e).hub h = b.hub h := rfl

@[simp] theorem consumer_modifyLeaf (l : LeafId) (f : Leaf → Leaf) (c : ConsumerId) :
    (b.modifyLeaf l f).consumer c = b.consumer c := rfl

@[simp] theorem consumer_modifyHub (h : HubId) (f : Hub → Hub) (c : ConsumerId) :
    (b.modifyHub h f).consumer c = b.consumer c := rfl

@[simp] theorem consumer_note (e : Event) (c : ConsumerId) :
    (b.note e).consumer c = b.consumer c := rfl

end Reading

end Board

end Switchboard
