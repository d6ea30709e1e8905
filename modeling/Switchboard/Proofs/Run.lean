import Switchboard.Board.Holding
import Switchboard.Board.Session
import Switchboard.Board.Triple
import Switchboard.Request.Answer

/-!
# Runs of a board

Everything that callers can do to a board, as data. A caller acts on the objects that it knows:
hubs and consumers that are held, leaves that are registered or held. `Board.step` does one
operation, and leaves the board alone if the caller could not have asked for it. A run does a
list of them.

A run commits serially. What else can come of a commit that several workers share is up to
executions, of which runs are those that commit serially (`executes_run`).
-/

namespace Switchboard

/-- The kinds of leaves that callers make for themselves. -/
inductive LeafMake
  | scalar
  | array
  | counter
  /-- A meter, with the time that a window has to exceed. -/
  | meter (least : Nat)
  deriving DecidableEq

/-- A leaf of a kind, as it is made at a time. -/
def LeafMake.leaf (name : String) (now : Int) : LeafMake → Leaf
  | .scalar => .scalar name
  | .array => .array name
  | .counter => .counter name
  | .meter least => .meter name least now

/-- What callers edit: they register hubs and leaves, write leaves, and take what waits for a
consumer. -/
inductive Edit
  | register
  | write
  | receive (c : ConsumerId)
  deriving DecidableEq

/-- What a caller does to a board. -/
inductive Op
  -- hubs and leaves
  | openHub (name : String)
  /-- Makes a hub outside of the registries. It has no history. -/
  | makeHub (label name : String)
  | labelHub (label : String) (h : HubId)
  | openLeaf (name : String)
  | makeLeaf (label : String) (kind : LeafMake) (name : String)
  | labelLeaf (label : String) (l : LeafId)
  | dropLeaf (label : String)
  | addLeaf (h : HubId) (predicate : String) (l : LeafId)
  | addMeter (label : String) (h : HubId) (predicate name : String)
  | setVolatile (h : HubId)
  -- transactions
  | openTransaction (kind : UpdateKind)
  | touch (h : HubId)
  | setValue (h : HubId) (predicate : String) (v : Literal)
  | setValues (h : HubId) (predicate : String) (vs : List Literal)
  | classify (subject predicate : String) (object : TripleObject)
  /-- Commits, with one part of the touched hubs published after the other. -/
  | finish
  | abandon
  -- leaves that are written or move outside of a transaction
  | write (l : LeafId) (vs : List Literal) (time : Timestamp)
  | increment (l : LeafId)
  | decrement (l : LeafId)
  | sample (l : LeafId) (now : Int)
  | sampleAll
  -- publication and reading
  | update (h : HubId) (time : Timestamp)
  | formatted (h : HubId)
  | json (h : HubId)
  -- consumers
  | observe (label : String) (noted : Noted) (answers : List Bool) (planned : List (Nat × Action))
  | listen (label : String) (capacity : Nat)
  | connect (label : String) (targets : List HubId) (capacity : Nat)
  | subscribe (h : HubId) (c : ConsumerId)
  | unsubscribe (h : HubId) (c : ConsumerId)
  | close (c : ConsumerId)
  | receive (c : ConsumerId)
  | takeNotes (c : ConsumerId)
  | dropReceiver (c : ConsumerId)
  | dropConsumer (label : String)
  /-- Ends the sessions that nothing holds any more. -/
  | settle
  -- time
  | advance (nanos : Nat)
  | setWall (t : Timestamp)
  | stopSampler
  deriving DecidableEq

namespace Op

/-- The kind of edit that an operation makes, if it makes one. -/
def edit? : Op → Option Edit
  | .openHub _ | .makeHub .. | .openLeaf _ | .makeLeaf .. | .labelLeaf .. | .addLeaf ..
  | .addMeter .. | .classify _ _ (.iri _) => some .register
  | .setValue .. | .setValues .. | .classify _ _ (.literal _) | .write .. => some .write
  | .receive c => some (.receive c)
  | _ => none

/-- Whether an operation makes a kind of edit. -/
def Edits (op : Op) (e : Edit) : Prop := op.edit? = some e

/-- Whether all actions that an operation plans are of `A`. -/
def PlansWithin (A : Action → Prop) : Op → Prop
  | .observe _ _ _ planned => ∀ p ∈ planned, A p.2
  | _ => True

theorem plansWithin_true (op : Op) : op.PlansWithin fun _ => True := by
  cases op with
  | observe label noted answers planned => exact fun _ _ => trivial
  | _ => trivial

end Op

namespace Board

/-- Whether callers can get at a leaf: it is known by name, held under a label, or registered on
a hub. The leaves that a hub makes for its own reserved slots are in none of these places. -/
def isKnownLeaf (b : Board) (l : LeafId) : Bool :=
  b.registry.leaves.values.contains l || b.labels.leaves.values.any (·.leaf = l) ||
    b.hubs.cells.any fun x => x.table.byPredicate.values.contains l

/-- Whether callers still hold a consumer. -/
def isConsumerLabelled (b : Board) (c : ConsumerId) : Bool :=
  b.labels.consumers.values.any fun x => x.held && x.consumer = c

/-- Whether callers can still see what a consumer received. -/
def isConsumerKnown (b : Board) (c : ConsumerId) : Bool :=
  b.labels.consumers.values.any (·.consumer = c)

/-- Whether a hub is known by name. -/
def isRegistered (b : Board) (h : HubId) : Bool := b.registry.hubs.values.contains h

/-- The board after an attempt that may be refused. -/
def orElse {α : Type} (b : Board) : Except RegistryError (Board × α) → Board
  | .ok (b, _) => b
  | .error _ => b

/-- The board after `b'` if the caller may do what leads there. -/
def onlyIf (b : Board) (allowed : Bool) (b' : Board) : Board := if allowed then b' else b

/-- One operation. -/
def step (b : Board) : Op → Board
  | .openHub name => b.orElse (b.openHub name)
  | .makeHub label name => (b.newHub name false).1.labelHub label (b.newHub name false).2
  | .labelHub label h => b.onlyIf (b.isHubHeld h) (b.labelHub label h)
  | .openLeaf name => b.orElse (b.openLeaf name)
  | .makeLeaf label kind name =>
    (b.newLeaf (kind.leaf name b.now)).1.labelLeaf label (b.newLeaf (kind.leaf name b.now)).2 false
  | .labelLeaf label l => b.onlyIf (b.isKnownLeaf l) (b.labelLeaf label l false)
  | .dropLeaf label => (b.dropLeaf label).1
  | .addLeaf h predicate l =>
    b.onlyIf (b.isHubHeld h && b.isKnownLeaf l) (b.addLeaf h predicate l).1
  | .addMeter label h predicate name => b.onlyIf (b.isHubHeld h)
    ((b.addMeter h predicate name).1.labelLeaf label (b.addMeter h predicate name).2 false)
  | .setVolatile h => b.onlyIf (b.isHubHeld h) (b.setVolatile h)
  | .openTransaction kind => b.onlyIf b.transaction.isNone (b.openTransaction kind)
  | .touch h => b.onlyIf (b.isHubHeld h) (b.touch h)
  | .setValue h predicate v => b.onlyIf (b.isHubHeld h) (b.setValue h predicate v).1
  | .setValues h predicate vs => b.onlyIf (b.isHubHeld h) (b.setValues h predicate vs).1
  | .classify subject predicate object =>
    b.onlyIf b.transaction.isSome (b.classify subject predicate object).1
  | .finish => b.finish.1
  | .abandon => b.abandon
  | .write l vs time => b.onlyIf (b.isKnownLeaf l) (b.modifyLeaf l (·.writeAll vs time))
  | .increment l => b.onlyIf (b.isKnownLeaf l) (b.count l 1).1
  | .decrement l => b.onlyIf (b.isKnownLeaf l) (b.count l (-1)).1
  | .sample l now => b.onlyIf (b.isKnownLeaf l) (b.sample l now).1
  | .sampleAll => b.sampleAll.1
  | .update h time => b.onlyIf (b.isHubHeld h) (b.publish h time)
  | .formatted h => b.onlyIf (b.isHubHeld h) (b.formatted h).1
  | .json h => b.onlyIf (b.isHubHeld h) (b.json h).1
  | .observe label noted answers planned =>
    (b.newConsumer (.observer { noted, answers, planned })).1.labelConsumer label
      (b.newConsumer (.observer { noted, answers, planned })).2
  | .listen label capacity =>
    (b.newConsumer (.channel { capacity })).1.labelConsumer label
      (b.newConsumer (.channel { capacity })).2
  | .connect label targets capacity => b.onlyIf (targets.all b.isRegistered)
    ((b.connect targets capacity).1.labelConsumer label (b.connect targets capacity).2)
  | .subscribe h c => b.onlyIf (b.isHubHeld h && b.isConsumerLabelled c) (b.subscribe h c)
  | .unsubscribe h c => b.onlyIf (b.isHubHeld h && b.isConsumerLabelled c) (b.unsubscribe h c)
  | .close c => b.onlyIf (b.isConsumerLabelled c) (b.close c)
  | .receive c => b.onlyIf (b.isConsumerKnown c) (b.receive c).1
  | .takeNotes c => b.onlyIf (b.isConsumerKnown c) (b.takeNotes c).1
  | .dropReceiver c => b.onlyIf (b.isConsumerKnown c) (b.dropReceiver c).1
  | .dropConsumer label => (b.dropConsumer label).1
  | .settle => b.settle
  | .advance nanos => b.advance nanos
  | .setWall t => b.setWall t
  | .stopSampler => b.stopSampler

/-- Operations in order. -/
def run (b : Board) (ops : List Op) : Board := ops.foldl step b

@[simp] theorem run_nil (b : Board) : b.run [] = b := rfl

@[simp] theorem run_cons (b : Board) (op : Op) (ops : List Op) :
    b.run (op :: ops) = (b.step op).run ops := rfl

theorem run_append (b : Board) (ops ops' : List Op) : b.run (ops ++ ops') = (b.run ops).run ops' :=
  List.foldl_append

@[simp] theorem onlyIf_true (b b' : Board) : b.onlyIf true b' = b' := rfl

/-- An operation that is allowed or left out has what both cases have. -/
theorem onlyIf_of {P : Board → Prop} {b b' : Board} {allowed : Bool} (left : P b)
    (done : allowed = true → P b') : P (b.onlyIf allowed b') := by
  unfold onlyIf
  split
  · exact done ‹_›
  · exact left

/-- An attempt that succeeds or is refused has what both cases have. -/
theorem orElse_of {α : Type} {P : Board → Prop} {b : Board}
    {attempt : Except RegistryError (Board × α)} (left : P b)
    (done : ∀ b' a, attempt = .ok (b', a) → P b') : P (b.orElse attempt) := by
  unfold orElse
  split
  · exact done _ _ rfl
  · exact left

/-- A hub that is known by name is held. -/
theorem isHubHeld_of_isRegistered {b : Board} {h : HubId} (hr : b.isRegistered h = true) :
    b.isHubHeld h = true := by
  unfold isRegistered at hr
  simp only [isHubHeld, hr, Bool.or_true, Bool.true_or]

/-- Whether each operation of a run has a property, of the board that it finds and of itself. -/
def EachStep (P : Board → Op → Prop) : Board → List Op → Prop
  | _, [] => True
  | b, op :: ops => P b op ∧ EachStep P (b.step op) ops

instance (P : Board → Op → Prop) [∀ b op, Decidable (P b op)] :
    ∀ b ops, Decidable (EachStep P b ops)
  | _, [] => .isTrue trivial
  | b, op :: ops =>
    have := instDecidableEachStep P (b.step op) ops
    inferInstanceAs (Decidable (P b op ∧ EachStep P (b.step op) ops))

/-! ### What happened -/

/-- The events of a board, oldest first. -/
def events (b : Board) : List Event := b.journal.reverse

/-- What happened between `b` and a later `b'`, oldest first. -/
def news (b b' : Board) : List Event := b'.events.drop b.events.length

end Board

end Switchboard
