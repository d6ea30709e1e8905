import Switchboard.Board.Clock
import Switchboard.Board.Transaction

/-!
# Labels and the end of objects

Callers hold objects under labels. A session that nothing holds any more ends: it is closed, if
it was not, when the last holder lets go. A channel that nothing holds is disconnected, which its
receiver sees once the waiting messages are taken.
-/

namespace Switchboard

namespace Board

/-- Texts in ascending order. -/
def ascending (ss : List String) : List String := ss.mergeSort fun a b => a ≤ b

/-- The labels under which a hub is held. -/
def hubLabels (b : Board) (h : HubId) : List String :=
  ascending ((b.labels.hubs.entries.filter fun e => e.2 = h).map Prod.fst)

/-- The labels under which a leaf is held. -/
def leafLabels (b : Board) (l : LeafId) : List String :=
  ascending ((b.labels.leaves.entries.filter fun e => e.2.leaf = l).map Prod.fst)

/-- Ends the sessions that nothing holds. -/
def settle (b : Board) : Board :=
  ((List.range b.consumers.size).map ConsumerId.mk).foldl
    (fun b c => if b.isConsumerHeld c then b else b.close c) b

/-- Holds a hub under a label. -/
def labelHub (b : Board) (label : String) (h : HubId) : Board :=
  { b with labels := { b.labels with hubs := b.labels.hubs.put label h } }

/-- Holds a leaf under a label. -/
def labelLeaf (b : Board) (label : String) (l : LeafId) (plain : Bool) : Board :=
  { b with labels := { b.labels with leaves := b.labels.leaves.put label ⟨l, plain⟩ } }

/-- Lets go of the receiver of a consumer. The flag says whether there was one. -/
def dropReceiver (b : Board) (c : ConsumerId) : Board × Bool :=
  match (b.consumer c).queue? with
  | some q => (b.setConsumer c ((b.consumer c).withQueue q.close), q.receiving)
  | none => (b, false)

/-- Holds a consumer under a label. An older one of that label is let go, and its receiver. -/
def labelConsumer (b : Board) (label : String) (c : ConsumerId) : Board :=
  let b := match b.labels.consumers.get? label with
    | some old => (b.dropReceiver old.consumer).1
    | none => b
  { b with labels := { b.labels with consumers := b.labels.consumers.put label ⟨c, true⟩ } }

/-- Lets go of a leaf. The flag says whether it was held. -/
def dropLeaf (b : Board) (label : String) : Board × Bool :=
  ({ b with labels := { b.labels with leaves := b.labels.leaves.erase label } },
    b.labels.leaves.contains label)

/-- Lets go of a consumer, but not of its receiver. The flag says whether it was held. -/
def dropConsumer (b : Board) (label : String) : Board × Bool :=
  match b.labels.consumers.get? label with
  | some x =>
    ({ b with labels := { b.labels with
        consumers := b.labels.consumers.put label { x with held := false } } }, x.held)
  | none => (b, false)

/-- Takes the waiting messages of a consumer. The flag says whether more can come. There is
nothing to take without a receiver. -/
def receive (b : Board) (c : ConsumerId) : Board × Option (List String × Bool) :=
  match (b.consumer c).queue? with
  | some q =>
    if q.receiving then
      let (q, got) := q.takeAll
      (b.setConsumer c ((b.consumer c).withQueue q), some (got, b.isConsumerHeld c))
    else (b, none)
  | none => (b, none)

/-- Takes what an observer has noted. -/
def takeNotes (b : Board) (c : ConsumerId) : Board × List String :=
  match b.consumer c with
  | .observer o => (b.setConsumer c (.observer { o with notes := [] }), o.notes)
  | _ => (b, [])

end Board

end Switchboard
