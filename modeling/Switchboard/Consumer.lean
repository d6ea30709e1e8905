import Switchboard.Identity
import Switchboard.Literal.Basic

/-!
# Consumers

A consumer is told of every publication of the hubs it subscribes to, and answers whether it
stays subscribed. A channel queues the published text. A session does so too, and counts as an
open connection while it is alive. An observer notes what it is told, acts as planned and
answers as planned.

* `Queue.offer_accepted`: a message that is accepted waits behind the others.
-/

namespace Switchboard

/-- Messages on their way to a receiver. -/
structure Queue where
  capacity : Nat
  waiting : List String := []
  receiving : Bool := true
  deriving DecidableEq, Inhabited

/-- What becomes of a message. -/
inductive Delivery
  | accepted
  | full
  | disconnected
  deriving DecidableEq

namespace Queue

/-- Offers a message. Without a receiver, and with a full queue, it is dropped. -/
def offer (q : Queue) (message : String) : Queue × Delivery :=
  if !q.receiving then (q, .disconnected)
  else if q.waiting.length < q.capacity then
    ({ q with waiting := q.waiting ++ [message] }, .accepted)
  else (q, .full)

/-- Takes out all messages. -/
def takeAll (q : Queue) : Queue × List String := ({ q with waiting := [] }, q.waiting)

/-- The queue after its receiver has gone. What was waiting is lost. -/
def close (q : Queue) : Queue := { q with waiting := [], receiving := false }

/-- A message that is accepted waits behind the others. -/
theorem offer_accepted {q r : Queue} {message : String} (ho : q.offer message = (r, .accepted)) :
    q.receiving = true ∧ r = { q with waiting := q.waiting ++ [message] } := by
  unfold offer at ho
  cases hr : q.receiving with
  | false =>
    rw [hr] at ho
    cases ho
  | true =>
    rw [hr] at ho
    split at ho
    · cases ho
    · split at ho <;> cases ho
      exact ⟨rfl, rfl⟩

end Queue

/-- A streaming connection: its queue, whether it is still open, and the hubs it was opened on. -/
structure Session where
  queue : Queue
  alive : Bool := true
  targets : List HubId := []
  deriving DecidableEq, Inhabited

/-- What an observer notes of a publication: the wrapped text, the text, or the id of the hub. -/
inductive Noted
  | wrapped
  | text
  | id
  deriving DecidableEq, Inhabited

/-- What an observer does when it is told of a publication. Objects are named by the labels that
they have at that moment. -/
inductive Action
  | subscribe (hub consumer : String)
  | unsubscribe (hub consumer : String)
  | update (hub : String)
  | set (leaf : String) (value : Literal)
  | increment (leaf : String)
  | decrement (leaf : String)
  deriving DecidableEq, Inhabited

/-- A consumer that notes publications and acts as planned. `planned` holds the actions that are
still to come, each with the number of the call it belongs to. `answers` are given in turn, the
last one from then on. -/
structure Observer where
  noted : Noted := .wrapped
  answers : List Bool := []
  planned : List (Nat × Action) := []
  calls : Nat := 0
  notes : List String := []
  deriving DecidableEq, Inhabited

namespace Observer

/-- The answer to the present call. -/
def answer (o : Observer) : Bool := (o.answers[o.calls]?).getD (o.answers.getLastD true)

/-- The actions of the present call. -/
def due (o : Observer) : List Action :=
  (o.planned.filter fun p => p.1 = o.calls).map Prod.snd

/-- The observer after it was called and noted something. Its due actions are not planned any
more. -/
def called (o : Observer) (note : String) : Observer :=
  { o with
    calls := o.calls + 1
    planned := o.planned.filter fun p => p.1 ≠ o.calls
    notes := o.notes ++ [note] }

end Observer

/-- A receiver of publications. -/
inductive Consumer
  | observer (o : Observer)
  | channel (q : Queue)
  | session (s : Session)
  deriving DecidableEq, Inhabited

namespace Consumer

/-- The queue of a channel or session. -/
def queue? : Consumer → Option Queue
  | .observer _ => none
  | .channel q => some q
  | .session s => some s.queue

/-- The consumer with another queue, if it has one. -/
def withQueue (c : Consumer) (q : Queue) : Consumer :=
  match c with
  | .observer o => .observer o
  | .channel _ => .channel q
  | .session s => .session { s with queue := q }

/-- The messages that wait for the receiver. -/
def waiting (c : Consumer) : List String :=
  match c.queue? with
  | some q => q.waiting
  | none => []

/-- How many publications the consumer can still bring about by itself: one for each planned
action, and one for the end of an open session. -/
def unrest : Consumer → Nat
  | .observer o => o.planned.length
  | .channel _ => 0
  | .session s => if s.alive then 1 else 0

end Consumer

end Switchboard
