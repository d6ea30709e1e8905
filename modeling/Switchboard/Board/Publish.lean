import Switchboard.Board.Basic

/-!
# Publication

A hub is published in two parts. First it is posted: its reserved leaves are stamped with the
time, the values of all leaves are captured, and the text is logged and kept. Then its consumers
are told, one after the other, those that were subscribed when this began. Consumers that do not
stay are unsubscribed at the end.

A consumer can bring about further publications while it is told of one, by a planned action of
an observer or by the end of a session. Each of them uses up something that does not come back:
the action, or the open session. `Board.unrest` counts these, so it bounds how deep publications
can be nested.
-/

namespace Switchboard

namespace Board

/-! ### Texts of a hub -/

/-- The values of the leaves of a hub as they are. -/
def capture (b : Board) (h : HubId) (time : Timestamp) : Snapshot :=
  (b.hub h).table.capture b.leaf time

/-- The text of a snapshot of a hub. -/
def render (b : Board) (h : HubId) (s : Snapshot) : String :=
  String.ofList ((b.hub h).table.render b.leaf s)

/-- The text of the leaves of a hub as they are. -/
def liveText (b : Board) (h : HubId) : String := b.render h (b.capture h b.wall)

/-- The text of a hub. That of a volatile hub is rendered anew, that of another hub is kept until
it is published or gets a leaf. -/
def formatted (b : Board) (h : HubId) : Board × String :=
  if (b.hub h).isVolatile then (b, b.liveText h)
  else match (b.hub h).formatted with
    | some text => (b, text)
    | none => (b.modifyHub h ({ · with formatted := some (b.liveText h) }), b.liveText h)

/-- The text of a hub wrapped with its id. It is kept as the text is. -/
def json (b : Board) (h : HubId) : Board × String :=
  if (b.hub h).isVolatile then (b, (b.hub h).wrap (b.liveText h))
  else match (b.hub h).wrapped with
    | some text => (b, text)
    | none =>
      let (b, text) := b.formatted h
      let wrapped := (b.hub h).wrap text
      (b.modifyHub h ({ · with wrapped := some wrapped }), wrapped)

/-! ### Posting -/

/-- The literal for a time in the instant slot. -/
def instantOf (time : Timestamp) : Literal :=
  { lexical := String.ofList (Decimal.text time.epochMillis), datatype := .unsignedLong }

/-- The literal for a time in the datetime slot. -/
def datetimeOf (time : Timestamp) : Literal :=
  { lexical := String.ofList time.millisText, datatype := .dateTime }

/-- Writes the time into the reserved slots of a hub. -/
def stamp (b : Board) (h : HubId) (time : Timestamp) : Board :=
  let t := (b.hub h).table
  (b.modifyLeaf t.instant (·.write (instantOf time) time)).modifyLeaf t.datetime
    (·.write (datetimeOf time) time)

/-- Appends a line to the history of a hub. -/
def log (b : Board) (h : HubId) (line : String) : Board :=
  match (b.hub h).series with
  | some s => { b with disk := s.write b.disk line }
  | none => b

/-- Makes a snapshot and its text what the hub published last. -/
def keep (b : Board) (h : HubId) (s : Snapshot) (line : String) : Board :=
  b.modifyHub h fun x =>
    { x with formatted := some line, wrapped := some (x.wrap line), snapshot := some s }

/-- Stamps, captures, logs and keeps the values of a hub. -/
def post (b : Board) (h : HubId) (time : Timestamp) : Board :=
  let b := b.stamp h time
  let s := b.capture h time
  let line := b.render h s
  ((b.log h line).keep h s line).note (.published h s line)

/-! ### Informing consumers

`nested` publishes a hub while another one is being published. -/

section Inform

variable (nested : Board → HubId → Timestamp → Board)

/-- Publishes the owner of a leaf, at the present time. -/
def refresh (b : Board) (l : LeafId) : Board :=
  match (b.leaf l).owner with
  | some h => if b.isHubHeld h then nested b h b.wall else b
  | none => b

/-- Moves a counter or meter by a number of steps. A counter publishes its owner. The count
after the step is given, if the leaf has one. -/
def countWith (b : Board) (l : LeafId) (steps : Int) : Board × Option Int :=
  match (b.leaf l).body with
  | .counter n =>
    let b := b.modifyLeaf l fun x =>
      { x with body := .counter (n + steps), updatedAt := some b.wall }
    (b.refresh nested l, some (n + steps))
  | .meter m =>
    (b.modifyLeaf l fun x => { x with body := .meter { m with count := m.count + steps } },
      some (m.count + steps))
  | _ => (b, none)

/-- The same for a leaf that a caller holds. Plainly held leaves do not move. -/
def countLabelledWith (b : Board) (x : LeafLabel) (steps : Int) : Board × Option Int :=
  if x.plain then (b, none) else b.countWith nested x.leaf steps

/-- Ends a session, which takes one off the open connections. -/
def closeWith (b : Board) (c : ConsumerId) : Board :=
  match b.consumer c with
  | .session s =>
    if s.alive then
      -- closed before it is counted: the count may be published to this very session
      (((b.setConsumer c (.session { s with alive := false })).note (.ended c)).countWith nested
        b.registry.connections (-1)).1
    else b
  | _ => b

/-- Does one planned action. What is not labelled any more is left alone. -/
def act (b : Board) : Action → Board
  | .subscribe hub consumer =>
    match b.labels.hubs.get? hub, b.labels.consumers.get? consumer with
    | some h, some x => if x.held then b.modifyHub h (·.subscribe x.consumer) else b
    | _, _ => b
  | .unsubscribe hub consumer =>
    match b.labels.hubs.get? hub, b.labels.consumers.get? consumer with
    | some h, some x => if x.held then b.modifyHub h (·.unsubscribe x.consumer) else b
    | _, _ => b
  | .update hub =>
    match b.labels.hubs.get? hub with
    | some h => nested b h b.wall
    | none => b
  | .set leaf value =>
    match b.labels.leaves.get? leaf with
    | some x => b.modifyLeaf x.leaf (·.write value b.wall)
    | none => b
  | .increment leaf =>
    match b.labels.leaves.get? leaf with
    | some x => (b.countLabelledWith nested x 1).1
    | none => b
  | .decrement leaf =>
    match b.labels.leaves.get? leaf with
    | some x => (b.countLabelledWith nested x (-1)).1
    | none => b

/-- Offers the wrapped text of a hub to the queue of a consumer. -/
def offer (b : Board) (c : ConsumerId) (q : Queue) (h : HubId) : Board × Delivery :=
  let (b, text) := b.json h
  match q.offer text with
  | (q, .accepted) =>
    ((b.setConsumer c ((b.consumer c).withQueue q)).note (.queued c h text), .accepted)
  | (_, .full) => (b.note (.lost c h), .full)
  | (_, .disconnected) => (b, .disconnected)

/-- What an observer notes of a hub. -/
def noteOf (b : Board) (h : HubId) : Noted → Board × String
  | .wrapped => b.json h
  | .text => b.formatted h
  | .id => (b, (b.hub h).id)

/-- Tells a consumer of the publication of a hub. The flag says whether it stays subscribed. -/
def informWith (b : Board) (c : ConsumerId) (h : HubId) : Board × Bool :=
  match b.consumer c with
  | .observer o =>
    let (b, text) := b.noteOf h o.noted
    -- the due actions are taken out first: one of them may bring about the next call
    let b := b.setConsumer c (.observer (o.called text))
    (o.due.foldl (act nested) b, o.answer)
  | .channel q =>
    match b.offer c q h with
    -- a full queue loses the message, not the subscription
    | (b, .disconnected) => (b, false)
    | (b, _) => (b, true)
  | .session s =>
    if s.alive then
      match b.offer c s.queue h with
      | (b, .accepted) => ((b.countWith nested b.registry.sendMeter 1).1, true)
      | (b, .full) => (b, true)
      | (b, .disconnected) => (b.closeWith nested c, false)
    else (b, false)

/-- Tells consumers in order, and gives those that do not stay. -/
def passWith (h : HubId) : Board → List ConsumerId → Board × List ConsumerId
  | b, [] => (b, [])
  | b, c :: cs =>
    let (b, stays) := b.informWith nested c h
    let (b, gone) := passWith h (b.note (.informed c h stays)) cs
    (b, if stays then gone else c :: gone)

/-- Tells all consumers of a hub and unsubscribes those that do not stay. -/
def notifyWith (b : Board) (h : HubId) : Board :=
  let (b, gone) := passWith nested h b (b.hub h).consumers
  b.modifyHub h (·.unsubscribeAll gone)

end Inform

/-! ### Publishing -/

/-- Publishes a hub, with publications nested at most `depth` deep. -/
def publishWithin : (depth : Nat) → Board → HubId → Timestamp → Board
  -- consumers without unrest publish nothing
  | 0, b, h, time => (b.post h time).notifyWith (fun b _ _ => b) h
  | n + 1, b, h, time => (b.post h time).notifyWith (publishWithin n) h

/-- How many publications the consumers can still bring about by themselves. -/
def unrest (b : Board) : Nat := b.consumers.cells.foldr (fun x n => x.unrest + n) 0

/-- Publishes a hub as of a time. -/
def publish (b : Board) (h : HubId) (time : Timestamp) : Board :=
  publishWithin b.unrest b h time

/-- Moves a counter or meter. A counter publishes its owner. -/
def count (b : Board) (l : LeafId) (steps : Int) : Board × Option Int := b.countWith publish l steps

/-- Ends a session. -/
def close (b : Board) (c : ConsumerId) : Board := b.closeWith publish c

end Board

end Switchboard
