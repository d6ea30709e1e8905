import Switchboard.Proofs.SessionTally

/-!
# How consumers take it

A consumer that only observes takes it in one way to be told of a hub: what becomes of it, what is
noted in the journal and whether it stays depends on the consumer and on the texts of the hub, and
on nothing else of the board. Apart from the consumer nothing changes but the meter of sent
messages, by the messages that a session accepted.

* `face_writeAll`, `eq_of_face`: a leaf is its face and what it has counted.
* `informs`: what it does to tell a consumer that only observes.
-/

namespace Switchboard

namespace Leaf

/-- What a leaf can show: everything but the count of a meter. -/
def face (l : Leaf) : Leaf :=
  match l.body with
  | .meter m => { l with body := .meter { m with count := 0 } }
  | _ => l

theorem face_writeAll (l : Leaf) (vs : List Literal) (time : Timestamp) :
    (l.writeAll vs time).face = l.face.writeAll vs time := by
  obtain ⟨name, body, updatedAt, owner⟩ := l
  cases body <;> rfl

theorem values_face (l : Leaf) : l.face.values = l.values := by
  obtain ⟨name, body, updatedAt, owner⟩ := l
  cases body <;> rfl

/-- **A leaf is its face and what it has counted.** -/
theorem eq_of_face {l k : Leaf} (hf : l.face = k.face) (ht : l.tally = k.tally) : l = k := by
  obtain ⟨name, body, updatedAt, owner⟩ := l
  obtain ⟨name', body', updatedAt', owner'⟩ := k
  cases body with
  | meter m =>
    cases body' with
    | meter m' =>
      obtain ⟨count, peak, least, window⟩ := m
      obtain ⟨count', peak', least', window'⟩ := m'
      obtain rfl : count = count' := ht
      cases hf
      rfl
    | _ => cases hf
  | _ => cases body' <;> cases hf; rfl

end Leaf

/-- What becomes of a consumer that is told of a hub, what is noted of it, and whether it stays. -/
structure Reaction where
  consumer : Consumer
  events : List Event := []
  stays : Bool

/-- What is noted of a message about a hub that was offered to a consumer. -/
def Delivery.events (c : ConsumerId) (h : HubId) (text : String) : Delivery → List Event
  | .accepted => [.queued c h text]
  | .full => [.lost c h]
  | .disconnected => []

/-- **How a consumer takes it** to be told of a hub with these texts, if it only observes. -/
def Consumer.react (c : ConsumerId) (h : HubId) (texts : Noted → String) : Consumer → Reaction
  | .observer o => { consumer := .observer (o.called (texts o.noted)), stays := o.answer }
  | .channel q =>
    let (r, d) := q.offer (texts .wrapped)
    { consumer := .channel r, events := d.events c h (texts .wrapped), stays := d ≠ .disconnected }
  | .session s =>
    if s.alive then
      let (r, d) := s.queue.offer (texts .wrapped)
      { consumer := .session { s with queue := r }
        events := d.events c h (texts .wrapped)
        stays := d ≠ .disconnected }
    else { consumer := .session s, stays := false }

theorem Queue.offer_of_refused {q r : Queue} {text : String} {d : Delivery}
    (ho : q.offer text = (r, d)) (hd : d ≠ .accepted) : r = q := by
  unfold Queue.offer at ho
  split at ho
  · cases ho
    rfl
  · split at ho
    · cases ho
      exact absurd rfl hd
    · cases ho
      rfl

/-- A consumer that only observes goes on to do so. -/
theorem Consumer.observes_react {x : Consumer} (hx : x.observes = true) (c : ConsumerId) (h : HubId)
    (texts : Noted → String) : (x.react c h texts).consumer.observes = true := by
  cases x with
  | observer o =>
    have hp : o.planned = [] := List.isEmpty_iff.1 hx
    show (o.planned.filter _).isEmpty = true
    rw [hp]
    rfl
  | channel q => rfl
  | session s =>
    rw [react]
    split
    · change (!s.alive || s.queue.receiving) = true at hx
      change (!s.alive || (s.queue.offer _).1.receiving) = true
      rw [Board.receiving_offer]
      exact hx
    · exact hx

/-- Neither does a session open or end. -/
theorem Consumer.alive?_react (x : Consumer) (c : ConsumerId) (h : HubId) (texts : Noted → String) :
    (x.react c h texts).consumer.alive? = x.alive? := by
  cases x with
  | session s =>
    rw [react]
    split <;> rfl
  | _ => rfl

namespace Board

variable {b b' : Board} {c : ConsumerId} {h : HubId}
variable {nested : Board → HubId → Timestamp → Board}

/-- The texts of a hub, by what is noted of it. -/
def texts (b : Board) (h : HubId) (noted : Noted) : String := (b.noteOf h noted).2

/-- A board on which a consumer reacted and nothing else changed, but for the meter of sent
messages. -/
structure Reacts (b b' : Board) (c : ConsumerId) (r : Reaction) : Prop where
  frame : Frame b b'
  hub : ∀ h, b'.hub h = b.hub h
  consumer : ∀ d, b'.consumer d = if c = d then r.consumer else b.consumer d
  face : ∀ l, (b'.leaf l).face = (b.leaf l).face
  tally : ∀ l, (b'.leaf l).tally =
    (b.leaf l).tally + if l = b.registry.sendMeter then (r.events.countP b.isSent : Int) else 0
  disk : b'.disk = b.disk
  events : b'.events = b.events ++ r.events

/-- The consumer is all that changes, if nothing is sent to a session. -/
theorem Reacts.of_same {r : Reaction} (frame : Frame b b') (hub : ∀ h, b'.hub h = b.hub h)
    (consumer : ∀ d, b'.consumer d = if c = d then r.consumer else b.consumer d)
    (leaf : ∀ l, b'.leaf l = b.leaf l) (disk : b'.disk = b.disk)
    (events : b'.events = b.events ++ r.events) (sent : r.events.countP b.isSent = 0) :
    Reacts b b' c r where
  frame := frame
  hub := hub
  consumer := consumer
  face l := by rw [leaf]
  tally l := by rw [leaf, sent]; simp
  disk := disk
  events := events

/-- To offer a message: the queue takes it, or nothing changes but the journal. -/
theorem offer_eq (hf : b.Fresh h) {q r : Queue} {d : Delivery}
    (hq : (b.consumer c).queue? = some q) (ho : q.offer (b.texts h .wrapped) = (r, d)) :
    ∃ b', b.offer c q h = (b', d) ∧ Frame b b' ∧ (∀ k, b'.hub k = b.hub k) ∧
      (∀ e, b'.consumer e = if c = e then (b.consumer c).withQueue r else b.consumer e) ∧
      (∀ l, b'.leaf l = b.leaf l) ∧ b'.disk = b.disk ∧
      b'.events = b.events ++ d.events c h (b.texts h .wrapped) := by
  have hsame : (b.consumer c).withQueue q = b.consumer c := by
    cases hx : b.consumer c with
    | observer o => rw [hx] at hq; cases hq
    | channel p => rw [hx] at hq; cases hq; rfl
    | session s => rw [hx] at hq; cases hq; rfl
  -- a queue that does not take the message stays as it is
  have hstays : d ≠ .accepted → ∀ e, b.consumer e =
      if c = e then (b.consumer c).withQueue r else b.consumer e := by
    intro hd e
    rw [Queue.offer_of_refused ho hd, hsame]
    split
    · rename_i he
      rw [he]
    · rfl
  rcases offer_cases b c q h with ⟨p, hp, he⟩ | ⟨p, hp, he⟩ | ⟨p, hp, he⟩ <;>
    obtain ⟨rfl, rfl⟩ : p = r ∧ _ = d := Prod.mk.inj (hp.symm.trans ho) <;>
    rw [json_of_fresh hf] at he <;> refine ⟨_, he, ?_⟩
  · refine ⟨(Frame.setConsumer b c _).trans (Frame.note _ _), fun _ => rfl, fun e => ?_,
      fun _ => rfl, rfl, events_note _ _⟩
    exact consumer_setConsumer b c e _
  · exact ⟨Frame.note b _, fun _ => rfl, hstays (by decide), fun _ => rfl, rfl, events_note _ _⟩
  · exact ⟨.refl b, fun _ => rfl, hstays (by decide), fun _ => rfl, rfl, (List.append_nil _).symm⟩

/-- A meter that moves shows nothing of it. -/
theorem leaf_tick {l : LeafId} {m : Meter} (body : (b.leaf l).body = .meter m) (steps : Int)
    (k : LeafId) :
    ((b.modifyLeaf l fun x =>
        { x with body := .meter { m with count := m.count + steps } }).leaf k).face =
      (b.leaf k).face ∧
    ((b.modifyLeaf l fun x =>
        { x with body := .meter { m with count := m.count + steps } }).leaf k).tally =
      (b.leaf k).tally + if k = l then steps else 0 := by
  rw [leaf_modifyLeaf]
  split
  · rename_i hk
    rw [if_pos hk.symm, ← hk]
    constructor
    · rw [Leaf.face, Leaf.face, body]
    · rw [Leaf.tally, Leaf.tally, body]
  · rename_i hk
    rw [if_neg (Ne.symm hk)]
    exact ⟨rfl, (Int.add_zero _).symm⟩

/-- A consumer that is told of a hub reacts as it does to the texts of the hub. -/
structure Informs (nested : Board → HubId → Timestamp → Board) (b : Board) (c : ConsumerId)
    (h : HubId) : Prop where
  reacts : Reacts b (b.informWith nested c h).1 c ((b.consumer c).react c h (b.texts h))
  stays : (b.informWith nested c h).2 = ((b.consumer c).react c h (b.texts h)).stays

theorem informs_observer (hf : b.Fresh h) {o : Observer} (is : b.consumer c = .observer o)
    (ho : (b.consumer c).observes = true) : Informs nested b c h := by
  rw [is] at ho
  -- nothing is planned, so nothing is due
  have hp : o.planned = [] := List.isEmpty_iff.1 ho
  have hd : o.due = [] := by rw [Observer.due, hp]; rfl
  have he : b.informWith nested c h =
      (b.setConsumer c (.observer (o.called (b.texts h o.noted))), o.answer) := by
    unfold informWith
    rw [is]
    dsimp only
    rw [noteOf_of_fresh hf, hd]
    rfl
  constructor <;> rw [he, is]
  · exact .of_same (Frame.setConsumer b c _) (fun _ => rfl) (consumer_setConsumer b c · _)
      (fun _ => rfl) rfl (List.append_nil _).symm rfl
  · rfl

theorem informs_channel (hf : b.Fresh h) {q : Queue} (is : b.consumer c = .channel q) :
    Informs nested b c h := by
  obtain ⟨r, d, hq⟩ : ∃ r d, q.offer (b.texts h .wrapped) = (r, d) := ⟨_, _, rfl⟩
  obtain ⟨b1, ho, frame, hub, consumer, leaf, disk, events⟩ :=
    offer_eq (c := c) hf (by rw [is]; rfl) hq
  rw [is] at consumer
  have hreact : (b.consumer c).react c h (b.texts h) =
      ⟨.channel r, d.events c h (b.texts h .wrapped), d ≠ .disconnected⟩ := by
    rw [is, Consumer.react, hq]
  have he : b.informWith nested c h = (b1, decide (d ≠ .disconnected)) := by
    unfold informWith
    rw [is]
    dsimp only
    rw [ho]
    cases d <;> rfl
  have hsent : (d.events c h (b.texts h .wrapped)).countP b.isSent = 0 := by
    cases d <;> simp [Delivery.events, isSent, is, Consumer.isSession, Consumer.alive?]
  constructor <;> rw [he, hreact]
  exact .of_same frame hub consumer leaf disk events hsent

theorem informs_closed (nested : Board → HubId → Timestamp → Board) {s : Session}
    (is : b.consumer c = .session s) (closed : s.alive = false) : Informs nested b c h := by
  have hclosed : ¬s.alive = true := by rw [closed]; exact Bool.false_ne_true
  have hreact : (b.consumer c).react c h (b.texts h) = ⟨.session s, [], false⟩ := by
    rw [is, Consumer.react, if_neg hclosed]
  have he : b.informWith nested c h = (b, false) := by
    unfold informWith
    rw [is]
    exact if_neg hclosed
  constructor <;> rw [he, hreact]
  refine .of_same (.refl b) (fun _ => rfl) (fun d => ?_) (fun _ => rfl) rfl
    (List.append_nil _).symm rfl
  split
  · rename_i hd
    rw [← hd, is]
  · rfl

/-- An open session is told by an offer: it counts the message, loses it or is closed. -/
theorem informWith_session (nested : Board → HubId → Timestamp → Board) {s : Session}
    (is : b.consumer c = .session s) (alive : s.alive = true) :
    b.informWith nested c h =
      match b.offer c s.queue h with
      | (b, .accepted) => ((b.countWith nested b.registry.sendMeter 1).1, true)
      | (b, .full) => (b, true)
      | (b, .disconnected) => (b.closeWith nested c, false) := by
  rw [informWith, is]
  exact if_pos alive

theorem informs_session (hm : (b.leaf b.registry.sendMeter).sort = .meter) (hf : b.Fresh h)
    {s : Session} (is : b.consumer c = .session s) (alive : s.alive = true)
    (ho : (b.consumer c).observes = true) : Informs nested b c h := by
  obtain ⟨r, d, hq⟩ : ∃ r d, s.queue.offer (b.texts h .wrapped) = (r, d) := ⟨_, _, rfl⟩
  obtain ⟨b1, hb1, frame, hub, consumer, leaf, disk, events⟩ :=
    offer_eq (c := c) hf (by rw [is]; rfl) hq
  have hreact : (b.consumer c).react c h (b.texts h) =
      ⟨.session { s with queue := r }, d.events c h (b.texts h .wrapped), d ≠ .disconnected⟩ := by
    rw [is, Consumer.react, if_pos alive, hq]
  have he := informWith_session nested (h := h) is alive
  rw [hb1] at he
  rw [is] at consumer ho
  cases d with
  | accepted =>
    -- the message is counted
    have hm1 : (b1.leaf b1.registry.sendMeter).sort = .meter := by
      rw [frame.registry, leaf]
      exact hm
    obtain ⟨m, body, hc⟩ := countWith_meter nested hm1 1
    have hs : Still b1 (b1.countWith nested b1.registry.sendMeter 1).1 := still_countWith hm1 1
    constructor <;> rw [he, hreact]
    · rw [hc] at hs ⊢
      refine ⟨frame.trans hs.frame, hub, consumer, fun l => ?_, fun l => ?_, disk, events⟩
      · rw [(leaf_tick body 1 l).1, leaf]
      · rw [(leaf_tick body 1 l).2, leaf, frame.registry]
        simp [Delivery.events, isSent, is, Consumer.isSession, Consumer.alive?]
    · rfl
  | full =>
    constructor <;> rw [he, hreact]
    · exact .of_same frame hub consumer leaf disk events rfl
    · rfl
  | disconnected =>
    -- a session that is open has its receiver, so it is not refused
    change (!s.alive || s.queue.receiving) = true at ho
    rw [alive] at ho
    have hne := offer_ne_disconnected (b := b) (c := c) (q := s.queue) ho h
    rw [hb1] at hne
    exact absurd rfl hne

variable (nested) in
/-- **What it does to tell a consumer** that only observes of a hub that keeps its texts. -/
theorem informs (hm : (b.leaf b.registry.sendMeter).sort = .meter)
    (ho : (b.consumer c).observes = true) (hf : b.Fresh h) : Informs nested b c h := by
  cases is : b.consumer c with
  | observer o => exact informs_observer hf is ho
  | channel q => exact informs_channel hf is
  | session s =>
    cases alive : s.alive with
    | true => exact informs_session hm hf is alive ho
    | false => exact informs_closed nested is alive

end Board

end Switchboard
