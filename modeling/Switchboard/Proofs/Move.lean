import Mathlib.Logic.Relation
import Switchboard.Proofs.Frame

/-!
# Publications as chains of moves

However deep publications are nested, all they do is made of a few single moves: a hub is posted,
a counter or meter moves, a text is cached, a message is queued, an observer notes something, a
session ends, a subscriber leaves. Observers that act as planned can also write a leaf, subscribe
and unsubscribe; `A` says which actions are planned.

* `deed`: what a planned action comes to.
* `publish_moves`: publishing a hub is a chain of moves.
* `Move.frame`: what publications leave as it was.

So a law that every single move keeps is kept by every publication.
-/

namespace Switchboard

/-- Whether all that a consumer has planned is of `A`. -/
def Consumer.PlansWithin (A : Action → Prop) (x : Consumer) : Prop :=
  ∀ o, x = .observer o → ∀ p ∈ o.planned, A p.2

namespace Board

/-- **A single move** of a board while hubs are published. `A` are the actions that observers may
have planned. -/
inductive Move (A : Action → Prop) (b : Board) : Board → Prop
  | post (h : HubId) (time : Timestamp) (held : b.isHubHeld h = true) : Move A b (b.post h time)
  | count (l : LeafId) (n steps : Int) (body : (b.leaf l).body = .counter n) :
    Move A b (b.modifyLeaf l fun x =>
      { x with body := .counter (n + steps), updatedAt := some b.wall })
  | tick (l : LeafId) (m : Meter) (steps : Int) (body : (b.leaf l).body = .meter m) :
    Move A b (b.modifyLeaf l fun x => { x with body := .meter { m with count := m.count + steps } })
  | write (label : String) (v : Literal) (x : LeafLabel) (planned : A (.set label v))
    (labelled : b.labels.leaves.get? label = some x) :
    Move A b (b.modifyLeaf x.leaf (·.write v b.wall))
  | subscribe (hub consumer : String) (h : HubId) (c : ConsumerId)
    (planned : A (.subscribe hub consumer)) (held : b.isHubHeld h = true) :
    Move A b (b.modifyHub h (·.subscribe c))
  | unsubscribe (hub consumer : String) (h : HubId) (c : ConsumerId)
    (planned : A (.unsubscribe hub consumer)) (held : b.isHubHeld h = true) :
    Move A b (b.modifyHub h (·.unsubscribe c))
  | leave (h : HubId) (gone : List ConsumerId) (held : b.isHubHeld h = true) :
    Move A b (b.modifyHub h (·.unsubscribeAll gone))
  | formatted (h : HubId) (held : b.isHubHeld h = true) : Move A b (b.formatted h).1
  | json (h : HubId) (held : b.isHubHeld h = true) : Move A b (b.json h).1
  | call (c : ConsumerId) (o : Observer) (text : String) (is : b.consumer c = .observer o) :
    Move A b (b.setConsumer c (.observer (o.called text)))
  | queue (c : ConsumerId) (q r : Queue) (h : HubId) (text : String)
    (is : (b.consumer c).queue? = some q) (offered : q.offer text = (r, .accepted)) :
    Move A b ((b.setConsumer c ((b.consumer c).withQueue r)).note (.queued c h text))
  | lose (c : ConsumerId) (h : HubId) : Move A b (b.note (.lost c h))
  | finish (c : ConsumerId) (s : Session) (is : b.consumer c = .session s)
      (alive : s.alive = true) :
    Move A b ((b.setConsumer c (.session { s with alive := false })).note (.ended c))
  | inform (c : ConsumerId) (h : HubId) (stays : Bool) : Move A b (b.note (.informed c h stays))

/-- A chain of moves. -/
abbrev Moves (A : Action → Prop) : Board → Board → Prop := Relation.ReflTransGen (Move A)

/-- Whether observers have planned actions of `A` only. -/
def PlansWithin (A : Action → Prop) (b : Board) : Prop := ∀ c, (b.consumer c).PlansWithin A

variable {A : Action → Prop} {b b' : Board}

/-- A bound on the plans can be given up. -/
theorem Move.all (h : Move A b b') : Move (fun _ => True) b b' := by
  cases h with
  | post h time held => exact .post h time held
  | count l n steps body => exact .count l n steps body
  | tick l m steps body => exact .tick l m steps body
  | write label v x _ labelled => exact .write label v x trivial labelled
  | subscribe hub consumer h c _ held => exact .subscribe hub consumer h c trivial held
  | unsubscribe hub consumer h c _ held => exact .unsubscribe hub consumer h c trivial held
  | leave h gone held => exact .leave h gone held
  | formatted h held => exact .formatted h held
  | json h held => exact .json h held
  | call c o text is => exact .call c o text is
  | queue c q r h text is offered => exact .queue c q r h text is offered
  | lose c h => exact .lose c h
  | finish c s is alive => exact .finish c s is alive
  | inform c h stays => exact .inform c h stays

/-- What publications leave as it was, for a single move. -/
theorem Move.frame (h : Move A b b') : Frame b b' := by
  cases h with
  | post h time _ => exact Frame.post b h time
  | count l n steps body =>
    exact Frame.modifyLeaf b ⟨rfl, by simp [Leaf.sort, body]⟩ rfl
  | tick l m steps body => exact Frame.modifyLeaf b ⟨rfl, by simp [Leaf.sort, body]⟩ rfl
  | write label v x _ _ => exact Frame.writeLeaf b x.leaf [v] b.wall
  | subscribe hub consumer h c _ _ =>
    refine Frame.modifyHub b ?_
    unfold Hub.subscribe
    split
    · exact .refl _
    · exact ⟨rfl, rfl, rfl, rfl⟩
  | unsubscribe hub consumer h c _ _ => exact Frame.modifyHub b ⟨rfl, rfl, rfl, rfl⟩
  | leave h gone _ => exact Frame.modifyHub b ⟨rfl, rfl, rfl, rfl⟩
  | formatted h _ => exact Frame.formatted b h
  | json h _ => exact Frame.json b h
  | call c o text _ => exact Frame.setConsumer b c _
  | queue c q r h text _ _ => exact (Frame.setConsumer b c _).trans (Frame.note _ _)
  | lose c h => exact Frame.note b _
  | finish c s _ _ => exact (Frame.setConsumer b c _).trans (Frame.note _ _)
  | inform c h stays => exact Frame.note b _

theorem Moves.frame (h : Moves A b b') : Frame b b' := by
  induction h with
  | refl => exact Frame.refl b
  | tail _ hm ih => exact ih.trans hm.frame

/-! ### Publications among moves -/

/-- **A move publishes a hub by posting it, or publishes nothing.** If it publishes nothing it
leaves the files alone. -/
theorem Move.post_or_quiet (hm : Move A b b') :
    (∃ h time, b.isHubHeld h = true ∧ b' = b.post h time) ∨
      (b'.disk = b.disk ∧ ∃ es, b'.journal = es ++ b.journal ∧ ∀ e ∈ es, e.publication? = none) := by
  cases hm with
  | post h time held => exact .inl ⟨h, time, held, rfl⟩
  | formatted h _ => exact .inr ⟨disk_formatted b h, [], journal_formatted b h, by simp⟩
  | json h _ => exact .inr ⟨disk_json b h, [], journal_json b h, by simp⟩
  | queue c q r h text _ _ => exact .inr ⟨rfl, [.queued c h text], rfl, by simp [Event.publication?]⟩
  | lose c h => exact .inr ⟨rfl, [.lost c h], rfl, by simp [Event.publication?]⟩
  | finish c s _ _ => exact .inr ⟨rfl, [.ended c], rfl, by simp [Event.publication?]⟩
  | inform c h stays => exact .inr ⟨rfl, [.informed c h stays], rfl, by simp [Event.publication?]⟩
  | _ => exact .inr ⟨rfl, [], rfl, by simp⟩

/-! ### Plans -/

/-- A consumer that is no observer has no plans. -/
theorem PlansWithin.setConsumer (h : PlansWithin A b) {c : ConsumerId} {x : Consumer}
    (hx : x.PlansWithin A) : PlansWithin A (b.setConsumer c x) := by
  intro d o hd p hp
  rw [consumer_setConsumer] at hd
  split at hd
  · exact hx o hd p hp
  · exact h d o hd p hp

/-- What is due was planned. -/
theorem PlansWithin.due (h : PlansWithin A b) {c : ConsumerId} {o : Observer}
    (is : b.consumer c = .observer o) : ∀ a ∈ o.due, A a := by
  intro a ha
  rw [Observer.due, List.mem_map] at ha
  obtain ⟨p, hp, rfl⟩ := ha
  exact h c o is p (List.mem_filter.1 hp).1

/-- No move adds to the plans of observers. -/
theorem Move.plans (h : Move A b b') (hb : PlansWithin A b) : PlansWithin A b' := by
  cases h with
  | post h time _ =>
    intro c o hc
    rw [consumer_post] at hc
    exact hb c o hc
  | formatted h _ =>
    intro c o hc
    rw [consumer_formatted] at hc
    exact hb c o hc
  | json h _ =>
    intro c o hc
    rw [consumer_json] at hc
    exact hb c o hc
  | call c o text is =>
    refine hb.setConsumer fun o' ho p hp => ?_
    cases ho
    exact hb c o is p (List.mem_filter.1 hp).1
  | queue c q r h text is _ =>
    refine PlansWithin.setConsumer hb fun o ho => ?_
    -- a queue goes back to the consumer that has it, which is no observer
    cases hc : b.consumer c with
    | observer o' => simp [hc, Consumer.queue?] at is
    | channel q' => simp [hc, Consumer.withQueue] at ho
    | session s => simp [hc, Consumer.withQueue] at ho
  | finish c s _ _ => exact PlansWithin.setConsumer hb fun o ho => by simp at ho
  | _ => exact hb

theorem Moves.plans (h : Moves A b b') (hb : PlansWithin A b) : PlansWithin A b' := by
  induction h with
  | refl => exact hb
  | tail _ hm ih => exact hm.plans ih

/-! ### What the parts of a publication do

Each part in closed form, the same for all ways to publish a nested hub. -/

/-- A leaf is refreshed by the publication of its owner, if that is held. -/
theorem refresh_cases (b : Board) (l : LeafId) :
    (∃ h, (b.leaf l).owner = some h ∧ b.isHubHeld h = true ∧
      ∀ nested, b.refresh nested l = nested b h b.wall) ∨
    ∀ nested, b.refresh nested l = b := by
  unfold refresh
  cases (b.leaf l).owner with
  | none => exact .inr fun _ => rfl
  | some h =>
    by_cases held : b.isHubHeld h = true
    · exact .inl ⟨h, rfl, held, fun _ => if_pos held⟩
    · exact .inr fun _ => if_neg held

/-- A counter moves first, and then its owner is published. A meter only moves. -/
theorem countWith_cases (b : Board) (l : LeafId) (steps : Int) :
    (∃ n, (b.leaf l).body = .counter n ∧ ∀ nested, b.countWith nested l steps =
      ((b.modifyLeaf l fun x =>
        { x with body := .counter (n + steps), updatedAt := some b.wall }).refresh nested l,
        some (n + steps))) ∨
    (∃ m, (b.leaf l).body = .meter m ∧ ∀ nested, b.countWith nested l steps =
      (b.modifyLeaf l fun x => { x with body := .meter { m with count := m.count + steps } },
        some (m.count + steps))) ∨
    ∀ nested, b.countWith nested l steps = (b, none) := by
  unfold countWith
  cases (b.leaf l).body with
  | counter n => exact .inl ⟨n, rfl, fun _ => rfl⟩
  | meter m => exact .inr (.inl ⟨m, rfl, fun _ => rfl⟩)
  | scalar v => exact .inr (.inr fun _ => rfl)
  | array vs => exact .inr (.inr fun _ => rfl)

/-- A session ends if it is alive, and then it is counted. -/
theorem closeWith_cases (b : Board) (c : ConsumerId) :
    (∃ s, b.consumer c = .session s ∧ s.alive = true ∧ ∀ nested, b.closeWith nested c =
      (((b.setConsumer c (.session { s with alive := false })).note (.ended c)).countWith nested
        b.registry.connections (-1)).1) ∨
    ∀ nested, b.closeWith nested c = b := by
  unfold closeWith
  cases b.consumer c with
  | session s =>
    by_cases alive : s.alive = true
    · exact .inl ⟨s, rfl, alive, fun _ => if_pos alive⟩
    · exact .inr fun _ => if_neg alive
  | observer o => exact .inr fun _ => rfl
  | channel q => exact .inr fun _ => rfl

/-- A hub that a label leads to is held. -/
theorem isHubHeld_of_label {label : String} {h : HubId}
    (hl : b.labels.hubs.get? label = some h) : b.isHubHeld h = true := by
  have hm : h ∈ b.labels.hubs.values := Register.mem_values_of_get? hl
  simp [isHubHeld, hm]

/-- An action on a hub and a consumer changes the hub, if both labels lead somewhere and the consumer
is still held. -/
theorem subscription_cases (b : Board) (hub consumer : String) (f : Hub → ConsumerId → Hub) :
    let b' := match b.labels.hubs.get? hub, b.labels.consumers.get? consumer with
      | some h, some x => if x.held then b.modifyHub h (f · x.consumer) else b
      | _, _ => b
    (b' = b ∧ ∀ h x, b.labels.hubs.get? hub = some h →
      b.labels.consumers.get? consumer = some x → x.held = false) ∨
    ∃ h x, b.labels.hubs.get? hub = some h ∧ b.labels.consumers.get? consumer = some x ∧
      x.held = true ∧ b' = b.modifyHub h (f · x.consumer) := by
  cases b.labels.hubs.get? hub with
  | none => exact .inl ⟨rfl, fun _ _ hh => nomatch hh⟩
  | some h =>
    cases b.labels.consumers.get? consumer with
    | none => exact .inl ⟨rfl, fun _ _ _ hx => nomatch hx⟩
    | some x =>
      cases held : x.held with
      | false =>
        refine .inl ⟨if_neg (by rw [held]; decide), fun _ _ _ hx => ?_⟩
        rw [← Option.some.inj hx, held]
      | true => exact .inr ⟨h, x, rfl, rfl, held, if_pos held⟩

/-- An action on a counter or meter moves it, unless the label leads nowhere or is a plain one. -/
theorem steps_cases (b : Board) (leaf : String) (steps : Int) :
    let b' := fun nested => match b.labels.leaves.get? leaf with
      | some x => (b.countLabelledWith nested x steps).1
      | none => b
    (∀ nested, b' nested = b) ∨ ∃ l, ∀ nested, b' nested = (b.countWith nested l steps).1 := by
  unfold countLabelledWith
  cases b.labels.leaves.get? leaf with
  | none => exact .inl fun _ => rfl
  | some x =>
    by_cases plain : x.plain = true
    · exact .inl fun _ => by simp only [plain, if_true]
    · exact .inr ⟨x.leaf, fun _ => by simp only [plain, if_false, Bool.false_eq_true]⟩

/-- **What a planned action comes to.** It is idle if a label leads nowhere, to a consumer that is
not held any more, or to a counter or meter that is held plainly. -/
inductive Deed (b : Board) : Action → Prop
  | idle (a : Action) (eq : ∀ nested, b.act nested a = b) : Deed b a
  | subscribe (hub consumer : String) (h : HubId) (c : ConsumerId) (held : b.isHubHeld h = true)
    (eq : ∀ nested, b.act nested (.subscribe hub consumer) = b.modifyHub h (·.subscribe c)) :
    Deed b (.subscribe hub consumer)
  | unsubscribe (hub consumer : String) (h : HubId) (c : ConsumerId) (held : b.isHubHeld h = true)
    (eq : ∀ nested, b.act nested (.unsubscribe hub consumer) = b.modifyHub h (·.unsubscribe c)) :
    Deed b (.unsubscribe hub consumer)
  | update (hub : String) (h : HubId) (held : b.isHubHeld h = true)
    (eq : ∀ nested, b.act nested (.update hub) = nested b h b.wall) : Deed b (.update hub)
  | set (leaf : String) (v : Literal) (x : LeafLabel) (labelled : b.labels.leaves.get? leaf = some x)
    (eq : ∀ nested, b.act nested (.set leaf v) = b.modifyLeaf x.leaf (·.write v b.wall)) :
    Deed b (.set leaf v)
  | increment (leaf : String) (l : LeafId)
    (eq : ∀ nested, b.act nested (.increment leaf) = (b.countWith nested l 1).1) :
    Deed b (.increment leaf)
  | decrement (leaf : String) (l : LeafId)
    (eq : ∀ nested, b.act nested (.decrement leaf) = (b.countWith nested l (-1)).1) :
    Deed b (.decrement leaf)

theorem deed (b : Board) (a : Action) : b.Deed a := by
  cases a with
  | subscribe hub consumer =>
    rcases b.subscription_cases hub consumer Hub.subscribe with ⟨eq, -⟩ | ⟨h, x, hh, -, -, eq⟩
    · exact .idle _ fun _ => eq
    · exact .subscribe hub consumer h x.consumer (isHubHeld_of_label hh) fun _ => eq
  | unsubscribe hub consumer =>
    rcases b.subscription_cases hub consumer Hub.unsubscribe with ⟨eq, -⟩ | ⟨h, x, hh, -, -, eq⟩
    · exact .idle _ fun _ => eq
    · exact .unsubscribe hub consumer h x.consumer (isHubHeld_of_label hh) fun _ => eq
  | update hub =>
    cases hh : b.labels.hubs.get? hub with
    | none => exact .idle _ fun _ => by simp only [act, hh]
    | some h => exact .update hub h (isHubHeld_of_label hh) fun _ => by simp only [act, hh]
  | set leaf v =>
    cases hl : b.labels.leaves.get? leaf with
    | none => exact .idle _ fun _ => by simp only [act, hl]
    | some x => exact .set leaf v x hl fun _ => by simp only [act, hl]
  | increment leaf =>
    rcases b.steps_cases leaf 1 with eq | ⟨l, eq⟩
    · exact .idle _ eq
    · exact .increment leaf l eq
  | decrement leaf =>
    rcases b.steps_cases leaf (-1) with eq | ⟨l, eq⟩
    · exact .idle _ eq
    · exact .decrement leaf l eq

/-! ### Informing consumers is a chain of moves -/

section Inform

variable {nested : Board → HubId → Timestamp → Board}

/-- `nested` publishes by moves. -/
def PublishesBy (A : Action → Prop) (nested : Board → HubId → Timestamp → Board) : Prop :=
  ∀ b h time, PlansWithin A b → b.isHubHeld h = true → Moves A b (nested b h time)

variable (hn : PublishesBy A nested)
include hn

theorem refresh_moves (hb : PlansWithin A b) (l : LeafId) : Moves A b (b.refresh nested l) := by
  rcases b.refresh_cases l with ⟨h, -, held, eq⟩ | eq
  · rw [eq]
    exact hn b h b.wall hb held
  · rw [eq]

theorem countWith_moves (hb : PlansWithin A b) (l : LeafId) (steps : Int) :
    Moves A b (b.countWith nested l steps).1 := by
  rcases b.countWith_cases l steps with ⟨n, body, eq⟩ | ⟨m, body, eq⟩ | eq
  · have hm : Move A b _ := .count l n steps body
    rw [eq]
    exact (Relation.ReflTransGen.single hm).trans (refresh_moves hn (hm.plans hb) l)
  · rw [eq]
    exact .single (.tick l m steps body)
  · rw [eq]

theorem closeWith_moves (hb : PlansWithin A b) (c : ConsumerId) :
    Moves A b (b.closeWith nested c) := by
  rcases b.closeWith_cases c with ⟨s, is, alive, eq⟩ | eq
  · have hm : Move A b _ := .finish c s is alive
    rw [eq]
    exact (Relation.ReflTransGen.single hm).trans (countWith_moves hn (hm.plans hb) _ _)
  · rw [eq]

theorem act_moves (hb : PlansWithin A b) {a : Action} (ha : A a) :
    Moves A b (b.act nested a) := by
  cases b.deed a with
  | idle _ eq => rw [eq]
  | subscribe hub consumer h c held eq =>
    rw [eq]
    exact .single (.subscribe hub consumer h c ha held)
  | unsubscribe hub consumer h c held eq =>
    rw [eq]
    exact .single (.unsubscribe hub consumer h c ha held)
  | update hub h held eq =>
    rw [eq]
    exact hn b h b.wall hb held
  | set leaf v x labelled eq =>
    rw [eq]
    exact .single (.write leaf v x ha labelled)
  | increment leaf l eq | decrement leaf l eq =>
    rw [eq]
    exact countWith_moves hn hb l _

theorem foldl_act_moves (hb : PlansWithin A b) {as : List Action} (ha : ∀ a ∈ as, A a) :
    Moves A b (as.foldl (act nested) b) := by
  induction as generalizing b with
  | nil => exact .refl
  | cons a as ih =>
    have hm := act_moves hn hb (ha a List.mem_cons_self)
    exact hm.trans (ih (Moves.plans hm hb) fun a' h' => ha a' (List.mem_cons_of_mem a h'))

omit hn in
/-- What becomes of a message that is offered. -/
theorem offer_cases (b : Board) (c : ConsumerId) (q : Queue) (h : HubId) :
    (∃ r, q.offer (b.json h).2 = (r, .accepted) ∧
      b.offer c q h = (((b.json h).1.setConsumer c (((b.json h).1.consumer c).withQueue r)).note
        (.queued c h (b.json h).2), .accepted)) ∨
    (∃ r, q.offer (b.json h).2 = (r, .full) ∧
      b.offer c q h = ((b.json h).1.note (.lost c h), .full)) ∨
    (∃ r, q.offer (b.json h).2 = (r, .disconnected) ∧
      b.offer c q h = ((b.json h).1, .disconnected)) := by
  unfold offer
  dsimp only
  rcases q.offer (b.json h).2 with ⟨r, d⟩
  cases d with
  | accepted => exact Or.inl ⟨r, rfl, rfl⟩
  | full => exact Or.inr (Or.inl ⟨r, rfl, rfl⟩)
  | disconnected => exact Or.inr (Or.inr ⟨r, rfl, rfl⟩)

omit hn in
theorem offer_moves {c : ConsumerId} {q : Queue} (hq : (b.consumer c).queue? = some q) {h : HubId}
    (held : b.isHubHeld h = true) : Moves A b (b.offer c q h).1 := by
  have hj : Move A b (b.json h).1 := .json h held
  have hq' : ((b.json h).1.consumer c).queue? = some q := by rw [consumer_json]; exact hq
  rcases offer_cases b c q h with ⟨r, ho, he⟩ | ⟨r, -, he⟩ | ⟨r, -, he⟩ <;> rw [he]
  · exact (Relation.ReflTransGen.single hj).tail (.queue c q r h _ hq' ho)
  · exact (Relation.ReflTransGen.single hj).tail (.lose c h)
  · exact .single hj

omit hn in
theorem noteOf_moves {h : HubId} (held : b.isHubHeld h = true) (noted : Noted) :
    Moves A b (b.noteOf h noted).1 := by
  cases noted with
  | wrapped => exact .single (.json h held)
  | text => exact .single (.formatted h held)
  | id => exact .refl

omit hn in
theorem consumer_noteOf (b : Board) (h : HubId) (noted : Noted) (c : ConsumerId) :
    (b.noteOf h noted).1.consumer c = b.consumer c := by
  cases noted with
  | wrapped => exact consumer_json b h c
  | text => exact consumer_formatted b h c
  | id => rfl

theorem informWith_moves (hb : PlansWithin A b) (c : ConsumerId) {h : HubId}
    (held : b.isHubHeld h = true) : Moves A b (b.informWith nested c h).1 := by
  unfold informWith
  split
  · rename_i o is
    have h1 := noteOf_moves (A := A) held o.noted
    -- what is noted is read before the observer is called, and reading keeps the observer
    have is' : (b.noteOf h o.noted).1.consumer c = .observer o := by
      rw [consumer_noteOf]; exact is
    have h2 : Move A _ _ := .call c o (b.noteOf h o.noted).2 is'
    have hb2 := h2.plans (Moves.plans h1 hb)
    exact (h1.tail h2).trans (foldl_act_moves hn hb2 (hb.due is))
  · rename_i q is
    have ho := offer_moves (A := A) (q := q) (by rw [is]; rfl) held
    split <;> rename_i he <;> rw [he] at ho <;> exact ho
  · rename_i s is
    split
    · have ho := offer_moves (A := A) (q := s.queue) (by rw [is]; rfl) held
      split <;> rename_i he <;> rw [he] at ho
      · exact ho.trans (countWith_moves hn (Moves.plans ho hb) _ _)
      · exact ho
      · exact ho.trans (closeWith_moves hn (Moves.plans ho hb) c)
    · exact .refl

omit hn in
/-- Some consumers are told, and then the others. -/
theorem passWith_append (h : HubId) (b : Board) (xs ys : List ConsumerId) :
    (passWith nested h b (xs ++ ys)).1 = (passWith nested h (passWith nested h b xs).1 ys).1 := by
  induction xs generalizing b with
  | nil => rfl
  | cons x xs ih => exact ih _

theorem passWith_moves {h : HubId} (cs : List ConsumerId) (hb : PlansWithin A b)
    (held : b.isHubHeld h = true) : Moves A b (passWith nested h b cs).1 := by
  induction cs generalizing b with
  | nil => exact .refl
  | cons c cs ih =>
    have h1 := (informWith_moves hn hb c held).tail (.inform c h (b.informWith nested c h).2)
    have held' := (Moves.frame h1).isHubHeld h
    exact h1.trans (ih (Moves.plans h1 hb) (held'.trans held))

theorem notifyWith_moves (hb : PlansWithin A b) {h : HubId} (held : b.isHubHeld h = true) :
    Moves A b (b.notifyWith nested h) := by
  have hp := passWith_moves hn (b.hub h).consumers hb held
  exact hp.tail (.leave h _ (((Moves.frame hp).isHubHeld h).trans held))

end Inform

/-! ### Publishing is a chain of moves -/

theorem post_notify_moves {nested : Board → HubId → Timestamp → Board} (hn : PublishesBy A nested)
    (hb : PlansWithin A b) {h : HubId} (held : b.isHubHeld h = true) (time : Timestamp) :
    Moves A b ((b.post h time).notifyWith nested h) := by
  have hm : Move A b _ := .post h time held
  exact (Relation.ReflTransGen.single hm).trans
    (notifyWith_moves hn (hm.plans hb) ((hm.frame.isHubHeld h).trans held))

theorem publishWithin_moves (A : Action → Prop) (depth : Nat) :
    PublishesBy A (publishWithin depth) := by
  induction depth with
  | zero =>
    intro b h time hb held
    exact post_notify_moves (fun _ _ _ _ _ => .refl) hb held time
  | succ n ih =>
    intro b h time hb held
    exact post_notify_moves ih hb held time

/-- **Publishing a hub is a chain of moves.** -/
theorem publish_moves (A : Action → Prop) : PublishesBy A publish := by
  intro b h time
  exact publishWithin_moves A b.unrest b h time

theorem count_moves (hb : PlansWithin A b) (l : LeafId) (steps : Int) :
    Moves A b (b.count l steps).1 :=
  countWith_moves (publish_moves A) hb l steps

theorem close_moves (hb : PlansWithin A b) (c : ConsumerId) : Moves A b (b.close c) :=
  closeWith_moves (publish_moves A) hb c

end Board

end Switchboard
