import Mathlib.Algebra.BigOperators.Group.Finset.Piecewise
import Switchboard.Proofs.Execution

/-!
# What waits in queues

The journal notes each message that the queue of a consumer accepts. As long as the receiver is
there, what waits in the queue is what waited before and was accepted since, without what was
received. So what a consumer receives, and then finds waiting, is what the journal says in the order
of the journal.

* `Move.fills`, `Change.fills`: single steps.
* `Executes.received`: what an execution does to a queue.
* `sentCount_eq_received`: what sessions were sent, they received or it waits for them.
-/

namespace Switchboard

/-- Whether the receiver of a consumer has gone. -/
def Consumer.hungUp (x : Consumer) : Bool :=
  match x.queue? with
  | some q => !q.receiving
  | none => false

namespace Consumer

variable {x : Consumer} {q : Queue}

theorem waiting_of_queue? (hq : x.queue? = some q) : x.waiting = q.waiting := by
  rw [waiting, hq]

theorem hungUp_of_queue? (hq : x.queue? = some q) : x.hungUp = !q.receiving := by
  rw [hungUp, hq]

theorem queue?_withQueue (hq : x.queue? = some q) (r : Queue) :
    (x.withQueue r).queue? = some r := by
  cases x with
  | observer o => cases hq
  | channel p => rfl
  | session s => rfl

end Consumer

/-- The messages that a consumer accepted, each with the hub that it is about. -/
def deliveries (c : ConsumerId) (es : List Event) : List (HubId × String) :=
  es.filterMap fun
    | .queued d h text => if d = c then some (h, text) else none
    | _ => none

/-- The messages that a consumer accepted, about whatever hub. -/
def accepted (c : ConsumerId) (es : List Event) : List String := (deliveries c es).map Prod.snd

section Events

variable {c : ConsumerId}

theorem deliveries_append (c : ConsumerId) (es fs : List Event) :
    deliveries c (es ++ fs) = deliveries c es ++ deliveries c fs := List.filterMap_append

theorem accepted_append (c : ConsumerId) (es fs : List Event) :
    accepted c (es ++ fs) = accepted c es ++ accepted c fs := by
  rw [accepted, deliveries_append, List.map_append]
  rfl

theorem deliveries_queued (c d : ConsumerId) (h : HubId) (text : String) :
    deliveries c [.queued d h text] = if d = c then [(h, text)] else [] := by
  unfold deliveries
  split
  · rename_i hd
    simp [hd]
  · rename_i hd
    simp [hd]

/-- **The messages about a hub** are those of its messages that a consumer accepted. -/
theorem messages_eq_deliveries (c : ConsumerId) (h : HubId) (es : List Event) :
    messages c h es = ((deliveries c es).filter (·.1 = h)).map Prod.snd := by
  induction es with
  | nil => rfl
  | cons e es ih =>
    cases e with
    | queued d k text =>
      rw [messages, deliveries, List.filterMap_cons, List.filterMap_cons]
      by_cases hd : d = c <;> by_cases hk : k = h <;>
        simp only [hd, hk, and_self, and_true, and_false, if_true, if_false,
          List.filter_cons, decide_true, decide_false, List.map_cons] <;> first
          | exact congrArg (text :: ·) ih
          | exact ih
    | _ => exact ih

end Events

namespace Board

variable {A : Action → Prop} {E : Edit → Prop} {b b' b'' : Board} {c : ConsumerId}

/-- The messages that wait for a consumer. -/
def waiting (b : Board) (c : ConsumerId) : List String := (b.consumer c).waiting

/-- Whether the receiver of a consumer has gone. -/
def HungUp (b : Board) (c : ConsumerId) : Prop := (b.consumer c).hungUp = true

instance (b : Board) (c : ConsumerId) : Decidable (b.HungUp c) :=
  inferInstanceAs (Decidable (_ = true))

/-- A part of a run in which a consumer receives nothing: **what was accepted waits behind what
waited before**, unless the receiver has gone, which never comes back. -/
structure Fills (c : ConsumerId) (b b' : Board) : Prop where
  grows : b.events <+: b'.events
  hungUp : b.HungUp c → b'.HungUp c
  waiting : ¬b'.HungUp c → b'.waiting c = b.waiting c ++ accepted c (news b b')

theorem Fills.of_queue {es : List Event} (hq : (b'.consumer c).queue? = (b.consumer c).queue?)
    (hev : b'.events = b.events ++ es) (ha : deliveries c es = []) : Fills c b b' where
  grows := ⟨es, hev.symm⟩
  hungUp hh := by
    rw [HungUp, Consumer.hungUp, hq]
    exact hh
  waiting _ := by
    rw [news_of_events hev, accepted, ha, Board.waiting, Consumer.waiting, hq]
    exact (List.append_nil _).symm

/-- A part of a run that keeps the consumer and notes nothing. -/
theorem Fills.of_same (hc : b'.consumer c = b.consumer c) (hj : b'.journal = b.journal) :
    Fills c b b' :=
  .of_queue (by rw [hc]) ((events_of_journal_eq hj).trans (List.append_nil _).symm) rfl

protected theorem Fills.refl (c : ConsumerId) (b : Board) : Fills c b b := .of_same rfl rfl

theorem Fills.trans (x : Fills c b b') (y : Fills c b' b'') : Fills c b b'' where
  grows := x.grows.trans y.grows
  hungUp hh := y.hungUp (x.hungUp hh)
  waiting hh := by
    rw [y.waiting hh, x.waiting fun h => hh (y.hungUp h), news_trans x.grows y.grows,
      accepted_append, List.append_assoc]

/-- A consumer is put that waits for the same. -/
theorem Fills.setConsumer {d : ConsumerId} {x : Consumer}
    (hx : x.queue? = (b.consumer d).queue?) : Fills c b (b.setConsumer d x) := by
  refine .of_queue ?_ (List.append_nil _).symm rfl
  rw [consumer_setConsumer]
  split
  · rename_i hd
    rw [hx, hd]
  · rfl

/-- What is noted is no message. -/
theorem Fills.note {e : Event} (he : deliveries c [e] = []) : Fills c b (b.note e) :=
  .of_queue rfl (events_note b e) he

theorem consumer_setConsumer_self (b : Board) (c : ConsumerId) (x : Consumer) :
    (b.setConsumer c x).consumer c = x := by
  rw [consumer_setConsumer, if_pos rfl]

/-- **A message is accepted.** It waits behind the others. -/
theorem fills_queue {d : ConsumerId} {q r : Queue} {h : HubId} {text : String}
    (is : (b.consumer d).queue? = some q) (offered : q.offer text = (r, .accepted)) :
    Fills c b ((b.setConsumer d ((b.consumer d).withQueue r)).note (.queued d h text)) := by
  obtain ⟨hr, hwait⟩ := Queue.offer_accepted offered
  have hev : ((b.setConsumer d ((b.consumer d).withQueue r)).note (.queued d h text)).events =
      b.events ++ [.queued d h text] := events_note _ _
  by_cases hd : d = c
  · subst hd
    have hq := Consumer.queue?_withQueue is r
    have hopen : ¬b.HungUp d := by
      rw [HungUp, Consumer.hungUp_of_queue? is, hr]
      exact Bool.false_ne_true
    refine ⟨⟨_, hev.symm⟩, fun hh => absurd hh hopen, fun _ => ?_⟩
    rw [news_of_events hev, accepted, deliveries_queued, if_pos rfl]
    show ((b.setConsumer d _).consumer d).waiting = (b.consumer d).waiting ++ [text]
    rw [consumer_setConsumer_self, Consumer.waiting_of_queue? hq, Consumer.waiting_of_queue? is,
      hwait]
  · refine .of_queue ?_ hev (by rw [deliveries_queued, if_neg hd])
    rw [consumer_note, consumer_setConsumer, if_neg hd]

/-- **Publications fill queues.** -/
theorem Move.fills (m : Move A b b') : Fills c b b' := by
  cases m with
  | post h time _ => exact .of_queue (by rw [consumer_post]) (events_post b h time) rfl
  | formatted h _ => exact .of_same (consumer_formatted b h c) (journal_formatted b h)
  | json h _ => exact .of_same (consumer_json b h c) (journal_json b h)
  | call d o text is => exact .setConsumer (by rw [is]; rfl)
  | queue d q r h text is offered => exact fills_queue is offered
  | lose d h => exact .note rfl
  | finish d s is _ => exact Fills.trans (.setConsumer (by rw [is]; rfl)) (.note rfl)
  | inform d h stays => exact .note rfl
  | _ => exact .of_same rfl rfl

theorem Moves.fills (m : Moves A b b') : Fills c b b' := by
  induction m with
  | refl => exact .refl c b
  | tail _ m ih => exact ih.trans m.fills

/-- A receiver goes. -/
theorem fills_hangUp {d : ConsumerId} {q : Queue} (is : (b.consumer d).queue? = some q) :
    Fills c b (b.setConsumer d ((b.consumer d).withQueue q.close)) := by
  by_cases hd : d = c
  · subst hd
    have hgone : (b.setConsumer d ((b.consumer d).withQueue q.close)).HungUp d := by
      rw [HungUp, consumer_setConsumer_self,
        Consumer.hungUp_of_queue? (Consumer.queue?_withQueue is _)]
      rfl
    exact ⟨List.prefix_rfl, fun _ => hgone, fun hh => absurd hgone hh⟩
  · refine .of_same ?_ rfl
    rw [consumer_setConsumer, if_neg hd]

/-- **A change in which a consumer receives nothing fills its queue.** -/
theorem Change.fills (hc : Change A E b b') (hE : ¬E (.receive c)) : Fills c b b' := by
  cases hc with
  | move m => exact m.fills
  | openHub name id legal _ _ =>
    rw [newHub_true name legal]
    exact .of_same rfl rfl
  | makeHub label name _ =>
    rw [newHub_false]
    exact .of_same rfl rfl
  | addLeaf h predicate l _ _ free _ =>
    rw [addLeaf_fst free]
    exact .of_same rfl rfl
  | newConsumer x _ idle =>
    -- nothing waits for a consumer that is not there yet
    by_cases hn : (b.newConsumer x).2 = c
    · subst hn
      have hnone : b.consumer (b.newConsumer x).2 = default := consumer_of_size_le (Nat.le_refl _)
      refine ⟨List.prefix_rfl, fun hh => ?_, fun _ => ?_⟩
      · rw [HungUp, hnone] at hh
        cases hh
      · have hnews : news b (b.newConsumer x).1 = [] := news_self b
        rw [hnews, Board.waiting, consumer_newConsumer, if_pos rfl, idle, Board.waiting, hnone]
        rfl
    · refine .of_same ?_ rfl
      rw [consumer_newConsumer, if_neg hn]
  | receive d q is allowed =>
    have hd : d ≠ c := fun he => hE (he ▸ allowed)
    refine .of_same ?_ rfl
    rw [consumer_setConsumer, if_neg hd]
  | hangUp d q is => exact fills_hangUp is
  | takeNotes d o is => exact .setConsumer (by rw [is]; rfl)
  | _ => exact .of_same rfl rfl

theorem ChangesBy.fills (hc : ChangesBy A E b b') (hE : ¬E (.receive c)) : Fills c b b' := by
  induction hc with
  | refl => exact .refl c b
  | tail _ hc ih => exact ih.trans (hc.fills hE)

/-- **An operation fills a queue**, unless the consumer receives. -/
theorem step_fills (hb : Sound b) {op : Op} (hne : op ≠ .receive c) : Fills c b (b.step op) := by
  refine ChangesBy.fills (step_changesBy hb (plansWithin_true b) op.plansWithin_true) fun he =>
    hne ?_
  cases op with
  | classify s p o => cases o <;> cases he
  | receive d =>
    cases Option.some.inj he
    rfl
  | _ => cases he

/-! ### Executions -/

/-- A step of a publication fills queues. -/
theorem publishStep_fills {h : HubId} (hp : PlansWithin A b) (held : b.isHubHeld h = true)
    (time : Timestamp) (s : Stage) : Fills c b (b.publishStep h time s).1 := by
  cases s with
  | waiting | instant | stamped | done => exact .of_same rfl rfl
  | captured s line => exact .of_same (consumer_log b h line c) (journal_log b h line)
  | logged s line =>
    have hkept : Fills c b (b.keep h s line) := .of_same rfl rfl
    exact hkept.trans (.note rfl)
  | telling left gone =>
    cases left with
    | nil => exact .of_same rfl rfl
    | cons d ds =>
      exact (Moves.fills (informWith_moves (publish_moves A) hp d held)).trans (.note rfl)

/-- A commit that several workers share fills queues. -/
theorem finishBy_fills (hb : Regular b) {tx : Transaction} (ht : b.transaction = some tx)
    {workers : Nat} {schedule : List Nat} {r : Board × Nat}
    (hr : b.finishBy workers schedule = some r) : Fills c b r.1 := by
  obtain ⟨d, ⟨-, hd⟩, he⟩ := finishBy_of (Q := Fills c b) hb.sound (plansWithin_true b) ht
    (hb.touched.nodup ht) (.refl c b)
    (fun d h s hh x hd => hd.trans (publishStep_fills x.plans hh tx.openedAt s)) hr
  rw [he]
  exact hd.trans (.of_same rfl rfl)

theorem Performs.fills (hb : Regular b) {op : Op} (hp : b.Performs op b') (hne : op ≠ .receive c) :
    Fills c b b' := by
  rcases performs_cases hb.sound hp with rfl | ⟨tx, schedule, r, -, ht, -, hr, rfl⟩
  · exact step_fills hb.sound hne
  · exact finishBy_fills hb ht hr

/-- What a consumer is given when it receives: what waits for it, and nothing waits any more. -/
theorem step_receive (b : Board) (c : ConsumerId) (hh : ¬(b.step (.receive c)).HungUp c) :
    (if b.isConsumerKnown c then ((b.receive c).2.map Prod.fst).getD [] else []) ++
      (b.step (.receive c)).waiting c = b.waiting c ∧ news b (b.step (.receive c)) = [] := by
  cases known : b.isConsumerKnown c with
  | false =>
    have hstep : b.step (.receive c) = b := by rw [step, known]; rfl
    rw [hstep]
    exact ⟨rfl, news_self b⟩
  | true =>
    rw [step, known, onlyIf_true] at hh ⊢
    cases hq : (b.consumer c).queue? with
    | none =>
      have hs : b.receive c = (b, none) := by rw [receive, hq]
      rw [hs]
      exact ⟨rfl, news_self b⟩
    | some q =>
      cases hr : q.receiving with
      | false =>
        have hs : b.receive c = (b, none) := by
          rw [receive, hq]
          exact if_neg (by rw [hr]; exact Bool.false_ne_true)
        rw [hs] at hh
        refine absurd ?_ hh
        rw [HungUp, Consumer.hungUp_of_queue? hq, hr]
        rfl
      | true =>
        have hs : b.receive c = (b.setConsumer c ((b.consumer c).withQueue q.takeAll.1),
            some (q.waiting, b.isConsumerHeld c)) := by
          rw [receive, hq]
          exact if_pos hr
        refine ⟨?_, by rw [hs]; exact news_self b⟩
        rw [hs, Board.waiting, consumer_setConsumer_self,
          Consumer.waiting_of_queue? (Consumer.queue?_withQueue hq _), Board.waiting,
          Consumer.waiting_of_queue? hq]
        exact List.append_nil q.waiting

/-- A consumer that has gone stays so when it receives. -/
theorem hungUp_receive (b : Board) (c : ConsumerId) (hh : b.HungUp c) :
    (b.step (.receive c)).HungUp c := by
  have hs : b.receive c = (b, none) := by
    unfold receive
    unfold HungUp Consumer.hungUp at hh
    split
    · rename_i q hq
      rw [hq] at hh
      exact if_neg (by simpa using hh)
    · rfl
  rw [step, hs]
  exact onlyIf_of (P := (HungUp · c)) hh fun _ => hh

end Board

open Board (news)

/-- What a consumer received in a step. -/
def Step.received (t : Step) (c : ConsumerId) : List String :=
  if t.op = .receive c then
    if t.before.isConsumerKnown c then ((t.before.receive c).2.map Prod.fst).getD [] else []
  else []

/-- What is received in a step and what waits then are what waited and what was accepted. -/
theorem Board.Performs.received {b b' : Board} (hb : b.Regular) {op : Op} (hp : b.Performs op b')
    (c : ConsumerId) : (b.HungUp c → b'.HungUp c) ∧ (¬b'.HungUp c →
      (Step.mk b op b').received c ++ b'.waiting c = b.waiting c ++ accepted c (news b b')) := by
  by_cases he : op = .receive c
  · subst he
    rcases Board.performs_cases hb.sound hp with rfl | ⟨_, _, _, hop, -⟩
    · refine ⟨b.hungUp_receive c, fun hh => ?_⟩
      obtain ⟨hw, hn⟩ := b.step_receive c hh
      rw [Step.received, if_pos rfl, hn]
      exact hw.trans (List.append_nil _).symm
    · cases hop
  · have x := Board.Performs.fills hb hp he
    refine ⟨x.hungUp, fun hh => ?_⟩
    rw [Step.received, if_neg he]
    exact x.waiting hh

/-- **What an execution does to a queue.** Unless the receiver has gone, what is received and what
waits in the end are together, and in this order, what waited first and what the journal says was
accepted. -/
theorem Executes.received {b b' : Board} {steps : List Step} (he : Executes b steps b')
    (hb : b.Regular) (c : ConsumerId) : (b.HungUp c → b'.HungUp c) ∧
      (¬b'.HungUp c → steps.flatMap (·.received c) ++ b'.waiting c =
        b.waiting c ++ accepted c (news b b')) := by
  induction he with
  | nil b =>
    refine ⟨id, fun _ => ?_⟩
    rw [Board.news_self]
    exact (List.append_nil _).symm
  | @cons b m b' op steps performs rest ih =>
    obtain ⟨hgone, hstep⟩ := performs.received hb c
    obtain ⟨hgone', hrest⟩ := ih (performs.regular hb)
    refine ⟨fun hh => hgone' (hgone hh), fun hh => ?_⟩
    rw [(Executes.cons performs rest).news_cons hb, accepted_append, List.flatMap_cons,
      List.append_assoc, hrest hh, ← List.append_assoc, hstep fun h => hh (hgone' h),
      List.append_assoc]
    rfl

/-! ### Sessions -/

namespace Board

/-- What one event adds to the messages that a consumer accepted. -/
theorem length_accepted_cons (c : ConsumerId) (e : Event) (es : List Event) :
    (accepted c (e :: es)).length = (accepted c [e]).length + (accepted c es).length := by
  rw [← List.length_append, ← accepted_append]
  rfl

/-- One event is sent exactly if a session accepted it. -/
theorem length_accepted_sent (b : Board) {n : Nat} {e : Event}
    (room : ∀ c h text, e = .queued c h text → c.index < n) :
    (∑ i ∈ Finset.range n, if (b.consumer ⟨i⟩).isSession then (accepted ⟨i⟩ [e]).length else 0) =
      if b.isSent e then 1 else 0 := by
  cases e with
  | queued c h text =>
    have hc := room c h text rfl
    rw [Finset.sum_eq_single c.index]
    · rw [accepted, deliveries_queued, if_pos rfl]
      rfl
    · intro i _ hi
      have hne : c ≠ ⟨i⟩ := fun he => hi (by rw [he])
      rw [accepted, deliveries_queued, if_neg hne]
      exact ite_self 0
    · exact fun hn => absurd (Finset.mem_range.2 hc) hn
  | _ => exact Finset.sum_eq_zero fun i _ => ite_self 0

/-- **What sessions were sent** is what each of them accepted. -/
theorem countP_isSent_eq_sum (b : Board) {n : Nat} {es : List Event}
    (room : ∀ c h text, .queued c h text ∈ es → c.index < n) :
    es.countP b.isSent = ∑ i ∈ Finset.range n,
      if (b.consumer ⟨i⟩).isSession then (accepted ⟨i⟩ es).length else 0 := by
  induction es with
  | nil => exact (Finset.sum_eq_zero fun i _ => ite_self 0).symm
  | cons e es ih =>
    have hrest := ih fun c h text hm => room c h text (List.mem_cons_of_mem e hm)
    have hone := b.length_accepted_sent (n := n) (e := e) fun c h text he =>
      room c h text (he ▸ List.mem_cons_self)
    rw [List.countP_cons, hrest, ← hone, ← Finset.sum_add_distrib]
    refine Finset.sum_congr rfl fun i _ => ?_
    split
    · rw [length_accepted_cons _ e es, Nat.add_comm]
    · rfl

theorem TalliesSessions.sentCount_eq_sum {b : Board} {m n : Int} (hb : b.TalliesSessions m n) :
    b.sentCount = ∑ i ∈ Finset.range b.consumers.size,
      if (b.consumer ⟨i⟩).isSession then (accepted ⟨i⟩ b.events).length else 0 := by
  have hc : b.events.countP b.isSent = _ := b.countP_isSent_eq_sum fun c h text hm =>
    hb.room c h text (List.mem_reverse.1 hm)
  rw [← hc, events, List.countP_reverse, sentCount]

/-- **What sessions were sent, they received or it waits for them**, as long as their receivers are
there. -/
theorem sentCount_eq_received (settings : Settings) (wall : Timestamp) {disk : Disk}
    (hd : disk.Sound) (ops : List Op) {m n : Int}
    (hb : ((start settings wall disk).run ops).TalliesSessions m n)
    (hopen : ∀ c, (((start settings wall disk).run ops).consumer c).isSession = true →
      ¬((start settings wall disk).run ops).HungUp c) :
    ((start settings wall disk).run ops).sentCount =
      ∑ i ∈ Finset.range ((start settings wall disk).run ops).consumers.size,
        if (((start settings wall disk).run ops).consumer ⟨i⟩).isSession then
          (((start settings wall disk).steps ops).flatMap (·.received ⟨i⟩)).length +
            (((start settings wall disk).run ops).waiting ⟨i⟩).length
        else 0 := by
  have hs := regular_start settings wall hd
  rw [hb.sentCount_eq_sum]
  refine Finset.sum_congr rfl fun i _ => ?_
  split
  · rename_i hi
    have hr := ((executes_run hs.sound ops).received hs ⟨i⟩).2 (hopen _ hi)
    -- nothing waits at the start
    have hfirst : (start settings wall disk).waiting ⟨i⟩ = [] := by
      rw [start_eq]
      rfl
    rw [← List.length_append, hr, hfirst, news_start]
    rfl
  · rfl

end Board

end Switchboard
