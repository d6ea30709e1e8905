import Mathlib.Logic.Function.Iterate
import Switchboard.Proofs.Depth
import Switchboard.Proofs.Reaction

/-!
# Publication in stages

A worker publishes a hub in steps: it writes the two slots, captures and renders the values, logs
the line, keeps the snapshot and its text, tells one consumer after the other, and at last removes
those that want to leave. Between two steps other workers may do as they like with other hubs.

What a step does is settled by what its hub can see: the hub itself, the faces of its leaves, its
consumers and its file. And a step changes nothing but what belongs to its hub, its slots, its
consumers and its file, apart from the meter of sent messages.

* `iterate_publish`: all steps together publish the hub.
* `within_publishStep`: what a step leaves as it was.
* `agree_publishStep`: a step does the same on boards on which its hub sees the same.
-/

namespace Switchboard

/-- The hub that an event is about. -/
def Event.hub? : Event → Option HubId
  | .published h _ _ => some h
  | .informed _ h _ => some h
  | .queued _ h _ => some h
  | .lost _ h => some h
  | .ended _ => none

/-- What happened about a hub, in order. -/
def about (h : HubId) (es : List Event) : List Event := es.filter fun e => e.hub? = some h

@[simp] theorem about_append (h : HubId) (es fs : List Event) :
    about h (es ++ fs) = about h es ++ about h fs := List.filter_append es fs

/-- A consumer that is told of a hub is given its text, or loses it, or is given nothing. -/
theorem Consumer.events_react (x : Consumer) (c : ConsumerId) (h : HubId) (texts : Noted → String) :
    (x.react c h texts).events = [.queued c h (texts .wrapped)] ∨
      (x.react c h texts).events = [.lost c h] ∨ (x.react c h texts).events = [] := by
  have hd : ∀ d : Delivery, d.events c h (texts .wrapped) = [.queued c h (texts .wrapped)] ∨
      d.events c h (texts .wrapped) = [.lost c h] ∨ d.events c h (texts .wrapped) = [] := by
    intro d
    cases d with
    | accepted => exact .inl rfl
    | full => exact .inr (.inl rfl)
    | disconnected => exact .inr (.inr rfl)
  cases x with
  | observer o => exact .inr (.inr rfl)
  | channel q => exact hd _
  | session s =>
    rw [react]
    split
    · exact hd _
    · exact .inr (.inr rfl)

/-- What is noted of it is about the hub. -/
theorem Consumer.hub?_react (x : Consumer) (c : ConsumerId) (h : HubId) (texts : Noted → String)
    (e : Event) (he : e ∈ (x.react c h texts).events) : e.hub? = some h := by
  rcases x.events_react c h texts with hr | hr | hr <;> rw [hr] at he
  · rw [List.mem_singleton.1 he]
    rfl
  · rw [List.mem_singleton.1 he]
    rfl
  · cases he

/-- Neither is anything published. -/
theorem Consumer.publication?_react (x : Consumer) (c : ConsumerId) (h : HubId)
    (texts : Noted → String) (e : Event) (he : e ∈ (x.react c h texts).events) :
    e.publication? = none := by
  rcases x.events_react c h texts with hr | hr | hr <;> rw [hr] at he
  · rw [List.mem_singleton.1 he]
    rfl
  · rw [List.mem_singleton.1 he]
    rfl
  · cases he

/-- A receiver stays there. -/
theorem Consumer.isReceiving_react (x : Consumer) (c : ConsumerId) (h : HubId)
    (texts : Noted → String) : (x.react c h texts).consumer.isReceiving = x.isReceiving := by
  cases x with
  | observer o => rfl
  | channel q => exact Board.receiving_offer q _
  | session s =>
    rw [react]
    split
    · show (s.alive && (s.queue.offer _).1.receiving) = (s.alive && s.queue.receiving)
      rw [Board.receiving_offer]
    · rfl

/-- **A listener that is told of a hub** is given its text or loses it. -/
theorem Consumer.events_react_of_isReceiving {x : Consumer} (hx : x.isReceiving = true)
    (c : ConsumerId) (h : HubId) (texts : Noted → String) :
    (x.react c h texts).events = [.queued c h (texts .wrapped)] ∨
      (x.react c h texts).events = [.lost c h] := by
  have ho : ∀ q : Queue, q.receiving = true →
      (q.offer (texts .wrapped)).2.events c h (texts .wrapped) = [.queued c h (texts .wrapped)] ∨
        (q.offer (texts .wrapped)).2.events c h (texts .wrapped) = [.lost c h] := by
    intro q hq
    rw [Queue.offer, hq]
    by_cases hl : q.waiting.length < q.capacity
    · exact .inl (by simp [hl, Delivery.events])
    · exact .inr (by simp [hl, Delivery.events])
  cases x with
  | observer o => cases hx
  | channel q => exact ho q hx
  | session s =>
    obtain ⟨alive, hq⟩ := Bool.and_eq_true_iff.1 hx
    rw [react, if_pos alive]
    exact ho s.queue hq

/-- Nothing happened about a hub that is none of those that events are about. -/
theorem about_of_not_mem {hs : List HubId} {es : List Event}
    (he : ∀ e ∈ es, ∃ h ∈ hs, e.hub? = some h) {k : HubId} (hk : k ∉ hs) : about k es = [] := by
  rw [about, List.filter_eq_nil_iff]
  intro e hm hek
  obtain ⟨h, hh, heh⟩ := he e hm
  rw [of_decide_eq_true hek] at heh
  exact hk (Option.some.inj heh ▸ hh)

/-- How far the publication of a hub has come. -/
inductive Stage
  | waiting
  /-- The instant is written. -/
  | instant
  /-- Both slots are written. -/
  | stamped
  /-- The values are captured and rendered. -/
  | captured (s : Snapshot) (line : String)
  /-- The line is logged. -/
  | logged (s : Snapshot) (line : String)
  /-- The snapshot and its text are kept. Some consumers are still to be told, and of the others
  some want to leave. -/
  | telling (left gone : List ConsumerId)
  | done

/-- The captured values are those of the leaves of the table. -/
theorem LeafTable.capture_congr {t : LeafTable} {f g : LeafId → Leaf}
    (hv : ∀ l ∈ t.leaves, (f l).values = (g l).values) (time : Timestamp) :
    t.capture f time = t.capture g time := by
  have hslot : ∀ r, (f (t.slot r)).values = (g (t.slot r)).values := fun r =>
    hv _ ((mem_leaves_iff t _).2 (.inl ⟨r, rfl⟩))
  have hentry : ∀ e ∈ t.byPredicate.entries, (f e.2).values = (g e.2).values := fun e he =>
    hv _ ((mem_leaves_iff t _).2 (.inr (List.mem_map_of_mem he)))
  have hentries : t.byPredicate.entries.map (fun e => (e.1, (f e.2).values)) =
      t.byPredicate.entries.map fun e => (e.1, (g e.2).values) :=
    List.map_congr_left fun e he => by rw [hentry e he]
  unfold capture
  simp only [hslot, hentries]

namespace Board

variable {start b b' b'' : Board} {h k : HubId} {hs : List HubId}

/-! ### Steps -/

/-- One step of the publication of a hub. -/
def publishStep (b : Board) (h : HubId) (time : Timestamp) : Stage → Board × Stage
  | .waiting =>
    (b.modifyLeaf ((b.hub h).table.slot .instant) (·.write (instantOf time) time), .instant)
  | .instant =>
    (b.modifyLeaf ((b.hub h).table.slot .datetime) (·.write (datetimeOf time) time), .stamped)
  | .stamped => (b, .captured (b.capture h time) (b.render h (b.capture h time)))
  | .captured s line => (b.log h line, .logged s line)
  | .logged s line =>
    let b := (b.keep h s line).note (.published h s line)
    (b, .telling (b.hub h).consumers [])
  | .telling (c :: cs) gone =>
    let (b, stays) := b.informWith publish c h
    (b.note (.informed c h stays), .telling cs (if stays then gone else gone ++ [c]))
  | .telling [] gone => (b.modifyHub h (·.unsubscribeAll gone), .done)
  | .done => (b, .done)

/-- What is noted of a step, if the consumers of the hub only observe. -/
def stepEvents (b : Board) (h : HubId) : Stage → List Event
  | .logged s line => [.published h s line]
  | .telling (c :: _) _ =>
    let r := (b.consumer c).react c h (b.texts h)
    r.events ++ [.informed c h r.stays]
  | _ => []

/-- What happens in a step is about its hub. -/
theorem hub?_stepEvents {s : Stage} : ∀ e ∈ b.stepEvents h s, e.hub? = some h := by
  cases s with
  | logged s' line => exact List.forall_mem_singleton.2 rfl
  | telling left gone =>
    cases left with
    | nil => exact fun e he => absurd he List.not_mem_nil
    | cons d ds =>
      exact List.forall_mem_append.2 ⟨Consumer.hub?_react _ d h _, List.forall_mem_singleton.2 rfl⟩
  | _ => exact fun e he => absurd he List.not_mem_nil

/-- A hub publishes in the step in which its line is logged. -/
theorem published_stepEvents {s : Stage} {x : Snapshot} {line : String}
    (he : Event.published k x line ∈ b.stepEvents h s) : k = h ∧ s = .logged x line := by
  cases s with
  | logged s' line' =>
    cases List.mem_singleton.1 he
    exact ⟨rfl, rfl⟩
  | telling left gone =>
    cases left with
    | nil => cases he
    | cons c cs =>
      rcases List.mem_append.1 he with he | he
      · exact absurd (Consumer.publication?_react _ c h _ _ he) (by simp [Event.publication?])
      · cases List.mem_singleton.1 he
  | _ => cases he

/-- A step from a board and a stage to the next ones. -/
def publishNext (h : HubId) (time : Timestamp) (p : Board × Stage) : Board × Stage :=
  p.1.publishStep h time p.2

/-- Nothing is left to do in the end. -/
theorem iterate_done (b : Board) (h : HubId) (time : Timestamp) (n : Nat) :
    (publishNext h time)^[n] (b, .done) = (b, .done) :=
  Function.iterate_fixed (by rfl) n

/-- The consumers are told one after the other, and those that want to leave are removed. -/
theorem iterate_telling (b : Board) (h : HubId) (time : Timestamp) (cs gone : List ConsumerId) :
    (publishNext h time)^[cs.length + 1] (b, .telling cs gone) =
      ((passWith publish h b cs).1.modifyHub h
        (·.unsubscribeAll (gone ++ (passWith publish h b cs).2)), .done) := by
  induction cs generalizing b gone with
  | nil =>
    rw [passWith, List.append_nil]
    rfl
  | cons c cs ih =>
    rw [List.length_cons, Function.iterate_succ_apply]
    show (publishNext h time)^[cs.length + 1]
      ((b.informWith publish c h).1.note (.informed c h (b.informWith publish c h).2),
        .telling cs (if (b.informWith publish c h).2 then gone else gone ++ [c])) = _
    rw [ih, passWith]
    generalize b.informWith publish c h = p
    obtain ⟨d, stays⟩ := p
    cases stays with
    | true => rfl
    | false => simp

/-- **All steps together publish the hub.** -/
theorem iterate_publish (hb : Sound b) (held : b.isHubHeld h = true) (time : Timestamp) :
    ∃ n, (publishNext h time)^[n] (b, .waiting) = (b.publish h time, .done) := by
  -- five steps post the hub
  have hpost : (publishNext h time)^[5] (b, .waiting) =
      (b.post h time, .telling ((b.post h time).hub h).consumers []) := rfl
  refine ⟨((b.post h time).hub h).consumers.length + 1 + 5, ?_⟩
  rw [Function.iterate_add_apply, hpost, iterate_telling, publish_eq hb held]
  rfl

/-- Whenever the steps have come to the end, the hub is published. -/
theorem eq_publish_of_done (hb : Sound b) (held : b.isHubHeld h = true) {time : Timestamp} {n : Nat}
    (hn : ((publishNext h time)^[n] (b, .waiting)).2 = .done) :
    ((publishNext h time)^[n] (b, .waiting)).1 = b.publish h time := by
  obtain ⟨m, hm⟩ := iterate_publish hb held time
  -- both runs have come to the end after as many steps as they have together
  have hsum := Function.iterate_add_apply (publishNext h time) m n (b, .waiting)
  rw [Nat.add_comm, Function.iterate_add_apply, hm, iterate_done] at hsum
  generalize (publishNext h time)^[n] (b, .waiting) = p at hn hsum
  obtain ⟨c, s⟩ := p
  obtain rfl : s = .done := hn
  rw [iterate_done] at hsum
  exact (congrArg Prod.fst hsum).symm

/-! ### What a step leaves as it was -/

/-- A board on which nothing changed but what belongs to some hubs: themselves, their slots, their
consumers and their files, as they were at the start. What happened is about these hubs, and the
meter of sent messages counted what their sessions accepted. -/
structure Within (start : Board) (hs : List HubId) (b b' : Board) : Prop where
  frame : Frame b b'
  hub : ∀ k, k ∉ hs → b'.hub k = b.hub k
  face : ∀ l, (∀ h ∈ hs, (start.hub h).table.isReserved l = false) →
    (b'.leaf l).face = (b.leaf l).face
  consumer : ∀ c, (∀ h ∈ hs, c ∉ (start.hub h).consumers) → b'.consumer c = b.consumer c
  alive : ∀ c, (b'.consumer c).alive? = (b.consumer c).alive?
  file : ∀ f, (∀ h ∈ hs, (start.hub h).file? ≠ some f) → b'.disk.content f = b.disk.content f
  events : ∃ es, b'.events = b.events ++ es ∧ (∀ e ∈ es, ∃ h ∈ hs, e.hub? = some h) ∧
    ∀ l, (b'.leaf l).tally =
      (b.leaf l).tally + if l = b.registry.sendMeter then (es.countP b.isSent : Int) else 0

protected theorem Within.refl (start : Board) (hs : List HubId) (b : Board) :
    Within start hs b b where
  frame := .refl b
  hub _ _ := rfl
  face _ _ := rfl
  consumer _ _ := rfl
  alive _ := rfl
  file _ _ := rfl
  events := ⟨[], (List.append_nil _).symm, fun _ he => absurd he List.not_mem_nil,
    fun l => by simp⟩

theorem Within.trans (hw : Within start hs b b') (hw' : Within start hs b' b'') :
    Within start hs b b'' where
  frame := hw.frame.trans hw'.frame
  hub k hk := (hw'.hub k hk).trans (hw.hub k hk)
  face l hl := (hw'.face l hl).trans (hw.face l hl)
  consumer c hc := (hw'.consumer c hc).trans (hw.consumer c hc)
  alive c := (hw'.alive c).trans (hw.alive c)
  file f hf := (hw'.file f hf).trans (hw.file f hf)
  events := by
    obtain ⟨es, he, ha, ht⟩ := hw.events
    obtain ⟨fs, hf, ha', ht'⟩ := hw'.events
    refine ⟨es ++ fs, by rw [hf, he, List.append_assoc], fun e hm => ?_, fun l => ?_⟩
    · exact (List.mem_append.1 hm).elim (ha e) (ha' e)
    · rw [ht', ht, countP_isSent fs fun c _ _ _ => hw.alive c, hw.frame.registry,
        List.countP_append]
      split <;> push_cast <;> omega

theorem Within.mono (hw : Within start [h] b b') (hh : h ∈ hs) : Within start hs b b' where
  frame := hw.frame
  hub k hk := hw.hub k fun hm => hk (List.mem_singleton.1 hm ▸ hh)
  face l hl := hw.face l fun k hm => hl k (List.mem_singleton.1 hm ▸ hh)
  consumer c hc := hw.consumer c fun k hm => hc k (List.mem_singleton.1 hm ▸ hh)
  alive := hw.alive
  file f hf := hw.file f fun k hm => hf k (List.mem_singleton.1 hm ▸ hh)
  events := by
    obtain ⟨es, he, ha, ht⟩ := hw.events
    refine ⟨es, he, fun e hm => ?_, ht⟩
    obtain ⟨k, hk, hek⟩ := ha e hm
    exact ⟨h, hh, List.mem_singleton.1 hk ▸ hek⟩

/-! ### The changes that steps are made of -/

theorem within_writeSlot (ht : (b.hub h).table = (start.hub h).table) (r : Name.Reserved)
    (v : Literal) (time : Timestamp) :
    Within start [h] b (b.modifyLeaf ((b.hub h).table.slot r) (·.write v time)) := by
  refine { Within.refl start [h] b with
    frame := Frame.writeLeaf b _ [v] time
    face := fun l hl => ?_
    events := ⟨[], (List.append_nil _).symm, fun _ he => absurd he List.not_mem_nil,
      fun l => ?_⟩ }
  · rw [leaf_modifyLeaf, if_neg]
    rintro rfl
    have hr := hl h List.mem_cons_self
    rw [← ht, LeafTable.isReserved_iff.2 ⟨r, rfl⟩] at hr
    cases hr
  · rw [leaf_modifyLeaf]
    split
    · rename_i he
      rw [← he, Leaf.write, Leaf.tally_writeAll]
      simp
    · simp

theorem disk_log (b : Board) (h : HubId) (line : String) :
    (b.log h line).disk = (b.hub h).logged b.disk line := by
  unfold log Hub.logged
  cases (b.hub h).series <;> rfl

theorem within_log (hf : (b.hub h).file? = (start.hub h).file?) (line : String) :
    Within start [h] b (b.log h line) where
  frame := Frame.log b h line
  hub k _ := hub_log b h line k
  face l _ := by rw [leaf_log]
  consumer c _ := consumer_log b h line c
  alive c := by rw [consumer_log]
  file f hn := by
    rw [disk_log, Hub.content_logged, hf, if_neg (hn h List.mem_cons_self)]
  events := by
    refine ⟨[], ?_, fun _ he => absurd he List.not_mem_nil, fun l => by simp⟩
    rw [List.append_nil, events_of_journal_eq (journal_log b h line)]

theorem within_modifyHub {f : Hub → Hub} (hf : Hub.Alike (b.hub h) (f (b.hub h))) :
    Within start [h] b (b.modifyHub h f) := by
  refine { Within.refl start [h] b with frame := Frame.modifyHub b hf, hub := fun k hk => ?_ }
  rw [hub_modifyHub, if_neg fun he => hk (List.mem_singleton.2 he.symm)]

theorem within_note {e : Event} (he : e.hub? = some h) (hs : b.isSent e = false) :
    Within start [h] b (b.note e) := by
  refine { Within.refl start [h] b with
    frame := Frame.note b e
    events := ⟨[e], events_note b e, fun d hd => ?_, fun l => ?_⟩ }
  · rw [List.mem_singleton.1 hd]
    exact ⟨h, List.mem_cons_self, he⟩
  · simp [hs]

theorem within_reacts {c : ConsumerId} {texts : Noted → String}
    (hc : c ∈ (start.hub h).consumers)
    (hr : Reacts b b' c ((b.consumer c).react c h texts)) : Within start [h] b b' where
  frame := hr.frame
  hub k _ := hr.hub k
  face l _ := hr.face l
  consumer d hd := by
    rw [hr.consumer, if_neg]
    rintro rfl
    exact hd h List.mem_cons_self hc
  alive d := by
    rw [hr.consumer]
    split
    · rename_i he
      rw [← he, Consumer.alive?_react]
    · rfl
  file f _ := by rw [hr.disk]
  events := ⟨_, hr.events,
    fun e he => ⟨h, List.mem_cons_self, Consumer.hub?_react _ c h texts e he⟩, hr.tally⟩

/-! ### Stages -/

/-- A hub on the way to its publication, on a board that began as `start`: its consumers only
observe, it has those that it had, and when they are told it has a text for them. -/
structure Underway (start : Board) (h : HubId) (b : Board) (s : Stage) : Prop where
  frame : Frame start b
  observes : ∀ c ∈ (start.hub h).consumers, (b.consumer c).observes = true
  consumers : s ≠ .done → (b.hub h).consumers = (start.hub h).consumers
  telling : ∀ left gone, s = .telling left gone →
    (∀ c ∈ left, c ∈ (start.hub h).consumers) ∧ b.Fresh h

theorem Underway.waiting (ho : ∀ c ∈ (start.hub h).consumers, (start.consumer c).observes = true) :
    Underway start h start .waiting :=
  ⟨.refl start, ho, fun _ => rfl, by simp⟩

section Step

variable (hm : (start.leaf start.registry.sendMeter).sort = .meter) {s : Stage}
include hm

theorem Underway.sendMeter (hu : Underway start h b s) :
    (b.leaf b.registry.sendMeter).sort = .meter := by
  rw [hu.frame.registry, (hu.frame.leaf _).sort]
  exact hm

/-- **What a step leaves as it was**: everything that does not belong to its hub. -/
theorem within_publishStep (hu : Underway start h b s) (time : Timestamp) :
    Within start [h] b (b.publishStep h time s).1 := by
  have ht := (hu.frame.hub h).table
  cases s with
  | waiting => exact within_writeSlot ht .instant _ time
  | instant => exact within_writeSlot ht .datetime _ time
  | stamped => exact .refl start [h] b
  | captured s line =>
    refine within_log ?_ line
    rw [Hub.file?, Hub.file?, (hu.frame.hub h).series]
  | logged s line =>
    exact (within_modifyHub ⟨rfl, rfl, rfl, rfl⟩).trans (within_note rfl rfl)
  | telling left gone =>
    obtain ⟨hl, hf⟩ := hu.telling left gone rfl
    cases left with
    | nil => exact within_modifyHub ⟨rfl, rfl, rfl, rfl⟩
    | cons c cs =>
      have hc := hl c List.mem_cons_self
      have hr := (informs publish (hu.sendMeter hm) (hu.observes c hc) hf).reacts
      exact (within_reacts hc hr).trans (within_note rfl rfl)
  | done => exact .refl start [h] b

/-- **What happens in a step** of a hub whose consumers only observe. -/
theorem events_publishStep (hu : Underway start h b s) (time : Timestamp) :
    (b.publishStep h time s).1.events = b.events ++ b.stepEvents h s := by
  cases s with
  | waiting | instant | stamped | done => exact (List.append_nil _).symm
  | captured s line =>
    exact (events_of_journal_eq (journal_log b h line)).trans (List.append_nil _).symm
  | logged s line => exact events_note _ _
  | telling left gone =>
    cases left with
    | nil => exact (List.append_nil _).symm
    | cons c cs =>
      obtain ⟨hl, hf⟩ := hu.telling _ gone rfl
      obtain ⟨hr, hstay⟩ := informs publish (hu.sendMeter hm)
        (hu.observes c (hl c List.mem_cons_self)) hf
      show ((b.informWith publish c h).1.note (.informed c h (b.informWith publish c h).2)).events =
        _
      rw [events_note, hr.events, hstay, List.append_assoc]
      rfl

/-- **What becomes of a consumer** in a step: it stays as it is, unless it is told. -/
theorem consumer_publishStep (hu : Underway start h b s) (time : Timestamp) (d : ConsumerId) :
    (b.publishStep h time s).1.consumer d = b.consumer d ∨
      (b.publishStep h time s).1.consumer d =
        ((b.consumer d).react d h (b.texts h)).consumer := by
  cases s with
  | waiting | instant | stamped | logged | done => exact .inl rfl
  | captured s line => exact .inl (consumer_log b h line d)
  | telling left gone =>
    obtain ⟨hl, hf⟩ := hu.telling left gone rfl
    cases left with
    | nil => exact .inl rfl
    | cons c cs =>
      have hr := (informs publish (hu.sendMeter hm) (hu.observes c (hl c List.mem_cons_self))
        hf).reacts
      have he : (b.publishStep h time (.telling (c :: cs) gone)).1.consumer d =
        (b.informWith publish c h).1.consumer d := rfl
      rw [he, hr.consumer]
      split
      · rename_i hd
        rw [hd]
        exact .inr rfl
      · exact .inl rfl

/-- A consumer that only observes goes on to do so. -/
theorem observes_publishStep (hu : Underway start h b s) (time : Timestamp) {d : ConsumerId}
    (hd : (b.consumer d).observes = true) :
    ((b.publishStep h time s).1.consumer d).observes = true := by
  rcases consumer_publishStep hm hu time d with he | he <;> rw [he]
  · exact hd
  · exact Consumer.observes_react hd ..

/-- No receiver goes, and none comes. -/
theorem isReceiving_publishStep (hu : Underway start h b s) (time : Timestamp) (d : ConsumerId) :
    ((b.publishStep h time s).1.consumer d).isReceiving = (b.consumer d).isReceiving := by
  rcases consumer_publishStep hm hu time d with he | he <;> rw [he]
  exact Consumer.isReceiving_react ..

/-- A step leads to the next stage. -/
theorem Underway.step (hu : Underway start h b s) (time : Timestamp) :
    Underway start h (b.publishStep h time s).1 (b.publishStep h time s).2 := by
  have hframe := hu.frame.trans (within_publishStep hm hu time).frame
  have hobserves : ∀ c ∈ (start.hub h).consumers,
      ((b.publishStep h time s).1.consumer c).observes = true := fun c hc =>
    observes_publishStep hm hu time (hu.observes c hc)
  cases s with
  | waiting | instant | stamped =>
    exact ⟨hframe, hobserves, fun _ => hu.consumers (by simp), by simp [publishStep]⟩
  | captured s line =>
    refine ⟨hframe, hobserves, fun _ => ?_, by simp [publishStep]⟩
    show ((b.log h line).hub h).consumers = _
    rw [hub_log]
    exact hu.consumers (by simp)
  | logged s line =>
    have hk : ((b.keep h s line).hub h) = (b.hub h).kept s line := by
      rw [keep, hub_modifyHub, if_pos rfl]
      rfl
    have hc : ((b.keep h s line).hub h).consumers = (start.hub h).consumers := by
      rw [hk]
      exact hu.consumers (by simp)
    refine ⟨hframe, hobserves, fun _ => hc, fun left gone he => ?_⟩
    obtain ⟨rfl, -⟩ := Stage.telling.inj he
    refine ⟨fun c hm => hc ▸ hm, .inr ?_⟩
    show ((b.keep h s line).hub h).formatted ≠ none ∧ ((b.keep h s line).hub h).wrapped ≠ none
    rw [hk]
    simp [Hub.kept]
  | telling left gone =>
    obtain ⟨hl, hf⟩ := hu.telling left gone rfl
    cases left with
    | nil => exact ⟨hframe, hobserves, fun hd => absurd rfl hd, by simp [publishStep]⟩
    | cons c cs =>
      have hr := (informs publish (hu.sendMeter hm) (hu.observes c (hl c List.mem_cons_self))
        hf).reacts
      refine ⟨hframe, hobserves, fun _ => ?_, fun left' gone' he => ?_⟩
      · show ((b.informWith publish c h).1.hub h).consumers = _
        rw [hr.hub]
        exact hu.consumers (by simp)
      · obtain ⟨rfl, -⟩ := Stage.telling.inj he
        refine ⟨fun d hd => hl d (List.mem_cons_of_mem c hd), ?_⟩
        show Fresh (b.informWith publish c h).1 h
        rw [Fresh, hr.hub]
        exact hf
  | done => exact ⟨hframe, hobserves, hu.consumers, hu.telling⟩

/-- What another hub does leaves a hub under way. -/
theorem Underway.other (hu : Underway start h b s) (hne : h ≠ k) {r : Stage}
    (hk : Underway start k b r) (time : Timestamp) :
    Underway start h (b.publishStep k time r).1 s := by
  have hw := within_publishStep hm hk time
  have hhub : (b.publishStep k time r).1.hub h = b.hub h :=
    hw.hub h fun hmem => hne (List.mem_singleton.1 hmem)
  refine ⟨hu.frame.trans hw.frame, fun c hc => ?_, fun hs => ?_, fun left gone he => ?_⟩
  · exact observes_publishStep hm hk time (hu.observes c hc)
  · rw [hhub]
    exact hu.consumers hs
  · rw [Fresh, hhub]
    exact hu.telling left gone he

end Step

/-! ### What a hub sees -/

/-- Two boards on which a hub sees the same: itself, the faces of its leaves, its consumers, its
file and what happened about it. -/
structure Agree (start : Board) (h : HubId) (b b' : Board) : Prop where
  hub : b'.hub h = b.hub h
  face : ∀ l ∈ (start.hub h).table.leaves, (b'.leaf l).face = (b.leaf l).face
  consumer : ∀ c ∈ (start.hub h).consumers, b'.consumer c = b.consumer c
  file : ∀ f, (start.hub h).file? = some f → b'.disk.content f = b.disk.content f
  events : about h b'.events = about h b.events

protected theorem Agree.refl (start : Board) (h : HubId) (b : Board) : Agree start h b b :=
  ⟨rfl, fun _ _ => rfl, fun _ _ => rfl, fun _ _ => rfl, rfl⟩

theorem Agree.symm (ha : Agree start h b b') : Agree start h b' b where
  hub := ha.hub.symm
  face l hl := (ha.face l hl).symm
  consumer c hc := (ha.consumer c hc).symm
  file f hf := (ha.file f hf).symm
  events := ha.events.symm

theorem Agree.trans (ha : Agree start h b b') (ha' : Agree start h b' b'') :
    Agree start h b b'' where
  hub := ha'.hub.trans ha.hub
  face l hl := (ha'.face l hl).trans (ha.face l hl)
  consumer c hc := (ha'.consumer c hc).trans (ha.consumer c hc)
  file f hf := (ha'.file f hf).trans (ha.file f hf)
  events := ha'.events.trans ha.events

/-- Nothing that one hub sees belongs to another one. -/
structure Clear (start : Board) (h k : HubId) : Prop where
  slots : ∀ l ∈ (start.hub k).table.leaves, (start.hub h).table.isReserved l = false
  consumers : ∀ c ∈ (start.hub k).consumers, c ∉ (start.hub h).consumers
  file : ∀ f, (start.hub k).file? = some f → (start.hub h).file? ≠ some f

/-- **What belongs to one hub may change**, and the others see the same. -/
theorem Within.agree (hw : Within start [h] b b') (hc : Clear start h k) (hk : k ≠ h) :
    Agree start k b b' where
  hub := hw.hub k fun hm => hk (List.mem_singleton.1 hm)
  face l hl := hw.face l fun j hj => by
    rw [List.mem_singleton.1 hj]
    exact hc.slots l hl
  consumer c hm := hw.consumer c fun j hj => by
    rw [List.mem_singleton.1 hj]
    exact hc.consumers c hm
  file f hf := hw.file f fun j hj => by
    rw [List.mem_singleton.1 hj]
    exact hc.file f hf
  events := by
    obtain ⟨es, he, ha, -⟩ := hw.events
    rw [he, about_append, about_of_not_mem ha fun hm => hk (List.mem_singleton.1 hm),
      List.append_nil]

section Same

variable (hf : Frame start b) (hf' : Frame start b') (ha : Agree start h b b')
include hf hf' ha

omit hf' in
theorem Agree.values {l : LeafId} (hl : l ∈ (b.hub h).table.leaves) :
    (b'.leaf l).values = (b.leaf l).values := by
  rw [(hf.hub h).table] at hl
  rw [← Leaf.values_face, ha.face l hl, Leaf.values_face]

omit hf' in
theorem Agree.capture (time : Timestamp) : b'.capture h time = b.capture h time := by
  unfold Board.capture
  rw [ha.hub]
  exact LeafTable.capture_congr (fun l hl => ha.values hf hl) time

theorem Agree.render (s : Snapshot) : b'.render h s = b.render h s := by
  refine render_congr (congrArg Hub.table ha.hub) (fun l => ⟨?_, ?_⟩) s
  · rw [(hf'.leaf l).name, (hf.leaf l).name]
  · rw [(hf'.leaf l).sort, (hf.leaf l).sort]

theorem Agree.liveText : b'.liveText h = b.liveText h := by
  rw [Board.liveText, Board.liveText, ha.render hf hf', hf'.wall, ← hf.wall, ha.capture hf]

theorem Agree.texts (hfresh : b.Fresh h) : b'.texts h = b.texts h := by
  have hlive := ha.liveText hf hf'
  funext noted
  cases noted with
  | wrapped =>
    show (b'.json h).2 = (b.json h).2
    unfold json
    rw [ha.hub, hlive]
    split
    · rfl
    · rename_i hv
      split
      · rfl
      · rename_i hw
        rcases hfresh with h' | ⟨-, h'⟩
        · exact absurd h' hv
        · exact absurd hw h'
  | text =>
    show (b'.formatted h).2 = (b.formatted h).2
    unfold formatted
    rw [ha.hub, hlive]
    split
    · rfl
    · split <;> rfl
  | id =>
    show (b'.hub h).id = (b.hub h).id
    rw [ha.hub]

end Same

theorem Agree.modifyHub (ha : Agree start h b b') (f : Hub → Hub) :
    Agree start h (b.modifyHub h f) (b'.modifyHub h f) :=
  { ha with hub := by rw [hub_modifyHub, hub_modifyHub, if_pos rfl, if_pos rfl, ha.hub] }

theorem Agree.note (ha : Agree start h b b') (e : Event) :
    Agree start h (b.note e) (b'.note e) :=
  { ha with events := by rw [events_note, events_note, about_append, about_append, ha.events] }

theorem Agree.writeSlot (ha : Agree start h b b') (r : Name.Reserved) (v : Literal)
    (time : Timestamp) :
    Agree start h (b.modifyLeaf ((b.hub h).table.slot r) (·.write v time))
      (b'.modifyLeaf ((b'.hub h).table.slot r) (·.write v time)) := by
  refine { ha with face := fun l hl => ?_ }
  rw [leaf_modifyLeaf, leaf_modifyLeaf, ha.hub]
  split
  · rename_i he
    rw [he, Leaf.write, Leaf.write, Leaf.face_writeAll, Leaf.face_writeAll, ha.face l hl]
  · exact ha.face l hl

theorem Agree.log (ha : Agree start h b b') (line : String) :
    Agree start h (b.log h line) (b'.log h line) where
  hub := by rw [hub_log, hub_log, ha.hub]
  face l hl := by rw [leaf_log, leaf_log, ha.face l hl]
  consumer c hc := by rw [consumer_log, consumer_log, ha.consumer c hc]
  file f hf := by
    rw [disk_log, disk_log, Hub.content_logged, Hub.content_logged, ha.hub, ha.file f hf]
  events := by
    rw [events_of_journal_eq (journal_log b' h line), events_of_journal_eq (journal_log b h line)]
    exact ha.events

theorem Agree.reacts (ha : Agree start h b b') {c : ConsumerId} {d d' : Board} {r : Reaction}
    (hr : Reacts b d c r) (hr' : Reacts b' d' c r) : Agree start h d d' where
  hub := by rw [hr.hub, hr'.hub, ha.hub]
  face l hl := by rw [hr.face, hr'.face, ha.face l hl]
  consumer e he := by rw [hr.consumer, hr'.consumer, ha.consumer e he]
  file f hf := by rw [hr.disk, hr'.disk, ha.file f hf]
  events := by rw [hr.events, hr'.events, about_append, about_append, ha.events]

/-- **A step does the same on boards on which its hub sees the same.** -/
theorem agree_publishStep (hm : (start.leaf start.registry.sendMeter).sort = .meter) {s : Stage}
    (hu : Underway start h b s) (hu' : Underway start h b' s) (ha : Agree start h b b')
    (time : Timestamp) :
    Agree start h (b.publishStep h time s).1 (b'.publishStep h time s).1 ∧
      (b'.publishStep h time s).2 = (b.publishStep h time s).2 := by
  cases s with
  | waiting => exact ⟨ha.writeSlot .instant _ time, rfl⟩
  | instant => exact ⟨ha.writeSlot .datetime _ time, rfl⟩
  | stamped =>
    refine ⟨ha, ?_⟩
    show Stage.captured _ _ = .captured _ _
    rw [ha.render hu.frame hu'.frame, ha.capture hu.frame]
  | captured s line => exact ⟨ha.log line, rfl⟩
  | logged s line =>
    have hk := (ha.modifyHub fun x =>
      { x with formatted := some line, wrapped := some (x.wrap line), snapshot := some s }).note
        (.published h s line)
    exact ⟨hk, congrArg (Stage.telling · []) (congrArg Hub.consumers hk.hub)⟩
  | telling left gone =>
    obtain ⟨hl, hf⟩ := hu.telling left gone rfl
    obtain ⟨-, hf'⟩ := hu'.telling left gone rfl
    cases left with
    | nil => exact ⟨ha.modifyHub _, rfl⟩
    | cons c cs =>
      have hc := hl c List.mem_cons_self
      obtain ⟨hr, hstay⟩ := informs publish (hu.sendMeter hm) (hu.observes c hc) hf
      obtain ⟨hr', hstay'⟩ := informs publish (hu'.sendMeter hm) (hu'.observes c hc) hf'
      -- the consumer is the same and is given the same texts
      rw [ha.consumer c hc, ha.texts hu.frame hu'.frame hf] at hr' hstay'
      have hsame := hstay'.trans hstay.symm
      refine ⟨?_, ?_⟩
      · show Agree start h ((b.informWith publish c h).1.note _)
          ((b'.informWith publish c h).1.note (.informed c h (b'.informWith publish c h).2))
        rw [hsame]
        exact (ha.reacts hr hr').note _
      · show Stage.telling cs (if (b'.informWith publish c h).2 then gone else gone ++ [c]) = _
        rw [hsame]
        rfl
  | done => exact ⟨ha, rfl⟩

end Board

end Switchboard
