import Switchboard.Proofs.SessionTally

/-!
# Sessions in publications

A publication sends its text to open sessions, drops those that are over, and ends those whose
receiver is gone, which publishes once more. Through all of this the tally stays even, and a hub
that was published after a session was over has dropped it.

* `HandlesSessions.trans`: what holds of two parts of a run holds of both together.
* `informWith_handlesSessions`, `notifyWith_handlesSessions`: one consumer is told, and all
  consumers of a hub.
* `publish_handlesSessions`: a publication, with all that is nested in it.
-/

namespace Switchboard

/-- Whether an action neither subscribes a consumer nor counts anything. -/
def Action.isPlain : Action → Bool
  | .unsubscribe .. | .update _ | .set .. => true
  | _ => false

/-- Actions that neither subscribe nor count. -/
abbrev Plain (a : Action) : Prop := a.isPlain = true

/-- Whether events publish a hub after a session was over, or its end came before them. -/
def PublishedAfter (gone : Prop) (c : ConsumerId) (h : HubId) (es : List Event) : Prop :=
  ∃ pre s line post, es = pre ++ .published h s line :: post ∧ (gone ∨ .ended c ∈ pre)

section Events

variable {gone : Prop} {c : ConsumerId} {h : HubId} {es fs : List Event}

/-- A publication among the events of two runs is in the first or in the second. -/
theorem PublishedAfter.append (hp : PublishedAfter gone c h (es ++ fs)) :
    PublishedAfter gone c h es ∨ PublishedAfter (gone ∨ .ended c ∈ es) c h fs := by
  obtain ⟨pre, s, line, post, hs, ho⟩ := hp
  rcases List.append_eq_append_iff.1 hs with ⟨rest, rfl, hr⟩ | ⟨rest, rfl, hr⟩
  · refine .inr ⟨rest, s, line, post, hr, ?_⟩
    rw [List.mem_append] at ho
    exact (or_assoc).2 ho
  · cases rest with
    | nil => exact .inr ⟨[], s, line, post, hr.symm, .inl (by rwa [List.append_nil])⟩
    | cons e rest =>
      obtain ⟨rfl, -⟩ := List.cons.inj hr
      exact .inl ⟨pre, s, line, rest, rfl, ho⟩

theorem PublishedAfter.mono {gone' : Prop} (hi : gone → gone') (hp : PublishedAfter gone c h es) :
    PublishedAfter gone' c h es := by
  obtain ⟨pre, s, line, post, hs, ho⟩ := hp
  exact ⟨pre, s, line, post, hs, ho.imp_left hi⟩

theorem not_publishedAfter (hq : ∀ e ∈ es, e.publication? = none) :
    ¬PublishedAfter gone c h es := by
  rintro ⟨pre, s, line, post, rfl, -⟩
  have := hq _ (List.mem_append_right _ List.mem_cons_self)
  cases this

end Events

namespace Board

variable {b b' b'' : Board} {c : ConsumerId} {h : HubId}

/-- **A part of a run that handles sessions as it should**: it leaves the tally even, subscribes no
session that is over, and drops such a session from every hub that it publishes then. -/
structure HandlesSessions (b b' : Board) : Prop where
  grows : b.events <+: b'.events
  tallies : b'.TalliesSessions 0 0
  narrows : ∀ c h, b.IsOver c → c ∈ (b'.hub h).consumers → c ∈ (b.hub h).consumers
  clears : ∀ c h, PublishedAfter (b.IsOver c) c h (news b b') → c ∉ (b'.hub h).consumers

theorem mem_events {e : Event} : e ∈ b.events ↔ e ∈ b.journal := List.mem_reverse

/-- A session that is over stays so, and one that ends on the way is over afterwards. -/
theorem HandlesSessions.isOver (x : HandlesSessions b b') (hb : b.TalliesSessions 0 0)
    (hc : b.IsOver c ∨ .ended c ∈ news b b') : b'.IsOver c := by
  rw [x.tallies.ends, ← mem_events, events_eq_news x.grows, List.mem_append, mem_events]
  exact hc.imp_left (hb.ends c).1

/-- A part of a run that publishes nothing. -/
theorem HandlesSessions.of_quiet {es : List Event} (hev : b'.events = b.events ++ es)
    (hq : ∀ e ∈ es, e.publication? = none) (tallies : b'.TalliesSessions 0 0)
    (narrows : ∀ c h, b.IsOver c → c ∈ (b'.hub h).consumers → c ∈ (b.hub h).consumers) :
    HandlesSessions b b' where
  grows := ⟨es, hev.symm⟩
  tallies := tallies
  narrows := narrows
  clears c h hp := by
    rw [news_of_events hev] at hp
    exact absurd hp (not_publishedAfter hq)

/-- A part of a run that spares the sessions and notes nothing. -/
theorem HandlesSessions.of_spared (hb : b.TalliesSessions 0 0) (ha : SparesSessions b b')
    (hj : b'.journal = b.journal)
    (narrows : ∀ c h, b.IsOver c → c ∈ (b'.hub h).consumers → c ∈ (b.hub h).consumers) :
    HandlesSessions b b' := by
  have hev : b'.events = b.events ++ [] := by rw [events_of_journal_eq hj, List.append_nil]
  exact .of_quiet hev (fun _ he => nomatch he) (hb.spared ha) narrows

theorem HandlesSessions.refl (hb : b.TalliesSessions 0 0) : HandlesSessions b b :=
  .of_spared hb (.refl b) rfl fun _ _ _ hm => hm

/-- **Two parts of a run that handle sessions do so together.** -/
theorem HandlesSessions.trans (hb : b.TalliesSessions 0 0) (x : HandlesSessions b b')
    (y : HandlesSessions b' b'') : HandlesSessions b b'' where
  grows := x.grows.trans y.grows
  tallies := y.tallies
  narrows c h ho hm := x.narrows c h ho (y.narrows c h (x.isOver hb (.inl ho)) hm)
  clears c h hp := by
    rw [news_trans x.grows y.grows] at hp
    rcases hp.append with hp | hp
    · -- the hub was published in the first part, and nobody came back to it in the second
      have hover : b'.IsOver c := by
        obtain ⟨pre, s, line, post, he, ho⟩ := hp
        refine x.isOver hb (ho.imp_right fun hm => ?_)
        rw [he]
        exact List.mem_append_left _ hm
      exact fun hm => x.clears c h hp (y.narrows c h hover hm)
    · exact y.clears c h (hp.mono (x.isOver hb))

/-! ### Publications -/

theorem note_handlesSessions (hb : b.TalliesSessions 0 0) {e : Event} (he : e.isTallied = false)
    (hq : e.publication? = none) : HandlesSessions b (b.note e) := by
  refine .of_quiet (events_note b e) ?_ (hb.spared (.note b he)) fun _ _ _ hm => hm
  rintro _ (_ | ⟨_, ⟨⟩⟩)
  exact hq

theorem json_handlesSessions (hb : b.TalliesSessions 0 0) (k : HubId) :
    HandlesSessions b (b.json k).1 :=
  .of_spared hb (.json b k) (journal_json b k) fun c h _ hm => by rwa [consumers_json] at hm

theorem formatted_handlesSessions (hb : b.TalliesSessions 0 0) (k : HubId) :
    HandlesSessions b (b.formatted k).1 :=
  .of_spared hb (.formatted b k) (journal_formatted b k)
    fun c h _ hm => by rwa [consumers_formatted] at hm

theorem noteOf_handlesSessions (hb : b.TalliesSessions 0 0) (k : HubId) (noted : Noted) :
    HandlesSessions b (b.noteOf k noted).1 := by
  cases noted with
  | wrapped => exact json_handlesSessions hb k
  | text => exact formatted_handlesSessions hb k
  | id => exact .refl hb

/-- A hub whose subscribers become fewer. -/
theorem narrow_handlesSessions (hb : b.TalliesSessions 0 0) {k : HubId} {f : Hub → Hub}
    (hf : ∀ d ∈ (f (b.hub k)).consumers, d ∈ (b.hub k).consumers) :
      HandlesSessions b (b.modifyHub k f) :=
  .of_spared hb (.modifyHub b k f) rfl fun _ _ _ hm => mem_consumers_of_modifyHub hf hm

section Nested

variable {nested : Board → HubId → Timestamp → Board}

/-- `nested` publishes by moves that handle sessions. -/
def HandlesSessionsBy (nested : Board → HubId → Timestamp → Board) : Prop :=
  ∀ b h time, Sound b → PlansWithin Plain b → b.TalliesSessions 0 0 → b.isHubHeld h = true →
    HandlesSessions b (nested b h time)

variable (hn : HandlesSessionsBy nested)
include hn

theorem refresh_handlesSessions (hs : Sound b) (hp : PlansWithin Plain b)
    (hb : b.TalliesSessions 0 0) (l : LeafId) : HandlesSessions b (b.refresh nested l) := by
  rcases b.refresh_cases l with ⟨h, -, held, eq⟩ | eq
  · rw [eq]
    exact hn b h _ hs hp hb held
  · rw [eq]
    exact .refl hb

/-- **The counter moves after a session was opened or ended**, and its hub is published. -/
theorem counted_handlesSessions (hs : Sound b) (hp : PlansWithin Plain b) {m steps : Int}
    (hb : b.TalliesSessions m 0) (he : m + steps = 0) :
    (b.counted steps).TalliesSessions 0 0 ∧ HandlesSessions (b.counted steps)
      (b.countWith nested b.registry.connections steps).1 := by
  have hb2 : (b.counted steps).TalliesSessions 0 0 := he ▸ hb.counted hs steps
  have hc : Move Plain b (b.counted steps) := .count _ b.connectionCount steps hs.body_connections
  rw [countWith_connections hs]
  exact ⟨hb2, refresh_handlesSessions hn (hc.sound hs) (hc.plans hp) hb2 _⟩

theorem closeWith_handlesSessions (hs : Sound b) (hp : PlansWithin Plain b)
    (hb : b.TalliesSessions 0 0) (c : ConsumerId) : HandlesSessions b (b.closeWith nested c) := by
  rcases b.closeWith_cases c with ⟨s, is, alive, eq⟩ | eq
  · have m : Move Plain b _ := .finish c s is alive
    have hb1 := hb.finish is alive
    have hev := events_note (b.setConsumer c (.session { s with alive := false })) (.ended c)
    have hhub : ∀ k, ((b.setConsumer c (.session { s with alive := false })).note
      (.ended c)).hub k = b.hub k := fun _ => rfl
    have hreg := m.frame.registry
    have hs1 := m.sound hs
    have hp1 := m.plans hp
    rw [eq]
    generalize (b.setConsumer c (.session { s with alive := false })).note (.ended c) = b1
      at hb1 hev hhub hreg hs1 hp1 ⊢
    obtain ⟨hb2, x⟩ := counted_handlesSessions hn hs1 hp1 hb1 (show 0 + 1 + (-1 : Int) = 0 from rfl)
    -- the end and its count are one step: the tally is even only after both
    have first : HandlesSessions b (b1.counted (-1)) := by
      have hev' : (b1.counted (-1)).events = b.events ++ [.ended c] := hev
      refine .of_quiet hev' ?_ hb2 fun d h _ hm => ?_
      · rintro _ (_ | ⟨_, ⟨⟩⟩)
        rfl
      · change d ∈ (b1.hub h).consumers at hm
        rwa [hhub] at hm
    rw [← hreg]
    exact first.trans hb x
  · rw [eq]
    exact .refl hb

theorem act_handlesSessions (hs : Sound b) (hp : PlansWithin Plain b) (hb : b.TalliesSessions 0 0)
    {a : Action} (ha : Plain a) : HandlesSessions b (b.act nested a) := by
  cases b.deed a with
  | idle _ eq =>
    rw [eq]
    exact .refl hb
  | unsubscribe hub consumer h c held eq =>
    rw [eq]
    exact narrow_handlesSessions hb fun d hd => (List.mem_filter.1 hd).1
  | update hub h held eq =>
    rw [eq]
    exact hn b h _ hs hp hb held
  | set leaf v x labelled eq =>
    rw [eq]
    refine .of_spared hb (.modifyLeaf b (.inr ?_)) rfl fun _ _ _ hm => hm
    exact Leaf.tally_writeAll _ _ _
  | subscribe | increment | decrement => cases ha

variable (hm : PublishesBy Plain nested)
include hm

theorem foldl_act_handlesSessions (hs : Sound b) (hp : PlansWithin Plain b)
    (hb : b.TalliesSessions 0 0)
    {as : List Action} (ha : ∀ a ∈ as, Plain a) : HandlesSessions b (as.foldl (act nested) b) := by
  induction as generalizing b with
  | nil => exact .refl hb
  | cons a as ih =>
    have x := act_handlesSessions hn hs hp hb (ha a List.mem_cons_self)
    have m := act_moves hm hp (ha a List.mem_cons_self)
    exact x.trans hb (ih (Moves.sound m hs) (Moves.plans m hp) x.tallies
      fun a' h' => ha a' (List.mem_cons_of_mem a h'))

omit hn hm in
/-- A message is accepted, and counted if it has to be. -/
theorem accept_handlesSessions {text : String} (hev : b'.events = b.events ++ [.queued c h text])
    (hh : ∀ k, b'.hub k = b.hub k) (tallies : b'.TalliesSessions 0 0) : HandlesSessions b b' := by
  refine .of_quiet hev ?_ tallies fun d k _ hm => by rwa [hh] at hm
  rintro _ (_ | ⟨_, ⟨⟩⟩)
  rfl

omit hn hm in
/-- **A session accepts a message**, and it is counted without a publication. -/
theorem sent_handlesSessions (nested : Board → HubId → Timestamp → Board) (hs : Sound b)
    (hb : b.TalliesSessions 0 0) {s : Session} (is : b.consumer c = .session s)
      (alive : s.alive = true)
    {r : Queue} {text : String} (offered : s.queue.offer text = (r, .accepted)) :
    HandlesSessions b
      (((b.setConsumer c ((b.consumer c).withQueue r)).note (.queued c h text)).countWith
      nested b.registry.sendMeter 1).1 := by
  have hover : ¬b.IsOver c := by
    rw [IsOver, is, Consumer.alive?, alive]
    decide
  have hone : (b.consumer c).isSession.toNat = 1 := by rw [is]; rfl
  have hq := hb.queue (r := r) hover h text
  rw [hone] at hq
  have hs' : Sound ((b.setConsumer c ((b.consumer c).withQueue r)).note (.queued c h text)) :=
    (Move.queue (A := Plain) c s.queue r h text (by rw [is]; rfl) offered).sound hs
  have hev := events_note (b.setConsumer c ((b.consumer c).withQueue r)) (.queued c h text)
  have hhub : ∀ k, ((b.setConsumer c ((b.consumer c).withQueue r)).note
    (.queued c h text)).hub k = b.hub k := fun _ => rfl
  have hreg : ((b.setConsumer c ((b.consumer c).withQueue r)).note
    (.queued c h text)).registry = b.registry := rfl
  generalize (b.setConsumer c ((b.consumer c).withQueue r)).note _ = b1 at hq hs' hev hhub hreg ⊢
  rw [← hreg]
  have tallies := hq.tick hs' nested 1
  obtain ⟨x, -, hcount⟩ := countWith_sendMeter nested hs' 1
  rw [hcount] at tallies ⊢
  exact accept_handlesSessions hev hhub tallies

omit hn hm in
/-- An observer is called, with what it notes. -/
theorem call_handlesSessions (hb : b.TalliesSessions 0 0) {o : Observer}
    (is : b.consumer c = .observer o)
    (text : String) : HandlesSessions b (b.setConsumer c (.observer (o.called text))) :=
  .of_spared hb (.setConsumer b (by rw [is]; rfl)) rfl fun _ _ _ hm => hm

/-- **A consumer is told.** A session that is over does not stay. -/
theorem informWith_handlesSessions (hs : Sound b) (hp : PlansWithin Plain b)
    (hb : b.TalliesSessions 0 0) (c : ConsumerId) {h : HubId} (held : b.isHubHeld h = true) :
    HandlesSessions b (b.informWith nested c h).1 ∧
      (b.IsOver c → (b.informWith nested c h).2 = false) := by
  have xj := json_handlesSessions hb h
  have mj : Move Plain b (b.json h).1 := .json h held
  have hsj := mj.sound hs
  have hpj := mj.plans hp
  have hcj : (b.json h).1.consumer c = b.consumer c := consumer_json b h c
  unfold informWith
  split
  · rename_i o is
    refine ⟨?_, fun ho => by rw [IsOver, is] at ho; cases ho⟩
    have x1 := noteOf_handlesSessions hb h o.noted
    have m1 := noteOf_moves (A := Plain) held o.noted
    have is' : (b.noteOf h o.noted).1.consumer c = .observer o := by
      rw [consumer_noteOf]
      exact is
    have x2 := call_handlesSessions x1.tallies is' (b.noteOf h o.noted).2
    have m2 := m1.tail (.call c o (b.noteOf h o.noted).2 is')
    exact (x1.trans hb x2).trans hb
      (foldl_act_handlesSessions hn hm (Moves.sound m2 hs) (Moves.plans m2 hp) x2.tallies
        (hp.due is))
  · rename_i q is
    have hover : ¬b.IsOver c := by
      rw [IsOver, is]
      exact (Option.some_ne_none false).symm
    refine ⟨?_, fun ho => absurd ho hover⟩
    rcases offer_cases b c q h with ⟨r, -, he⟩ | ⟨r, -, he⟩ | ⟨r, -, he⟩ <;> rw [he] <;> dsimp only
    · refine xj.trans hb (accept_handlesSessions (events_note _ _) (fun _ => rfl) ?_)
      have hq := xj.tallies.queue (c := c) (r := r) (by rwa [IsOver, hcj]) h (b.json h).2
      rwa [hcj, is] at hq ⊢
    · exact xj.trans hb (note_handlesSessions xj.tallies rfl rfl)
    · exact xj
  · rename_i s is
    split
    · rename_i alive
      have hover : ¬b.IsOver c := by
        rw [IsOver, is, Consumer.alive?, alive]
        decide
      refine ⟨?_, fun ho => absurd ho hover⟩
      rcases offer_cases b c s.queue h with ⟨r, ho, he⟩ | ⟨r, -, he⟩ | ⟨r, -, he⟩ <;> rw [he] <;>
        dsimp only
      · exact xj.trans hb (sent_handlesSessions nested hsj xj.tallies (hcj.trans is) alive ho)
      · exact xj.trans hb (note_handlesSessions xj.tallies rfl rfl)
      · exact xj.trans hb (closeWith_handlesSessions hn hsj hpj xj.tallies c)
    · exact ⟨.refl hb, fun _ => rfl⟩

/-- **All consumers of a list are told**, and those that are sessions and over are found gone. -/
theorem passWith_handlesSessions (hs : Sound b) (hp : PlansWithin Plain b)
    (hb : b.TalliesSessions 0 0) {h : HubId} (held : b.isHubHeld h = true) (cs : List ConsumerId) :
    HandlesSessions b (passWith nested h b cs).1 ∧
      ∀ d ∈ cs, b.IsOver d → d ∈ (passWith nested h b cs).2 := by
  induction cs generalizing b with
  | nil => exact ⟨.refl hb, fun d hd => nomatch hd⟩
  | cons c cs ih =>
    obtain ⟨x1, hgone⟩ := informWith_handlesSessions hn hm hs hp hb c held
    have m := (informWith_moves hm hp c held).tail (.inform c h (b.informWith nested c h).2)
    have x2 := x1.trans hb (note_handlesSessions (e := .informed c h (b.informWith nested c h).2)
      x1.tallies rfl rfl)
    obtain ⟨x3, hrest⟩ := ih (Moves.sound m hs) (Moves.plans m hp) x2.tallies
      (((Moves.frame m).isHubHeld h).trans held)
    refine ⟨x2.trans hb x3, fun d hd ho => ?_⟩
    show d ∈ if (b.informWith nested c h).2 then _ else _
    rcases List.mem_cons.1 hd with rfl | hd
    · rw [hgone ho]
      exact List.mem_cons_self
    · have hmem := hrest d hd (x2.isOver hb (.inl ho))
      split
      · exact hmem
      · exact List.mem_cons_of_mem c hmem

/-- **All consumers of a hub are told**, and no session that was over remains. -/
theorem notifyWith_handlesSessions (hs : Sound b) (hp : PlansWithin Plain b)
    (hb : b.TalliesSessions 0 0) {h : HubId}
    (held : b.isHubHeld h = true) : HandlesSessions b (b.notifyWith nested h) ∧
      ∀ c, b.IsOver c → c ∉ ((b.notifyWith nested h).hub h).consumers := by
  obtain ⟨x, hgone⟩ := passWith_handlesSessions hn hm hs hp hb held (b.hub h).consumers
  have hleave : ∀ d ∈ (((passWith nested h b (b.hub h).consumers).1.hub h).unsubscribeAll
      (passWith nested h b (b.hub h).consumers).2).consumers,
      d ∈ ((passWith nested h b (b.hub h).consumers).1.hub h).consumers ∧
        d ∉ (passWith nested h b (b.hub h).consumers).2 := by
    intro d hd
    obtain ⟨hd, hk⟩ := List.mem_filter.1 hd
    exact ⟨hd, by simpa using hk⟩
  refine ⟨x.trans hb (narrow_handlesSessions x.tallies fun d hd => (hleave d hd).1),
    fun c ho hc => ?_⟩
  have hc' : c ∈ ((Board.modifyHub (passWith nested h b (b.hub h).consumers).1 h
    (·.unsubscribeAll (passWith nested h b (b.hub h).consumers).2)).hub h).consumers := hc
  rw [hub_modifyHub, if_pos rfl] at hc'
  obtain ⟨hstill, hnot⟩ := hleave c hc'
  -- it was subscribed when the pass began, so it was told, and did not stay
  exact hnot (hgone c (x.narrows c h ho hstill) ho)

/-- **A hub is posted and its consumers are told.** -/
theorem post_notify_handlesSessions (hs : Sound b) (hp : PlansWithin Plain b)
    (hb : b.TalliesSessions 0 0) {h : HubId} (held : b.isHubHeld h = true) (time : Timestamp) :
    HandlesSessions b ((b.post h time).notifyWith nested h) := by
  have m : Move Plain b (b.post h time) := .post h time held
  have ha := SparesSessions.post b h time
  have hover : ∀ c, (b.post h time).IsOver c ↔ b.IsOver c := fun c => by
    rw [IsOver, ha.alive, IsOver]
  obtain ⟨x, hgone⟩ := notifyWith_handlesSessions hn hm (m.sound hs) (m.plans hp) (hb.spared ha)
    ((m.frame.isHubHeld h).trans held)
  refine ⟨m.grows.trans x.grows, x.tallies, fun c k ho hc => ?_, fun c k hpub => ?_⟩
  · have := x.narrows c k ((hover c).2 ho) hc
    rwa [consumers_post] at this
  · rw [news_trans m.grows x.grows, news_post] at hpub
    rcases hpub.append with ⟨pre, s, line, post, he, ho⟩ | hpub
    · -- it is the posting itself that came after the end
      rcases List.cons_eq_append_iff.1 he with ⟨rfl, he⟩ | ⟨pre', rfl, he⟩
      · cases he
        rcases ho with ho | ho
        · exact hgone c ((hover c).2 ho)
        · cases ho
      · simp at he
    · refine x.clears c k (hpub.mono fun ho => (hover c).2 (ho.resolve_right ?_))
      simp

end Nested

theorem publishWithin_handlesSessions (depth : Nat) : HandlesSessionsBy (publishWithin depth) := by
  induction depth with
  | zero =>
    intro b h time hs hp hb held
    exact post_notify_handlesSessions (fun _ _ _ _ _ hb _ => .refl hb)
      (fun _ _ _ _ _ => .refl) hs hp hb
      held time
  | succ n ih =>
    intro b h time hs hp hb held
    exact post_notify_handlesSessions ih (publishWithin_moves Plain n) hs hp hb held time

/-- **A publication handles sessions**, however deep others are nested in it. -/
theorem publish_handlesSessions : HandlesSessionsBy publish := by
  intro b h time
  exact publishWithin_handlesSessions b.unrest b h time

end Board

end Switchboard
