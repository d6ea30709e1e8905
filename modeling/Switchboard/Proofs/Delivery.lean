import Switchboard.Proofs.Shown

/-!
# What a consumer hears of a hub

A consumer listens to a hub if it is subscribed and its receiver is there. While a hub is
published, and all that this brings about, a listener gets one message for each line. The messages
are the lines if no session ended while the listener was behind: each end had found a message for
each line so far. `DeliversLines` collects this, and joins consecutive parts of a run.

* `DeliversLines.trans`: what is heard in two parts of a run is heard in both together.
* `Moves.listens`: publications make nobody a listener.
* `Moves.unrest`: publications use up what consumers can bring about.
-/

namespace Switchboard

/-- Whether a consumer has a receiver for its messages. A session has to be open too. -/
def Consumer.isReceiving : Consumer → Bool
  | .observer _ => false
  | .channel q => q.receiving
  | .session s => s.alive && s.queue.receiving

/-- No action: consumers that have nothing planned. -/
def Unplanned (_ : Action) : Prop := False

/-! ### Lists of events -/

/-- Whether an event is the end of a session. -/
def Event.isEnd : Event → Bool
  | .ended _ => true
  | _ => false

/-- Whether an event is a line of a hub or a message about it to a consumer. -/
def Event.isAbout (c : ConsumerId) (h : HubId) : Event → Bool
  | .published k _ _ => k = h
  | .queued d k _ => d = c ∧ k = h
  | _ => false

/-- Whether no session ended. -/
def NoEnd (es : List Event) : Prop := ∀ e ∈ es, e.isEnd = false

/-- Whether neither a line of a hub nor a message about it to a consumer is among events. -/
def Silent (c : ConsumerId) (h : HubId) (es : List Event) : Prop :=
  lines h es = [] ∧ messages c h es = []

/-- **Whether no session ended while a consumer was behind** with a hub: at each end it had got a
message for each line. -/
def Calm (c : ConsumerId) (h : HubId) (es : List Event) : Prop :=
  ∀ pre s post, es = pre ++ .ended s :: post → (lines h pre).length ≤ (messages c h pre).length

/-- Whether events are silent until a session ends. -/
def SilentAtFirst (c : ConsumerId) (h : HubId) (es : List Event) : Prop :=
  ∀ pre, pre <+: es → NoEnd pre → Silent c h pre

section Events

variable {c : ConsumerId} {h : HubId} {es fs : List Event}

theorem noEnd_append : NoEnd (es ++ fs) ↔ NoEnd es ∧ NoEnd fs := List.forall_mem_append

/-- The first session end among events. -/
theorem exists_first_end (he : ¬NoEnd es) :
    ∃ pre s post, es = pre ++ .ended s :: post ∧ NoEnd pre := by
  induction es with
  | nil => exact absurd (fun e h => nomatch h) he
  | cons e es ih =>
    cases hend : e.isEnd with
    | true =>
      cases e with
      | ended s => exact ⟨[], s, es, rfl, fun e h => nomatch h⟩
      | _ => cases hend
    | false =>
      -- the first event is none, so there is one among the others
      have hrest : ¬NoEnd es := fun hn => he (List.forall_mem_cons.2 ⟨hend, hn⟩)
      obtain ⟨pre, s, post, rfl, hpre⟩ := ih hrest
      exact ⟨e :: pre, s, post, rfl, List.forall_mem_cons.2 ⟨hend, hpre⟩⟩

theorem silent_of_forall (hq : ∀ e ∈ es, e.isAbout c h = false) : Silent c h es := by
  have hl : published h es = [] := by
    refine List.filterMap_eq_nil_iff.2 fun e he => ?_
    have hn := hq e he
    cases e with
    | published k s line => simpa [Event.isAbout] using hn
    | _ => rfl
  refine ⟨by rw [lines, hl]; rfl, List.filterMap_eq_nil_iff.2 fun e he => ?_⟩
  have hn := hq e he
  cases e with
  | queued d k text =>
    simp only [Event.isAbout, decide_eq_false_iff_not] at hn
    exact if_neg hn
  | _ => rfl

theorem Silent.append (he : Silent c h es) (hf : Silent c h fs) : Silent c h (es ++ fs) := by
  refine ⟨?_, ?_⟩
  · rw [lines_append, he.1, hf.1]
    rfl
  · rw [messages_append, he.2, hf.2]
    rfl

theorem SilentAtFirst.silent (hs : SilentAtFirst c h es) (hn : NoEnd es) : Silent c h es :=
  hs es List.prefix_rfl hn

theorem SilentAtFirst.append (he : SilentAtFirst c h es) (hf : SilentAtFirst c h fs) :
    SilentAtFirst c h (es ++ fs) := by
  intro pre hp hn
  rcases List.prefix_or_prefix_of_prefix hp (List.prefix_append es fs) with hp' | ⟨rest, rfl⟩
  · exact he pre hp' hn
  · rw [noEnd_append] at hn
    exact (he.silent hn.1).append (hf rest ((List.prefix_append_right_inj es).1 hp) hn.2)

theorem silentAtFirst_of_silent (hq : ∀ e ∈ es, e.isAbout c h = false) : SilentAtFirst c h es :=
  fun _ hp _ => silent_of_forall fun e he => hq e (hp.subset he)

theorem silentAtFirst_ended (s : ConsumerId) (es : List Event) :
    SilentAtFirst c h (.ended s :: es) := by
  intro pre hp hn
  cases pre with
  | nil => exact ⟨rfl, rfl⟩
  | cons e pre =>
    have he := (List.cons_prefix_cons.1 hp).1
    have hend := hn e List.mem_cons_self
    rw [he] at hend
    cases hend

theorem calm_of_noEnd (hn : NoEnd es) : Calm c h es := by
  rintro pre s post rfl
  have := hn (.ended s) (List.mem_append_right _ List.mem_cons_self)
  cases this

theorem Calm.left (hc : Calm c h (es ++ fs)) : Calm c h es := by
  rintro pre s post rfl
  exact hc pre s (post ++ fs) (by rw [List.append_assoc, List.cons_append])

theorem Calm.right (hb : (messages c h es).length ≤ (lines h es).length)
    (hc : Calm c h (es ++ fs)) : Calm c h fs := by
  rintro pre s post rfl
  have hl := hc (es ++ pre) s post (List.append_assoc _ _ _).symm
  rw [lines_append, messages_append, List.length_append, List.length_append] at hl
  omega

theorem Calm.append (hb : (lines h es).length ≤ (messages c h es).length) (he : Calm c h es)
    (hf : Calm c h fs) : Calm c h (es ++ fs) := by
  intro pre s post hs
  -- the end is among the later events, or among the earlier ones
  rcases List.append_eq_append_iff.1 hs with ⟨rest, rfl, hr⟩ | ⟨rest, rfl, hr⟩
  · have hl := hf rest s post hr
    rw [lines_append, messages_append, List.length_append, List.length_append]
    omega
  · cases rest with
    | nil =>
      rw [List.append_nil] at hb
      exact hb
    | cons e rest =>
      obtain ⟨rfl, -⟩ := List.cons.inj hr
      exact he pre s rest rfl

end Events

namespace Board

variable {b b' b'' : Board} {c : ConsumerId} {h : HubId}

/-! ### Listeners -/

/-- Whether a consumer is subscribed to a hub and has a receiver. -/
def Listens (b : Board) (c : ConsumerId) (h : HubId) : Prop :=
  c ∈ (b.hub h).consumers ∧ (b.consumer c).isReceiving = true

instance (b : Board) (c : ConsumerId) (h : HubId) : Decidable (b.Listens c h) :=
  inferInstanceAs (Decidable (_ ∧ _))

theorem isReceiving_withQueue {x : Consumer} {q r : Queue} (hq : x.queue? = some q)
    (hr : r.receiving = q.receiving) : (x.withQueue r).isReceiving = x.isReceiving := by
  cases x with
  | observer o => cases hq
  | channel q =>
    cases hq
    exact hr
  | session s =>
    cases hq
    show (s.alive && r.receiving) = (s.alive && s.queue.receiving)
    rw [hr]

theorem Listens.of_setConsumer {d : ConsumerId} {x : Consumer}
    (hx : x.isReceiving = true → (b.consumer d).isReceiving = true)
    (hl : (b.setConsumer d x).Listens c h) : b.Listens c h := by
  refine ⟨hl.1, ?_⟩
  have hr := hl.2
  rw [consumer_setConsumer] at hr
  split at hr
  · rename_i hd
    rw [← hd]
    exact hx hr
  · exact hr

/-- A hub whose subscribers become fewer gives no hub a new one. -/
theorem mem_consumers_of_modifyHub {k : HubId} {f : Hub → Hub}
    (hf : ∀ d ∈ (f (b.hub k)).consumers, d ∈ (b.hub k).consumers)
    (hm : c ∈ ((b.modifyHub k f).hub h).consumers) : c ∈ (b.hub h).consumers := by
  rw [hub_modifyHub] at hm
  split at hm
  · rename_i hk
    rw [← hk]
    exact hf c hm
  · exact hm

theorem Listens.of_modifyHub {k : HubId} {f : Hub → Hub}
    (hf : ∀ d ∈ (f (b.hub k)).consumers, d ∈ (b.hub k).consumers)
    (hl : (b.modifyHub k f).Listens c h) : b.Listens c h :=
  ⟨mem_consumers_of_modifyHub hf hl.1, hl.2⟩

/-- **Publications make nobody a listener** if nothing is planned. -/
theorem Move.listens (m : Move Unplanned b b') (hl : b'.Listens c h) : b.Listens c h := by
  cases m with
  | post k time _ =>
    refine ⟨?_, ?_⟩
    · have hm := hl.1
      rwa [consumers_post] at hm
    · have hr := hl.2
      rwa [consumer_post] at hr
  | formatted k _ =>
    refine ⟨?_, ?_⟩
    · have hm := hl.1
      rwa [consumers_formatted] at hm
    · have hr := hl.2
      rwa [consumer_formatted] at hr
  | json k _ =>
    refine ⟨?_, ?_⟩
    · have hm := hl.1
      rwa [consumers_json] at hm
    · have hr := hl.2
      rwa [consumer_json] at hr
  | subscribe _ _ k d planned _ => exact planned.elim
  | unsubscribe _ _ k d planned _ => exact planned.elim
  | leave k gone _ => exact hl.of_modifyHub fun d hd => (List.mem_filter.1 hd).1
  | call d o text _ => exact hl.of_setConsumer fun hx => Bool.noConfusion hx
  | queue d q r k text is offered =>
    have hr : r.receiving = q.receiving := by
      have := receiving_offer q text
      rwa [offered] at this
    refine Listens.of_setConsumer (d := d) (x := (b.consumer d).withQueue r) (fun hx => ?_) hl
    rwa [isReceiving_withQueue is hr] at hx
  | finish d s is alive =>
    exact Listens.of_setConsumer (d := d) (x := .session { s with alive := false })
      (fun hx => Bool.noConfusion hx) hl
  | _ => exact hl

theorem Moves.listens (m : Moves Unplanned b b') (hl : b'.Listens c h) : b.Listens c h := by
  induction m with
  | refl => exact hl
  | tail _ m ih => exact ih (m.listens hl)

/-! ### What is heard -/

/-- **What a listener hears of a hub** between two boards: a message for each line, and the lines
themselves if no session ended while it was behind. If the hub shows the number of open
connections, this is the only way to hear them. -/
structure MessagesMatch (c : ConsumerId) (h : HubId) (b b' : Board) : Prop where
  balanced : (messages c h (news b b')).length = (lines h (news b b')).length
  aligned : (b.IsExposed h → Calm c h (news b b')) →
    messages c h (news b b') = (lines h (news b b')).map (b.hub h).wrap
  exact : b.ShowsCount h → InWord b.connectionCount → InWord b'.connectionCount →
    messages c h (news b b') = (lines h (news b b')).map (b.hub h).wrap → Calm c h (news b b')

/-- A part of a run in which a listener hears what is published. -/
structure DeliversLines (c : ConsumerId) (h : HubId) (b b' : Board) : Prop where
  outline : Outline b b'
  grows : b.events <+: b'.events
  listens : b'.Listens c h → b.Listens c h
  count : b'.connectionCount ≤ b.connectionCount
  matched : b'.Listens c h → .lost c h ∉ news b b' → MessagesMatch c h b b'

/-- Without a line and a message there is nothing to hear. -/
theorem messagesMatch_of_silent (hs : Silent c h (news b b')) (hc : Calm c h (news b b')) :
    MessagesMatch c h b b' := by
  obtain ⟨hl, hm⟩ := hs
  refine ⟨?_, fun _ => ?_, fun _ _ _ _ => hc⟩
  · rw [hl, hm]
  · rw [hl, hm]
    rfl

/-- **What is heard in two parts of a run is heard in both together.** -/
theorem DeliversLines.trans (x : DeliversLines c h b b') (x' : DeliversLines c h b' b'') :
    DeliversLines c h b b'' where
  outline := x.outline.trans x'.outline
  grows := x.grows.trans x'.grows
  listens hl := x.listens (x'.listens hl)
  count := Int.le_trans x'.count x.count
  matched hl hn := by
    rw [news_trans x.grows x'.grows, List.mem_append, not_or] at hn
    have y := x.matched (x'.listens hl) hn.1
    have y' := x'.matched hl hn.2
    have hw := x.outline.wrap h
    have hlen := y.balanced
    constructor
    case balanced =>
      rw [news_trans x.grows x'.grows, messages_append, lines_append, List.length_append,
        List.length_append, hlen, y'.balanced]
    case aligned =>
      intro hc
      rw [news_trans x.grows x'.grows] at hc ⊢
      have h1 := y.aligned fun hx => (hc hx).left
      have h2 := y'.aligned fun hx =>
        (hc ((x.outline.isExposed h).1 hx)).right (Nat.le_of_eq hlen)
      rw [messages_append, lines_append, List.map_append, h1, h2, hw]
    case exact =>
      intro hs hfrom hto he
      rw [news_trans x.grows x'.grows] at he ⊢
      rw [messages_append, lines_append, List.map_append] at he
      obtain ⟨h1, h2⟩ := List.append_inj he (by rw [List.length_map, hlen])
      -- the number in between lies between the two
      have hmid : InWord b'.connectionCount :=
        ⟨Int.le_trans hto.1 x'.count, Int.lt_of_le_of_lt x.count hfrom.2⟩
      have hc1 := y.exact hs hfrom hmid h1
      have hc2 := y'.exact ((x.outline.showsCount h).2 hs) hmid hto (by rw [hw]; exact h2)
      exact hc1.append (Nat.le_of_eq hlen.symm) hc2

protected theorem DeliversLines.refl (c : ConsumerId) (h : HubId) (b : Board) :
    DeliversLines c h b b where
  outline := .refl b
  grows := List.prefix_rfl
  listens hl := hl
  count := Int.le_refl _
  matched _ _ := by
    refine messagesMatch_of_silent ?_ ?_ <;> rw [news_self]
    · exact ⟨rfl, rfl⟩
    · exact calm_of_noEnd fun e he => nomatch he

/-! ### What consumers can bring about -/

theorem unrest_putCell (x : Consumer) (i : Nat) (xs : List Consumer) :
    (Store.putCell x i xs).foldr (fun x n => x.unrest + n) 0 + (xs.getD i default).unrest =
      xs.foldr (fun x n => x.unrest + n) 0 + x.unrest := by
  have hdefault : (default : Consumer).unrest = 0 := rfl
  induction i generalizing xs with
  | zero =>
    cases xs with
    | nil =>
      rw [Store.putCell, List.getD_nil, hdefault]
      simp
    | cons y ys =>
      simp only [Store.putCell, List.foldr_cons, List.getD_cons_zero]
      omega
  | succ i ih =>
    cases xs with
    | nil =>
      have hi := ih []
      rw [List.getD_nil, hdefault] at hi ⊢
      rw [Store.putCell, List.foldr_cons, hdefault, Nat.zero_add]
      exact hi
    | cons y ys =>
      have hi := ih ys
      simp only [Store.putCell, List.foldr_cons, List.getD_cons_succ] at hi ⊢
      omega

/-- A consumer counts once in the unrest of a board. -/
theorem unrest_setConsumer (b : Board) (c : ConsumerId) (x : Consumer) :
    (b.setConsumer c x).unrest + (b.consumer c).unrest = b.unrest + x.unrest :=
  unrest_putCell x c.index b.consumers.cells

/-- **A session that ends uses up its end.** -/
theorem unrest_ended {s : Session} (is : b.consumer c = .session s) (alive : s.alive = true) :
    ((b.setConsumer c (.session { s with alive := false })).note (.ended c)).unrest + 1 =
      b.unrest := by
  have hs := b.unrest_setConsumer c (.session { s with alive := false })
  have hold : (b.consumer c).unrest = 1 := by
    rw [is, Consumer.unrest, if_pos alive]
  have hnew : (Consumer.session { s with alive := false }).unrest = 0 := rfl
  rw [hold, hnew] at hs
  exact hs

theorem unrest_congr (hc : b'.consumers = b.consumers) : b'.unrest = b.unrest := by
  unfold unrest
  rw [hc]

theorem unrest_post (b : Board) (k : HubId) (time : Timestamp) :
    (b.post k time).unrest = b.unrest := by
  refine unrest_congr ?_
  show ((b.stamp k time).log k _).consumers = b.consumers
  unfold log
  split <;> rfl

theorem unrest_formatted (b : Board) (k : HubId) : (b.formatted k).1.unrest = b.unrest := by
  rcases b.formatted_fst k with e | ⟨-, -, e⟩ <;> rw [e]
  rfl

theorem unrest_json (b : Board) (k : HubId) : (b.json k).1.unrest = b.unrest := by
  rcases b.json_fst k with e | ⟨-, -, e⟩ <;> rw [e]
  exact unrest_formatted b k

/-- **Publications use up what consumers can bring about.** -/
theorem Move.unrest {A : Action → Prop} (m : Move A b b') : b'.unrest ≤ b.unrest := by
  cases m with
  | post k time _ => exact Nat.le_of_eq (unrest_post b k time)
  | formatted k _ => exact Nat.le_of_eq (unrest_formatted b k)
  | json k _ => exact Nat.le_of_eq (unrest_json b k)
  | call d o text is =>
    have hs := b.unrest_setConsumer d (.observer (o.called text))
    have hle : (o.called text).planned.length ≤ o.planned.length := List.length_filter_le _ _
    rw [is] at hs
    change _ + o.planned.length = _ + (o.called text).planned.length at hs
    omega
  | queue d q r k text is offered =>
    have hs := b.unrest_setConsumer d ((b.consumer d).withQueue r)
    have he : ((b.consumer d).withQueue r).unrest = (b.consumer d).unrest := by
      unfold Consumer.withQueue
      cases b.consumer d <;> rfl
    change (b.setConsumer d ((b.consumer d).withQueue r)).unrest ≤ _
    omega
  | finish d s is alive =>
    have := unrest_ended is alive
    omega
  | _ => exact Nat.le_refl _

theorem Moves.unrest {A : Action → Prop} (m : Moves A b b') : b'.unrest ≤ b.unrest := by
  induction m with
  | refl => exact Nat.le_refl _
  | tail _ m ih => exact Nat.le_trans m.unrest ih

end Board

end Switchboard
