import Switchboard.Proofs.Coherence
import Switchboard.Proofs.Counter

/-!
# The pass over the subscribers of a hub

A hub that is published tells the consumers that are subscribed when it begins. What it is told may
make a consumer subscribe and unsubscribe others, or itself. That changes the list of subscribers,
and not who is told. At the end those that do not stay leave the list as it is by then.

* `Discreet`: what brings about no publication of a hub does not tell anybody of it.
* `calls_passWith`: everyone on the list is told once, in order.
* `light_passWith`: what is left of a pass over consumers that only change subscriptions.
* `notification_pass`: the publication of a hub, as its subscribers see it.
-/

namespace Switchboard

/-- Whether an action changes who is subscribed, and nothing else. -/
def Action.isSubscription : Action → Bool
  | .subscribe .. | .unsubscribe .. => true
  | _ => false

namespace Consumer

/-- What a consumer does when it is told of a publication now. -/
def due : Consumer → List Action
  | .observer o => o.due
  | _ => []

/-- Whether a consumer stays subscribed when it is told of a publication now. -/
def stays : Consumer → Bool
  | .observer o => o.answer
  | .channel q => q.receiving
  | .session s => s.alive && s.queue.receiving

/-- Whether a consumer only changes who is subscribed when it is told of a publication now. -/
def onlySubscribes : Consumer → Bool
  | .observer o => o.due.all Action.isSubscription
  | .channel _ => true
  | .session s => !s.alive || s.queue.receiving

end Consumer

theorem calls_one (h : HubId) (c : ConsumerId) (k : HubId) (stays : Bool) :
    calls h [.informed c k stays] = if k = h then [c] else [] := by
  unfold calls
  split
  · rename_i hk
    simp [hk]
  · rename_i hk
    simp [hk]

namespace Board

variable {b b' b'' : Board} {h : HubId}

/-! ### One call after the other -/

section Tell

variable (nested : Board → HubId → Timestamp → Board)

/-- The board after a consumer was told of a hub and its answer was noted. -/
def tellWith (h : HubId) (b : Board) (c : ConsumerId) : Board :=
  (b.informWith nested c h).1.note (.informed c h (b.informWith nested c h).2)

theorem events_tellWith (b : Board) (c : ConsumerId) : (b.tellWith nested h c).events =
    (b.informWith nested c h).1.events ++ [.informed c h (b.informWith nested c h).2] :=
  events_note _ _

theorem passWith_cons (b : Board) (c : ConsumerId) (cs : List ConsumerId) :
    passWith nested h b (c :: cs) = ((passWith nested h (b.tellWith nested h c) cs).1,
      if (b.informWith nested c h).2 then (passWith nested h (b.tellWith nested h c) cs).2
      else c :: (passWith nested h (b.tellWith nested h c) cs).2) := rfl

end Tell

/-! ### Nobody is told of a hub that is not published -/

/-- Whether nobody was told of a hub in between, unless it published something. -/
def Discreet (h : HubId) (b b' : Board) : Prop :=
  ∃ es, b'.events = b.events ++ es ∧ (published h es = [] → calls h es = [])

theorem Discreet.of_events (he : b'.events = b.events) : Discreet h b b' :=
  ⟨[], he.trans (List.append_nil _).symm, fun _ => rfl⟩

theorem Discreet.trans (d : Discreet h b b') (d' : Discreet h b' b'') : Discreet h b b'' := by
  obtain ⟨es, he, hq⟩ := d
  obtain ⟨fs, hf, hr⟩ := d'
  refine ⟨es ++ fs, by rw [hf, he, List.append_assoc], fun hp => ?_⟩
  rw [published_append, List.append_eq_nil_iff] at hp
  rw [calls_append, hq hp.1, hr hp.2]
  rfl

theorem Discreet.note (b : Board) {e : Event} (he : calls h [e] = []) : Discreet h b (b.note e) :=
  ⟨[e], events_note b e, fun _ => he⟩

theorem Discreet.grows (d : Discreet h b b') : b.events <+: b'.events := by
  obtain ⟨es, he, -⟩ := d
  exact ⟨es, he.symm⟩

theorem Discreet.calls (d : Discreet h b b') (hp : published h (news b b') = []) :
    calls h (news b b') = [] := by
  obtain ⟨es, he, hq⟩ := d
  rw [news_of_events he] at hp ⊢
  exact hq hp

theorem discreet_post (b : Board) (k : HubId) (time : Timestamp) : Discreet h b (b.post k time) :=
  ⟨_, events_post b k time, fun _ => rfl⟩

theorem discreet_json (b : Board) (k : HubId) : Discreet h b (b.json k).1 :=
  .of_events (events_of_journal_eq (journal_json b k))

theorem discreet_noteOf (b : Board) (k : HubId) (noted : Noted) :
    Discreet h b (b.noteOf k noted).1 := by
  cases noted with
  | wrapped => exact discreet_json b k
  | text => exact .of_events (events_of_journal_eq (journal_formatted b k))
  | id => exact .of_events rfl

theorem discreet_offer (b : Board) (c : ConsumerId) (q : Queue) (k : HubId) :
    Discreet h b (b.offer c q k).1 := by
  rcases offer_cases b c q k with ⟨r, -, he⟩ | ⟨r, -, he⟩ | ⟨r, -, he⟩ <;> rw [he]
  · exact (discreet_json b k).trans (.note _ rfl)
  · exact (discreet_json b k).trans (.note _ rfl)
  · exact discreet_json b k

section Inform

variable {nested : Board → HubId → Timestamp → Board}

/-- `nested` tells nobody of a hub that it does not publish. -/
def DiscreetBy (h : HubId) (nested : Board → HubId → Timestamp → Board) : Prop :=
  ∀ b k time, Discreet h b (nested b k time)

variable (hn : DiscreetBy h nested)
include hn

theorem discreet_countWith (b : Board) (l : LeafId) (steps : Int) :
    Discreet h b (b.countWith nested l steps).1 := by
  rcases b.countWith_cases l steps with ⟨n, -, eq⟩ | ⟨m, -, eq⟩ | eq
  · rw [eq]
    rcases refresh_cases _ l with ⟨k, -, -, eq'⟩ | eq'
    · rw [eq']
      exact Discreet.trans (.of_events rfl) (hn _ k _)
    · rw [eq']
      exact .of_events rfl
  · rw [eq]
    exact .of_events rfl
  · rw [eq]
    exact .of_events rfl

theorem discreet_closeWith (b : Board) (c : ConsumerId) : Discreet h b (b.closeWith nested c) := by
  rcases b.closeWith_cases c with ⟨s, -, -, eq⟩ | eq
  · rw [eq]
    exact Discreet.trans (.of_events rfl) ((Discreet.note _ rfl).trans (discreet_countWith hn _ _ _))
  · rw [eq]
    exact .of_events rfl

theorem discreet_act (b : Board) (a : Action) : Discreet h b (b.act nested a) := by
  cases b.deed a with
  | idle _ eq =>
    rw [eq]
    exact .of_events rfl
  | subscribe _ _ k c _ eq | unsubscribe _ _ k c _ eq =>
    rw [eq]
    exact .of_events rfl
  | update hub k _ eq =>
    rw [eq]
    exact hn b k _
  | set leaf v x _ eq =>
    rw [eq]
    exact .of_events rfl
  | increment leaf l eq | decrement leaf l eq =>
    rw [eq]
    exact discreet_countWith hn b l _

theorem discreet_foldl_act (b : Board) (as : List Action) :
    Discreet h b (as.foldl (act nested) b) := by
  induction as generalizing b with
  | nil => exact .of_events rfl
  | cons a as ih => exact (discreet_act hn b a).trans (ih (b.act nested a))

/-- To tell a consumer of some hub, apart from the note that it was told. -/
theorem discreet_informWith (b : Board) (c : ConsumerId) (k : HubId) :
    Discreet h b (b.informWith nested c k).1 := by
  unfold informWith
  split
  · exact (discreet_noteOf b k _).trans (Discreet.trans (.of_events rfl) (discreet_foldl_act hn _ _))
  · rename_i q _
    have ho := discreet_offer (h := h) b c q k
    split <;> rename_i he <;> rw [he] at ho <;> exact ho
  · rename_i s _
    split
    · have ho := discreet_offer (h := h) b c s.queue k
      split <;> rename_i he <;> rw [he] at ho
      · exact ho.trans (discreet_countWith hn _ _ _)
      · exact ho
      · exact ho.trans (discreet_closeWith hn _ c)
    · exact .of_events rfl

theorem grows_passWith (k : HubId) (b : Board) (cs : List ConsumerId) :
    b.events <+: (passWith nested k b cs).1.events := by
  induction cs generalizing b with
  | nil => exact List.prefix_rfl
  | cons c cs ih =>
    have htell : b.events <+: (b.tellWith nested k c).events := by
      rw [events_tellWith]
      exact (discreet_informWith hn b c k).grows.trans (List.prefix_append _ _)
    exact htell.trans (ih (b.tellWith nested k c))

/-- A pass over the subscribers of another hub. -/
theorem discreet_passWith {k : HubId} (hk : k ≠ h) (b : Board) (cs : List ConsumerId) :
    Discreet h b (passWith nested k b cs).1 := by
  induction cs generalizing b with
  | nil => exact .of_events rfl
  | cons c cs ih =>
    have hnote := (calls_one h c k (b.informWith nested c k).2).trans (if_neg hk)
    exact (discreet_informWith hn b c k).trans ((Discreet.note _ hnote).trans (ih _))

/-- The publication of any hub: either it is this one, or nobody is told of this one by itself. -/
theorem discreet_notify (b : Board) (k : HubId) (time : Timestamp) :
    Discreet h b ((b.post k time).notifyWith nested k) := by
  by_cases hk : k = h
  · obtain ⟨es, he⟩ := grows_passWith hn k (b.post k time) ((b.post k time).hub k).consumers
    refine ⟨.published k (b.posted k time) (b.postedLine k time) :: es, ?_, fun hp => ?_⟩
    · show (passWith nested k _ _).1.events = _
      rw [← he, events_post, List.append_assoc]
      rfl
    · rw [← List.singleton_append, published_append, published_one, if_pos hk] at hp
      cases hp
  · exact (discreet_post b k time).trans ((discreet_passWith hn hk _ _).trans (.of_events rfl))

/-- **Everyone on the list is told once, in order**, if the hub is not published meanwhile. The
pass gives those that answered that they do not stay. -/
theorem calls_passWith {b : Board} {cs : List ConsumerId}
    (hp : published h (news b (passWith nested h b cs).1) = []) :
    calls h (news b (passWith nested h b cs).1) = cs ∧
      ∀ c, c ∈ (passWith nested h b cs).2 ↔
        Event.informed c h false ∈ news b (passWith nested h b cs).1 := by
  induction cs generalizing b with
  | nil => simp [passWith, calls]
  | cons d cs ih =>
    have hd := discreet_informWith hn b d h
    have hrest := grows_passWith hn h (b.tellWith nested h d) cs
    rw [passWith_cons] at hp ⊢
    -- what the consumer brings about, the note of its answer, and the rest of the pass
    have hnews : news b (passWith nested h (b.tellWith nested h d) cs).1 =
        news b (b.informWith nested d h).1 ++ (.informed d h (b.informWith nested d h).2 ::
          news (b.tellWith nested h d) (passWith nested h (b.tellWith nested h d) cs).1) := by
      refine news_of_events ?_
      rw [events_eq_news hrest, events_tellWith, events_eq_news hd.grows]
      simp only [List.append_assoc, List.cons_append, List.nil_append]
    dsimp only at hp ⊢
    rw [hnews, ← List.singleton_append, published_append, published_append,
      List.append_eq_nil_iff, List.append_eq_nil_iff] at hp
    obtain ⟨hcalls, hgone⟩ := ih hp.2.2
    have hnone := hd.calls hp.1
    refine ⟨?_, fun c => ?_⟩
    · rw [hnews, calls_append, hnone, List.nil_append, ← List.singleton_append, calls_append, hcalls]
      rw [calls_one, if_pos rfl, List.singleton_append]
    · have hfirst : Event.informed c h false ∉ news b (b.informWith nested d h).1 := by
        intro hc
        have := mem_calls.2 ⟨false, hc⟩
        rw [hnone] at this
        cases this
      rw [hnews, List.mem_append, or_iff_right hfirst, List.mem_cons, ← hgone]
      cases (b.informWith nested d h).2 <;> simp

end Inform

theorem publishWithin_discreet (h : HubId) (depth : Nat) : DiscreetBy h (publishWithin depth) := by
  induction depth with
  | zero => exact discreet_notify fun _ _ _ => .of_events rfl
  | succ n ih => exact discreet_notify ih

theorem publish_discreet (h : HubId) : DiscreetBy h publish :=
  fun b => publishWithin_discreet h b.unrest b

/-! ### What can be read during a pass -/

/-- Whether a hub shows a snapshot and its line to those who read it. -/
structure Displays (b : Board) (h : HubId) (s : Snapshot) (line : String) : Prop where
  snapshot : (b.hub h).snapshot = some s
  formatted : (b.formatted h).2 = line
  json : (b.json h).2 = (b.hub h).wrap line

/-- Whether a hub that is rendered anew each time still renders what it was posted with. -/
def KeepsValues (b b' : Board) (h : HubId) : Prop :=
  (b.hub h).isVolatile = true →
    ∀ l ∈ (b.hub h).table.leaves, (b'.leaf l).values = (b.leaf l).values

/-- **A hub shows what it was posted with** until it is published again. -/
theorem displays_posted (hb : Reachable b) (held : b.isHubHeld h = true) {time : Timestamp}
    (hm : Moves (fun _ => True) (b.post h time) b')
    (quiet : published h (news (b.post h time) b') = []) (hv : KeepsValues (b.post h time) b' h) :
    Displays b' h (b.posted h time) (b.postedLine h time) := by
  have hpost : Move (fun _ => True) b (b.post h time) := .post h time held
  have hall : Moves (fun _ => True) b b' := (Relation.ReflTransGen.single hpost).trans hm
  have hframe := Moves.frame hall
  have hnews : published h (news b b') = [(b.posted h time, b.postedLine h time)] := by
    rw [news_trans hpost.grows (Moves.grows hm), news_post, published_append, quiet, published_one,
      if_pos rfl, List.append_nil]
  obtain ⟨s, hs, htext, hlast⟩ := ((Moves.changes (E := fun _ => True) hall).settled hb.sound
    (hb.sound.held h held)).kept (hframe.hub h).table (by rw [hnews]; exact nofun)
  rw [hnews] at hlast
  obtain ⟨rfl, hline⟩ := Prod.mk.inj (Option.some.inj hlast)
  have hformatted : (b'.formatted h).2 = b.postedLine h time := by
    rw [formatted_snd]
    split
    · rename_i hvol
      -- the leaves have the values that they had when the hub was posted
      have hpf := Frame.post b h time
      have hslotted : ((b.stamp h time).hub h).table.IsSlotted := hb.sound.slotted h
      refine render_capture_congr hslotted (hframe.hub h).table (fun l hl => ?_) time b'.wall
      rw [← leaf_post]
      refine ⟨((Moves.frame hm).leaf l).isArray, hv ?_ l ?_⟩
      · rw [(hpf.hub h).isVolatile, ← (hframe.hub h).isVolatile]
        exact hvol
      · rw [(hpf.hub h).table]
        exact hl
    · rw [htext]
      exact hline.symm
  refine ⟨hs, hformatted, ?_⟩
  obtain ⟨settings, wall, disk, ops, hdisk, rfl⟩ := hb
  have hstart := sound_start settings wall disk hdisk
  have hc := (run_changes hstart ops).trans (Moves.changes (E := fun _ => True) hall)
  have hh := ChangesBy.holdsTexts hc hstart (holdsTexts_start settings wall disk h)
  rw [hh.json_snd, hformatted]

/-! ### Consumers that only change subscriptions -/

/-- The consumer that an action on a hub is about, if both labels lead somewhere. -/
def labelled? (b : Board) (h : HubId) (hub consumer : String) : Option ConsumerId :=
  if b.labels.hubs.get? hub = some h then
    ((b.labels.consumers.get? consumer).filter (·.held)).map (·.consumer)
  else none

/-- The subscribers of a hub after an action, where labels lead to what they lead to on `b`. -/
def resubscribe (b : Board) (h : HubId) (cs : List ConsumerId) : Action → List ConsumerId
  | .subscribe hub consumer =>
    match b.labelled? h hub consumer with
    | some c => if cs.contains c then cs else cs ++ [c]
    | none => cs
  | .unsubscribe hub consumer =>
    match b.labelled? h hub consumer with
    | some c => cs.filter (· ≠ c)
    | none => cs
  | _ => cs

theorem resubscribe_congr (hl : b'.labels = b.labels) : b'.resubscribe h = b.resubscribe h := by
  funext cs a
  unfold resubscribe labelled?
  rw [hl]

/-- **What is left when some consumers were told** who only change subscriptions: leaves have their
values and hubs their texts, nothing was published, and the subscribers of a hub are what the
actions make of them. -/
structure Light (h : HubId) (cs : List ConsumerId) (as : List Action) (b b' : Board) : Prop where
  frame : Frame b b'
  consumer : ∀ c, c ∉ cs → b'.consumer c = b.consumer c
  values : ∀ l, (b'.leaf l).values = (b.leaf l).values
  texts : ∀ k, (b'.hub k).texts = (b.hub k).texts
  subscribers : (b'.hub h).consumers = as.foldl (b.resubscribe h) (b.hub h).consumers
  events : ∃ es, b'.events = b.events ++ es ∧ ∀ k, published k es = []

section Light

variable {cs ds : List ConsumerId} {as as' : List Action}

protected theorem Light.refl (h : HubId) (cs : List ConsumerId) (b : Board) : Light h cs [] b b where
  frame := .refl b
  consumer _ _ := rfl
  values _ := rfl
  texts _ := rfl
  subscribers := rfl
  events := ⟨[], (List.append_nil _).symm, fun _ => rfl⟩

theorem Light.trans (x : Light h cs as b b') (y : Light h ds as' b' b'') :
    Light h (cs ++ ds) (as ++ as') b b'' where
  frame := x.frame.trans y.frame
  consumer c hc := by
    rw [List.mem_append, not_or] at hc
    exact (y.consumer c hc.2).trans (x.consumer c hc.1)
  values l := (y.values l).trans (x.values l)
  texts k := (y.texts k).trans (x.texts k)
  subscribers := by
    rw [y.subscribers, x.subscribers, resubscribe_congr x.frame.labels, List.foldl_append]
  events := by
    obtain ⟨es, he, hq⟩ := x.events
    obtain ⟨fs, hf, hr⟩ := y.events
    refine ⟨es ++ fs, by rw [hf, he, List.append_assoc], fun k => ?_⟩
    rw [published_append, hq, hr]
    rfl

/-- Several steps of one consumer. -/
theorem Light.and {c : ConsumerId} (x : Light h [c] as b b') (y : Light h [c] as' b' b'') :
    Light h [c] (as ++ as') b b'' :=
  { x.trans y with consumer := fun d hd => (x.trans y).consumer d (by simpa using hd) }

theorem Light.fresh (x : Light h cs as b b') {k : HubId} (hf : b.Fresh k) : b'.Fresh k := by
  have ht := x.texts k
  rw [Hub.texts, Hub.texts, Prod.mk.injEq, Prod.mk.injEq] at ht
  rw [Fresh, (x.frame.hub k).isVolatile, ht.1, ht.2.1]
  exact hf

theorem Light.quiet (x : Light h cs as b b') (k : HubId) : published k (news b b') = [] := by
  obtain ⟨es, he, hq⟩ := x.events
  rw [news_of_events he]
  exact hq k

theorem light_setConsumer (b : Board) (c : ConsumerId) (x : Consumer) :
    Light h [c] [] b (b.setConsumer c x) := by
  refine { Light.refl h [c] b with frame := Frame.setConsumer b c x, consumer := fun d hd => ?_ }
  rw [consumer_setConsumer, if_neg]
  rintro rfl
  exact hd List.mem_cons_self

theorem light_note (b : Board) (c : ConsumerId) {e : Event} (he : e.publication? = none) :
    Light h [c] [] b (b.note e) := by
  refine { Light.refl h [c] b with frame := Frame.note b e, events := ?_ }
  exact ⟨[e], events_note b e, fun k => published_of_quiet k (List.forall_mem_singleton.2 he)⟩

/-- A hub that is changed in its subscribers only. -/
theorem light_modifyHub (c : ConsumerId) {k : HubId} {f : Hub → Hub}
    (hf : ∀ x, f x = { x with consumers := (f x).consumers })
    (hs : k = h → (f (b.hub h)).consumers = as.foldl (b.resubscribe h) (b.hub h).consumers)
    (hn : k ≠ h → as.foldl (b.resubscribe h) (b.hub h).consumers = (b.hub h).consumers) :
    Light h [c] as b (b.modifyHub k f) := by
  refine { Light.refl h [c] b with frame := ?_, texts := fun j => ?_, subscribers := ?_ }
  · refine Frame.modifyHub b ?_
    rw [hf]
    exact ⟨rfl, rfl, rfl, rfl⟩
  · refine texts_modifyHub ?_ j
    rw [hf]
    rfl
  · rw [hub_modifyHub]
    split
    · rename_i hk
      rw [hk, hs hk]
    · rename_i hk
      exact (hn hk).symm

/-- An action on a hub and a consumer changes the hub that it is about, if there is any. -/
theorem labelled_cases (b : Board) (hub consumer : String) (f : Hub → ConsumerId → Hub) :
    let b' := match b.labels.hubs.get? hub, b.labels.consumers.get? consumer with
      | some k, some x => if x.held then b.modifyHub k (f · x.consumer) else b
      | _, _ => b
    (b' = b ∧ ∀ h, b.labelled? h hub consumer = none) ∨
      ∃ k c, b' = b.modifyHub k (f · c) ∧ b.labelled? k hub consumer = some c ∧
        ∀ h, k ≠ h → b.labelled? h hub consumer = none := by
  rcases b.subscription_cases hub consumer f with ⟨eq, hn⟩ | ⟨k, x, hk, hx, held, eq⟩
  · refine .inl ⟨eq, fun h => ?_⟩
    unfold labelled?
    split
    · rename_i hh
      cases hx : b.labels.consumers.get? consumer with
      | none => rfl
      | some x => simp [Option.filter, hn h x hh hx]
    · rfl
  · refine .inr ⟨k, x.consumer, eq, ?_, fun j hj => ?_⟩
    · rw [labelled?, if_pos hk, hx]
      simp [Option.filter, held]
    · rw [labelled?, if_neg fun he => hj (Option.some.inj (hk.symm.trans he))]

/-- An action on subscriptions, as the subscribers of any hub see it. -/
theorem light_act (nested : Board → HubId → Timestamp → Board) (b : Board) (c : ConsumerId)
    {a : Action} (ha : a.isSubscription = true) : Light h [c] [a] b (b.act nested a) := by
  have hskip : b.resubscribe h (b.hub h).consumers a = (b.hub h).consumers →
      Light h [c] [a] b b := fun he => { Light.refl h [c] b with subscribers := he.symm }
  cases a with
  | subscribe hub consumer =>
    rcases labelled_cases b hub consumer Hub.subscribe with ⟨he, hn⟩ | ⟨k, d, he, hd, hn⟩ <;>
      change b.act nested (.subscribe hub consumer) = _ at he <;> rw [he]
    · exact hskip (by rw [resubscribe, hn])
    · refine light_modifyHub c (fun y => ?_) (fun hk => ?_) fun hk => ?_
      · unfold Hub.subscribe
        split <;> rfl
      · rw [← hk, List.foldl_cons, List.foldl_nil, resubscribe, hd, Hub.subscribe]
        dsimp only
        split <;> rfl
      · rw [List.foldl_cons, List.foldl_nil, resubscribe, hn h hk]
  | unsubscribe hub consumer =>
    rcases labelled_cases b hub consumer Hub.unsubscribe with ⟨he, hn⟩ | ⟨k, d, he, hd, hn⟩ <;>
      change b.act nested (.unsubscribe hub consumer) = _ at he <;> rw [he]
    · exact hskip (by rw [resubscribe, hn])
    · refine light_modifyHub c (fun _ => rfl) (fun hk => ?_) fun hk => ?_
      · rw [← hk, List.foldl_cons, List.foldl_nil, resubscribe, hd]
        simp [Hub.unsubscribe, Hub.unsubscribeAll]
      · rw [List.foldl_cons, List.foldl_nil, resubscribe, hn h hk]
  | _ => cases ha

theorem light_foldl_act (nested : Board → HubId → Timestamp → Board) (c : ConsumerId)
    (has : ∀ a ∈ as, a.isSubscription = true) : Light h [c] as b (as.foldl (act nested) b) := by
  induction as generalizing b with
  | nil => exact .refl h [c] b
  | cons a as ih =>
    exact (light_act nested b c (has a List.mem_cons_self)).and
      (ih fun x hx => has x (List.mem_cons_of_mem a hx))

/-- A message is refused if nobody receives any more. -/
theorem offer_disconnected_iff (b : Board) (c : ConsumerId) (q : Queue) (h : HubId) :
    (b.offer c q h).2 = .disconnected ↔ q.receiving = false := by
  constructor
  · intro hd
    rw [← Bool.not_eq_true]
    exact fun hr => offer_ne_disconnected hr h hd
  · intro hr
    have hq : q.offer (b.json h).2 = (q, .disconnected) := by
      unfold Queue.offer
      rw [hr]
      rfl
    rcases offer_cases b c q h with ⟨r, ho, he⟩ | ⟨r, ho, he⟩ | ⟨r, ho, he⟩
    · rw [hq] at ho
      cases ho
    · rw [hq] at ho
      cases ho
    · rw [he]

theorem light_offer (b : Board) (c : ConsumerId) (q : Queue) (hf : b.Fresh h) :
    Light h [c] [] b (b.offer c q h).1 := by
  rcases offer_cases b c q h with ⟨r, -, he⟩ | ⟨r, -, he⟩ | ⟨r, -, he⟩ <;>
    rw [he, json_of_fresh hf]
  · exact (light_setConsumer b c _).and (light_note _ c rfl)
  · exact light_note b c rfl
  · exact .refl h [c] b

/-- A sent message is counted, which shows only when the meter is sampled. -/
theorem light_countWith (nested : Board → HubId → Timestamp → Board) (c : ConsumerId) {l : LeafId}
    (hl : (b.leaf l).sort = .meter) (steps : Int) :
    Light h [c] [] b (b.countWith nested l steps).1 := by
  obtain ⟨m, body, he⟩ := countWith_meter nested hl steps
  have hm : Move (fun _ => True) b _ := .tick l m steps body
  rw [he]
  refine { Light.refl h [c] b with frame := hm.frame, values := fun k => ?_ }
  rw [leaf_modifyLeaf]
  split
  · rename_i hk
    subst hk
    simp [Leaf.values, body]
  · rfl

/-- **To tell a consumer that only changes subscriptions** changes them as it is due, and it stays
as it answers. -/
theorem light_informWith (nested : Board → HubId → Timestamp → Board)
    (hm : (b.leaf b.registry.sendMeter).sort = .meter) (hf : b.Fresh h) {c : ConsumerId}
    (hc : (b.consumer c).onlySubscribes = true) :
    Light h [c] (b.consumer c).due b (b.informWith nested c h).1 ∧
      (b.informWith nested c h).2 = (b.consumer c).stays := by
  unfold informWith
  cases is : b.consumer c with
  | observer o =>
    rw [is] at hc
    dsimp only
    rw [noteOf_of_fresh hf]
    exact ⟨(light_setConsumer b c _).and
      (light_foldl_act nested c (List.all_eq_true.1 hc)), rfl⟩
  | channel q =>
    have ho := light_offer b c q hf
    have hd := offer_disconnected_iff b c q h
    dsimp only
    rcases he : b.offer c q h with ⟨b1, d⟩
    rw [he] at ho hd
    cases d with
    | disconnected => exact ⟨ho, (hd.1 rfl).symm⟩
    | accepted | full => exact ⟨ho, (eq_true_of_ne_false fun hr => nomatch hd.2 hr).symm⟩
  | session s =>
    rw [is] at hc
    have ho := light_offer b c s.queue hf
    have hd := offer_disconnected_iff b c s.queue h
    dsimp only
    cases alive : s.alive with
    | false => exact ⟨.refl h [c] b, by rw [Consumer.stays, alive]; rfl⟩
    | true =>
      have hr : s.queue.receiving = true := by
        rwa [Consumer.onlySubscribes, alive] at hc
      rcases he : b.offer c s.queue h with ⟨b1, d⟩
      rw [he] at ho hd
      rw [if_pos rfl, Consumer.stays, alive, hr]
      cases d with
      | disconnected =>
        rw [hr] at hd
        cases hd.1 rfl
      | full => exact ⟨ho, rfl⟩
      | accepted =>
        refine ⟨ho.and (light_countWith nested c ?_ 1), rfl⟩
        rw [ho.frame.registry, (ho.frame.leaf _).sort]
        exact hm

/-- **What is left of a pass over consumers that only change subscriptions**: what is due of them in
turn. Those that do not stay are told apart by what they were at the beginning. -/
theorem light_passWith (nested : Board → HubId → Timestamp → Board)
    (hm : (b.leaf b.registry.sendMeter).sort = .meter) (hf : b.Fresh h) (hd : cs.Nodup)
    (hc : ∀ c ∈ cs, (b.consumer c).onlySubscribes = true) :
    Light h cs (cs.flatMap fun c => (b.consumer c).due) b (passWith nested h b cs).1 ∧
      (passWith nested h b cs).2 = cs.filter fun c => !(b.consumer c).stays := by
  induction cs generalizing b with
  | nil => exact ⟨.refl h [] b, rfl⟩
  | cons c cs ih =>
    obtain ⟨hfirst, hd⟩ := List.nodup_cons.1 hd
    obtain ⟨hlight, hstays⟩ := light_informWith nested hm hf (hc c List.mem_cons_self)
    have htell : Light h [c] (b.consumer c).due b (b.tellWith nested h c) := by
      have hnote := hlight.and (light_note (h := h) _ c
        (e := .informed c h (b.informWith nested c h).2) rfl)
      rwa [List.append_nil] at hnote
    -- the others are as they were, so they do and answer what they would have at the beginning
    have hsame : ∀ d ∈ cs, (b.tellWith nested h c).consumer d = b.consumer d := by
      intro d hmem
      refine htell.consumer d fun he => hfirst ?_
      rwa [← List.mem_singleton.1 he]
    obtain ⟨hrest, hgone⟩ := ih (b := b.tellWith nested h c)
      (by rw [htell.frame.registry, (htell.frame.leaf _).sort]; exact hm) (htell.fresh hf) hd
      fun d hmem => by rw [hsame d hmem]; exact hc d (List.mem_cons_of_mem c hmem)
    rw [passWith_cons, List.flatMap_cons, List.filter_cons, hgone, hstays]
    refine ⟨?_, ?_⟩
    · have hdue : cs.flatMap (fun d => ((b.tellWith nested h c).consumer d).due) =
          cs.flatMap fun d => (b.consumer d).due :=
        List.flatMap_congr fun d hmem => by rw [hsame d hmem]
      rw [← hdue]
      exact htell.trans hrest
    · have hfilter : (cs.filter fun d => !((b.tellWith nested h c).consumer d).stays) =
          cs.filter fun d => !(b.consumer d).stays :=
        List.filter_congr fun d hmem => by rw [hsame d hmem]
      rw [hfilter]
      cases (b.consumer c).stays <;> rfl

end Light

/-! ### The publication of a hub -/

/-- The board on which some subscribers were told of the publication of a hub, and those after them
were not yet. -/
def midway (b : Board) (h : HubId) (time : Timestamp) (told : List ConsumerId) : Board :=
  (passWith publish h (b.post h time) told).1

theorem midway_moves (held : b.isHubHeld h = true) (time : Timestamp) (told : List ConsumerId) :
    Moves (fun _ => True) (b.post h time) (b.midway h time told) := by
  have held' := ((Frame.post b h time).isHubHeld h).trans held
  exact passWith_moves (publish_moves _) told (plansWithin_true _) held'

theorem news_midway (b : Board) (h : HubId) (time : Timestamp) (told : List ConsumerId) :
    news b (b.midway h time told) = .published h (b.posted h time) (b.postedLine h time) ::
      news (b.post h time) (b.midway h time told) := by
  have hgrows : (b.post h time).events <+: (b.midway h time told).events :=
    grows_passWith (publish_discreet h) h (b.post h time) told
  rw [news_trans ⟨_, (events_post b h time).symm⟩ hgrows, news_post]
  rfl

/-- Up to the middle of a pass the hub is not published either. -/
theorem quiet_midway {time : Timestamp} {told cs : List ConsumerId} (ht : told <+: cs)
    (quiet : published h (news (b.post h time) (b.midway h time cs)) = []) :
    published h (news (b.post h time) (b.midway h time told)) = [] := by
  obtain ⟨rest, rfl⟩ := ht
  have hd := publish_discreet h
  rw [midway, passWith_append, news_trans (grows_passWith hd h _ told) (grows_passWith hd h _ rest),
    published_append] at quiet
  exact (List.append_eq_nil_iff.1 quiet).1

/-- When all are told, those that do not stay are unsubscribed. -/
theorem publish_eq_midway (hb : Sound b) (held : b.isHubHeld h = true) (time : Timestamp) :
    b.publish h time = (b.midway h time (b.hub h).consumers).modifyHub h
      (·.unsubscribeAll (passWith publish h (b.post h time) (b.hub h).consumers).2) := by
  rw [publish_eq hb held, notifyWith, consumers_post]
  rfl

/-- **The pass over the subscribers of a hub.** No consumer is subscribed twice, at any time.

As long as nobody publishes the hub while it is being published, everyone that was subscribed at
the beginning is told once, in order of subscription, whoever subscribes or unsubscribes them
meanwhile, and nobody else is told. Each of them finds the new snapshot, and the new text unless
the leaves of a volatile hub were written. In the end the list is what the consumers made of it,
without those that answered that they do not stay.

Consumers that only subscribe and unsubscribe do not publish the hub and do not write its leaves.
What they make of the list is then told by what is due of them at the beginning. -/
theorem notification_pass (hb : Reachable b) (held : b.isHubHeld h = true) (time : Timestamp) :
    let cs := (b.hub h).consumers
    let b' := b.publish h time
    cs.Nodup ∧ (b'.hub h).consumers.Nodup ∧
    (∀ told, ((b.midway h time told).hub h).consumers.Nodup) ∧
    (published h (news (b.post h time) b') = [] →
      calls h (news b b') = cs ∧
      (∀ told, told <+: cs → calls h (news b (b.midway h time told)) = told ∧
        (KeepsValues (b.post h time) (b.midway h time told) h →
          Displays (b.midway h time told) h (b.posted h time) (b.postedLine h time))) ∧
      (b'.hub h).consumers = ((b.midway h time cs).hub h).consumers.filter
        fun c => Event.informed c h false ∉ news b b') ∧
    ((∀ c ∈ cs, (b.consumer c).onlySubscribes = true) →
      published h (news (b.post h time) b') = [] ∧
      (∀ told, told <+: cs → KeepsValues (b.post h time) (b.midway h time told) h) ∧
      (b'.hub h).consumers =
        ((cs.flatMap fun c => (b.consumer c).due).foldl (b.resubscribe h) cs).filter
          fun c => !(cs.contains c && !(b.consumer c).stays)) := by
  intro cs b'
  have hsound := hb.sound
  have hmidway := midway_moves held time
  have heq : b' = _ := publish_eq_midway hsound held time
  have hnews : ∀ a, news a b' = news a (b.midway h time cs) := by
    intro a
    rw [heq]
    rfl
  have hleft : (b'.hub h).consumers = ((b.midway h time cs).hub h).consumers.filter
      fun c => !(passWith publish h (b.post h time) cs).2.contains c := by
    rw [heq, hub_modifyHub, if_pos rfl]
    rfl
  have hpost : Move (fun _ => True) b (b.post h time) := .post h time held
  have honce : ∀ told, ((b.midway h time told).hub h).consumers.Nodup := fun told =>
    (Moves.sound (hmidway told) (hpost.sound hsound)).once h
  refine ⟨hsound.once h, ?_, honce, fun quiet => ?_, fun hc => ?_⟩
  · rw [hleft]
    exact (honce cs).filter _
  · rw [hnews] at quiet
    have hcalls : ∀ told, told <+: cs → calls h (news b (b.midway h time told)) = told := by
      intro told ht
      rw [news_midway]
      exact (calls_passWith (publish_discreet h) (quiet_midway ht quiet)).1
    refine ⟨(congrArg _ (hnews b)).trans (hcalls cs List.prefix_rfl), fun told ht => ⟨hcalls told ht,
      displays_posted hb held (hmidway told) (quiet_midway ht quiet)⟩, ?_⟩
    rw [hleft]
    refine List.filter_congr fun c _ => ?_
    have hgone := (calls_passWith (publish_discreet h) quiet).2 c
    rw [Bool.eq_iff_iff, Bool.not_eq_true', ← Bool.not_eq_true, List.contains_iff_mem, hgone,
      decide_eq_true_eq, hnews, news_midway, List.mem_cons, or_iff_right nofun]
    rfl
  · have hpf := Frame.post b h time
    have hmeter : ((b.post h time).leaf (b.post h time).registry.sendMeter).sort = .meter := by
      rw [hpf.registry, (hpf.leaf _).sort]
      exact hsound.meter
    have hlight : ∀ told, told <+: cs → _ := fun told ht =>
      light_passWith publish hmeter (fresh_post b h time) ((hsound.once h).sublist ht.sublist)
        fun c hm => by rw [consumer_post]; exact hc c (ht.subset hm)
    obtain ⟨hall, hgone⟩ := hlight cs List.prefix_rfl
    refine ⟨?_, fun told ht _ l _ => (hlight told ht).1.values l, ?_⟩
    · rw [hnews]
      exact hall.quiet h
    · rw [hleft, hgone]
      have hs : ((b.midway h time cs).hub h).consumers = _ := hall.subscribers
      rw [hs, resubscribe_congr hpf.labels, consumers_post]
      simp only [consumer_post]
      refine List.filter_congr fun c _ => ?_
      rw [Bool.eq_iff_iff]
      simp [cs]

/-- A hub with three subscribers. The first one unsubscribes the second and subscribes a fourth
consumer. The third one does not stay, but unsubscribes and subscribes itself before. -/
def relay : Board := (start {} default {}).run
  [.openHub (Name.hubName "r"), .labelHub "r" ⟨1⟩,
    .observe "a" .text [] [(0, .unsubscribe "r" "b"), (0, .subscribe "r" "d")],
    .observe "b" .text [] [],
    .observe "c" .text [false] [(0, .unsubscribe "r" "c"), (0, .subscribe "r" "c")],
    .observe "d" .text [] [],
    .subscribe ⟨1⟩ ⟨0⟩, .subscribe ⟨1⟩ ⟨1⟩, .subscribe ⟨1⟩ ⟨2⟩]

/-- The three are told, the second one too. The first one and the fourth are left. -/
theorem notification_pass_relay :
    calls ⟨1⟩ (news relay (relay.publish ⟨1⟩ default)) = [⟨0⟩, ⟨1⟩, ⟨2⟩] ∧
      Displays (relay.midway ⟨1⟩ default [⟨0⟩]) ⟨1⟩ (relay.posted ⟨1⟩ default)
        (relay.postedLine ⟨1⟩ default) ∧
      ((relay.publish ⟨1⟩ default).hub ⟨1⟩).consumers = [⟨0⟩, ⟨3⟩] := by
  obtain ⟨held, hcs, honly⟩ : relay.isHubHeld ⟨1⟩ = true ∧
      (relay.hub ⟨1⟩).consumers = [⟨0⟩, ⟨1⟩, ⟨2⟩] ∧
      ∀ c ∈ (relay.hub ⟨1⟩).consumers, (relay.consumer c).onlySubscribes = true := by
    decide +kernel
  obtain ⟨-, -, -, hany, hlight⟩ := notification_pass (b := relay)
    ⟨{}, default, {}, _, Disk.sound_empty, rfl⟩ held default
  obtain ⟨quiet, hkept, hleft⟩ := hlight honly
  obtain ⟨hcalls, hmidway, -⟩ := hany quiet
  have htold : [⟨0⟩] <+: (relay.hub ⟨1⟩).consumers := hcs ▸ ⟨[⟨1⟩, ⟨2⟩], rfl⟩
  exact ⟨hcalls.trans hcs, (hmidway _ htold).2 (hkept _ htold), hleft.trans (by decide +kernel)⟩

end Board

end Switchboard
