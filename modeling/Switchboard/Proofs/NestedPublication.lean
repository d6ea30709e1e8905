import Switchboard.Proofs.TellOthers

/-!
# Publications as a listener hears them

A hub is posted, the consumers before the listener are told, then the listener, then the others.
If no session ends before the listener is told, it gets the line that was posted. If one does, the
line shows more open connections than anything that the listener gets.

* `TellsOthers.deliversLines_told`: from the posting of a hub until the listener is told.
* `publish_deliversLines`: any publication, with all that is nested in it.
-/

namespace Switchboard

namespace Board

variable {b b' b'' : Board} {c : ConsumerId} {h : HubId}

/-- What is shown after others are told, if it was shown already before. -/
theorem TellsOthers.within {a : Board} (t : TellsOthers c h b b') (o : Outline a b)
    (hl : b'.Listens c h) (hn : .lost c h ∉ news b b') (hf : b.Fresh h) (hh : b.isHubHeld h = true)
    (hs : b.ShowsCount h) {most : Int}
    (h0 : ∃ n, b.connectionCount ≤ n ∧ n ≤ most ∧ a.Reads h (b.text h) n) :
    ∀ u ∈ messages c h (news b b') ++ [b'.text h],
      ∃ n, b'.connectionCount ≤ n ∧ n ≤ most ∧ a.Reads h u n := by
  obtain ⟨n, hlo, hhi, hr⟩ := h0
  intro u hu
  by_cases hend : NoEnd (news b b')
  · rw [(t.silent.silent hend).2, List.nil_append, List.mem_singleton] at hu
    rw [hu, t.still hf hend]
    exact ⟨n, Int.le_trans t.count hlo, hhi, hr⟩
  · obtain ⟨m, hlo', hhi', hr'⟩ := t.shown hl hn hf hh hs hend u hu
    exact ⟨m, hlo', by omega, hr'.of_outline o⟩

/-! ### Until the listener is told -/

/-- A board on which a listener was told, after `b'`. -/
structure IsTold (c : ConsumerId) (h : HubId) (b b' : Board) : Prop where
  moves : Moves Unplanned b b'
  count : b'.connectionCount = b.connectionCount
  text : b'.text h = b.text h
  events : ∃ stays, b'.events = b.events ++ [.queued c h (b.text h), .informed c h stays]

theorem IsTold.news (y : IsTold c h b b') :
    ∃ stays, news b b' = [.queued c h (b.text h), .informed c h stays] := by
  obtain ⟨stays, he⟩ := y.events
  exact ⟨stays, news_of_events he⟩

theorem messages_queued (c : ConsumerId) (h : HubId) (text : String) (stays : Bool) :
    messages c h [.queued c h text, .informed c h stays] = [text] := by
  simp [messages]

section Told

variable {time : Timestamp} (t : TellsOthers c h (b.post h time) b') (y : IsTold c h b' b'')
include t y

/-- What happens from the posting of a hub until a listener is told. -/
theorem TellsOthers.news_told : ∃ stays, news b b'' =
    [.published h (b.posted h time) (b.postedLine h time)] ++ news (b.post h time) b' ++
      [.queued c h (b'.text h), .informed c h stays] := by
  obtain ⟨stays, hq⟩ := y.news
  have hpost : b.events <+: (b.post h time).events := ⟨_, (events_post b h time).symm⟩
  refine ⟨stays, ?_⟩
  rw [news_trans hpost ((Moves.grows t.moves).trans (Moves.grows y.moves)),
    news_post, news_trans (Moves.grows t.moves) (Moves.grows y.moves), hq, List.append_assoc]

theorem TellsOthers.lines_told : lines h (news b b'') =
    b.postedLine h time :: lines h (news (b.post h time) b') := by
  obtain ⟨stays, hnews⟩ := t.news_told y
  rw [hnews, lines_append, lines_append]
  simp [lines, published]

theorem TellsOthers.messages_told : messages c h (news b b'') =
    messages c h (news (b.post h time) b') ++ [b'.text h] := by
  obtain ⟨stays, hnews⟩ := t.news_told y
  rw [hnews, messages_append, messages_append, messages_queued]
  exact congrArg (· ++ _) (List.nil_append _)

/-- If no session ends before the listener is told, it gets the line that was posted. -/
theorem TellsOthers.matched_told_of_noEnd (hb : Sound b) (hend : NoEnd (news (b.post h time) b')) :
    MessagesMatch c h b b'' := by
  obtain ⟨hl0, hm0⟩ := t.silent.silent hend
  have htext : b'.text h = (b.hub h).wrap (b.postedLine h time) := by
    rw [t.still (fresh_post b h time) hend, text_post hb]
  have hcalm : Calm c h (news b b'') := by
    obtain ⟨stays, hnews⟩ := t.news_told y
    rw [hnews]
    refine calm_of_noEnd (noEnd_append.2 ⟨noEnd_append.2 ⟨?_, hend⟩, ?_⟩) <;>
      simp [NoEnd, Event.isEnd]
  refine ⟨?_, fun _ => ?_, fun _ _ _ _ => hcalm⟩ <;>
    rw [t.lines_told y, t.messages_told y, hl0, hm0]
  · rw [List.nil_append, List.length_singleton, List.length_singleton]
  · rw [htext]
    rfl

/-- At the first end the listener had not got the line. -/
theorem TellsOthers.not_calm_told (hend : ¬NoEnd (news (b.post h time) b')) :
    ¬Calm c h (news b b'') := by
  intro hc
  obtain ⟨pre, s, post, hsplit, hpre⟩ := exists_first_end hend
  obtain ⟨stays, hnews⟩ := t.news_told y
  have hsil := t.silent pre (hsplit ▸ List.prefix_append _ _) hpre
  have hle := hc (.published h (b.posted h time) (b.postedLine h time) :: pre) s
    (post ++ [.queued c h (b'.text h), .informed c h stays]) (by
      rw [hnews, hsplit]
      simp)
  have hp : messages c h (.published h (b.posted h time) (b.postedLine h time) :: pre) =
      messages c h pre := rfl
  rw [hp, hsil.2] at hle
  simp [lines, published] at hle

/-- If a session ends before the listener is told, a hub that shows the open connections has moved
on: its line shows more of them than the messages. -/
theorem TellsOthers.matched_told_of_end (hb : Sound b) (held : b.isHubHeld h = true)
    (hend : ¬NoEnd (news (b.post h time) b')) (hl : b'.Listens c h)
    (hn : .lost c h ∉ news (b.post h time) b') : MessagesMatch c h b b'' := by
  have m0 : Move Unplanned b (b.post h time) := .post h time held
  have hf := fresh_post b h time
  have o0 := m0.frame.outline
  constructor
  case balanced =>
    rw [t.lines_told y, t.messages_told y, List.length_append, List.length_singleton,
      (t.matched hl hn).balanced, List.length_cons]
  case aligned =>
    intro hc
    have hx : ¬b.IsExposed h := fun hx => t.not_calm_told y hend (hc hx)
    obtain ⟨htext, hl0, hm0⟩ := t.hidden hf fun hx' => hx ((o0.isExposed h).1 hx')
    rw [t.lines_told y, t.messages_told y, hl0, hm0, htext, text_post hb]
    rfl
  case exact =>
    intro hs hfrom hto he
    rw [t.lines_told y, t.messages_told y] at he
    -- the first message is the line, and shows fewer connections
    have hmem : (b.hub h).wrap (b.postedLine h time) ∈
        messages c h (news (b.post h time) b') ++ [b'.text h] := by
      rw [he]
      exact List.mem_cons_self
    have hh : (b.post h time).isHubHeld h = true := (m0.frame.isHubHeld h).trans held
    obtain ⟨n, hlo, hhi, hr⟩ := t.shown hl hn hf hh ((o0.showsCount h).2 hs) hend _ hmem
    rw [connectionCount_post] at hhi
    rw [y.count] at hto
    have hword : InWord n := ⟨Int.le_trans hto.1 hlo, Int.lt_trans hhi hfrom.2⟩
    have := Reads.unique hb hs hword hfrom (hr.of_outline o0) (reads_postedLine b h time)
    omega

/-- **From the posting of a hub until a listener is told of it.** -/
theorem TellsOthers.deliversLines_told (hb : Sound b) (held : b.isHubHeld h = true) :
    DeliversLines c h b b'' := by
  have m0 : Move Unplanned b (b.post h time) := .post h time held
  refine ⟨m0.frame.outline.trans ((Moves.outline t.moves).trans (Moves.outline y.moves)),
    m0.grows.trans ((Moves.grows t.moves).trans (Moves.grows y.moves)),
    fun hl => m0.listens (Moves.listens t.moves (Moves.listens y.moves hl)), ?_, fun hl hn => ?_⟩
  · rw [y.count, ← connectionCount_post b h time]
    exact t.count
  · -- whether a session ended on the way decides what the listener gets
    by_cases hend : NoEnd (news (b.post h time) b')
    · exact t.matched_told_of_noEnd y hb hend
    · refine t.matched_told_of_end y hb held hend (Moves.listens y.moves hl) fun hm => hn ?_
      obtain ⟨stays, hnews⟩ := t.news_told y
      rw [hnews]
      exact List.mem_append_left _ (List.mem_append_right _ hm)

end Told

/-! ### Telling the listener -/

/-- The message that a listener is offered is accepted, or lost. -/
theorem offer_self (c : ConsumerId) (hf : b.Fresh h) {q : Queue} (hr : q.receiving = true) :
    (∃ r, q.offer (b.text h) = (r, .accepted) ∧ b.offer c q h =
      ((b.setConsumer c ((b.consumer c).withQueue r)).note (.queued c h (b.text h)), .accepted)) ∨
    b.offer c q h = (b.note (.lost c h), .full) := by
  rcases offer_cases b c q h with ⟨r, ho, he⟩ | ⟨r, -, he⟩ | ⟨r, -, he⟩
  · rw [json_of_fresh hf] at he
    exact .inl ⟨r, ho, he⟩
  · rw [json_of_fresh hf] at he
    exact .inr he
  · exact absurd (congrArg Prod.snd he) (offer_ne_disconnected hr h)

/-- A message is put into the queue of a listener. -/
theorem isTold_queue (hb : Sound b) (hf : b.Fresh h) {q r : Queue}
    (is : (b.consumer c).queue? = some q) (ho : q.offer (b.text h) = (r, .accepted)) :
    let b' := (b.setConsumer c ((b.consumer c).withQueue r)).note (.queued c h (b.text h))
    Moves Unplanned b b' ∧ b'.connectionCount = b.connectionCount ∧ b'.text h = b.text h ∧
      b'.events = b.events ++ [.queued c h (b.text h)] := by
  intro b'
  refine ⟨.single (.queue c q r h _ is ho), rfl, ?_, events_note _ _⟩
  exact text_of_leaves hb hf (.refl _) rfl fun _ => rfl

section Nested

variable {nested : Board → HubId → Timestamp → Board} {depth : Nat}

/-- What is left to do when the message is in the queue. -/
theorem isTold_informed (hb : Sound b) (hf : b.Fresh h) {stays : Bool} (m : Moves Unplanned b b')
    (hc : b'.connectionCount = b.connectionCount) (ht : b'.text h = b.text h)
    (he : b'.events = b.events ++ [.queued c h (b.text h)])
    (hi : b.informWith nested c h = (b', stays)) :
    IsTold c h b ((b.informWith nested c h).1.note
      (.informed c h (b.informWith nested c h).2)) := by
  rw [hi]
  refine ⟨m.tail (.inform c h stays), hc, ?_, stays, ?_⟩
  · exact (text_note (Moves.sound m hb) (Moves.fresh m hf) _).trans ht
  · rw [events_note, he, List.append_assoc]
    rfl

/-- **A listener is told**: it gets the text as it is, unless it loses it. -/
theorem informWith_isTold (hb : Sound b) (hf : b.Fresh h) (hl : b.Listens c h)
    (hn : .lost c h ∉ news b (b.informWith nested c h).1) :
    IsTold c h b
      ((b.informWith nested c h).1.note (.informed c h (b.informWith nested c h).2)) := by
  have hrec := hl.2
  have hlost : ∀ st, b.informWith nested c h = (b.note (.lost c h), st) → False := by
    intro st he
    rw [he, news_of_events (events_note b (.lost c h))] at hn
    exact hn List.mem_cons_self
  cases is : b.consumer c with
  | observer o =>
    rw [is] at hrec
    cases hrec
  | channel q =>
    rw [is] at hrec
    have hq : (b.consumer c).queue? = some q := by rw [is]; rfl
    rcases offer_self c hf hrec with ⟨r, ho, he⟩ | he
    · obtain ⟨m, hc, ht, hev⟩ := isTold_queue hb hf hq ho
      generalize (b.setConsumer c ((b.consumer c).withQueue r)).note _ = b1 at he m hc ht hev
      refine isTold_informed hb hf m hc ht hev (?_ : b.informWith nested c h = (b1, true))
      unfold informWith
      rw [is]
      dsimp only
      rw [he]
    · refine (hlost true ?_).elim
      unfold informWith
      rw [is]
      dsimp only
      rw [he]
  | session s =>
    rw [is] at hrec
    obtain ⟨alive, hreceiving⟩ := Bool.and_eq_true_iff.1 hrec
    have hq : (b.consumer c).queue? = some s.queue := by rw [is]; rfl
    rcases offer_self c hf hreceiving with ⟨r, ho, he⟩ | he
    · obtain ⟨m, hc, ht, hev⟩ := isTold_queue hb hf hq ho
      generalize (b.setConsumer c ((b.consumer c).withQueue r)).note _ = b1 at he m hc ht hev
      have hb' := Moves.sound m hb
      obtain ⟨x, body, hcount⟩ := countWith_sendMeter nested hb' 1
      refine isTold_informed hb hf (m.tail (.tick _ x 1 body)) ?_ ?_ hev
        (?_ : b.informWith nested c h = (_, true))
      · exact (connectionCount_tick 1 body).trans hc
      · exact (text_tick hb' (Moves.fresh m hf) 1 body).trans ht
      · unfold informWith
        rw [is]
        dsimp only
        rw [if_pos alive, he, ← hcount]
    · refine (hlost true ?_).elim
      unfold informWith
      rw [is]
      dsimp only
      rw [if_pos alive, he]

/-! ### One publication -/

omit nested depth in
theorem leave_tellsOthers (hb : Sound b) {k : HubId} (held : b.isHubHeld k = true)
    (gone : List ConsumerId) : TellsOthers c h b (b.modifyHub k (·.unsubscribeAll gone)) :=
  .of_still (.single (.leave k gone held)) rfl (List.append_nil _).symm (fun _ he => nomatch he)
    fun hf => text_leave hb hf k gone

omit nested depth in
/-- What is news in between is news. -/
theorem mem_news {b1 b2 : Board} (h1 : b.events <+: b1.events) (h2 : b1.events <+: b2.events)
    (h3 : b2.events <+: b'.events) {e : Event} (he : e ∈ news b1 b2) : e ∈ news b b' := by
  rw [news_trans h1 (h2.trans h3), news_trans h2 h3]
  exact List.mem_append_right _ (List.mem_append_left _ he)

/-- All consumers of a hub are told, and `c` is not told of `h`. -/
theorem notifyWith_tellsOthers (hw : RepublishesCountBelow c h nested depth) (hb : Sound b)
    (hp : PlansWithin Unplanned b) (hu : b.unrest ≤ depth) {k : HubId}
    (held : b.isHubHeld k = true) (hne : k = h → c ∉ (b.hub k).consumers) :
    TellsOthers c h b (b.notifyWith nested k) := by
  have t := passWith_tellsOthers hw hb hp hu held (b.hub k).consumers fun d hd hdk =>
    hne hdk.2 (hdk.1 ▸ hd)
  exact t.trans (leave_tellsOthers (Moves.sound t.moves hb)
    (((Moves.frame t.moves).isHubHeld k).trans held) _)

variable (hn : PublishesBy Unplanned nested)
include hn

/-- The rest of a pass, after one consumer is told. -/
theorem passWith_moves_rest (hp : PlansWithin Unplanned b) (held : b.isHubHeld h = true)
    (c : ConsumerId) (ys : List ConsumerId) :
    Moves Unplanned (b.informWith nested c h).1 (passWith nested h b (c :: ys)).1 := by
  have m1 : Move Unplanned (b.informWith nested c h).1 ((b.informWith nested c h).1.note
      (.informed c h (b.informWith nested c h).2)) := .inform c h _
  have m := (informWith_moves hn hp c held).tail m1
  exact (Relation.ReflTransGen.single m1).trans
    (passWith_moves hn ys (Moves.plans m hp) (((Moves.frame m).isHubHeld h).trans held))

/-- **A publication to a listener**: others are told, then the listener, then others. -/
theorem notifyWith_split (hw : RepublishesCountBelow c h nested depth) (hb : Sound b)
    (hp : PlansWithin Unplanned b) (hu : b.unrest ≤ depth) (held : b.isHubHeld h = true)
    (hf : b.Fresh h) (hl : (b.notifyWith nested h).Listens c h)
    (hlost : .lost c h ∉ news b (b.notifyWith nested h)) (hc : c ∈ (b.hub h).consumers) :
    ∃ b1 b2, TellsOthers c h b b1 ∧ IsTold c h b1 b2 ∧ TellsOthers c h b2
      (b.notifyWith nested h) := by
  obtain ⟨xs, ys, hsplit⟩ := List.append_of_mem hc
  -- the listener is subscribed once: all others of the pass are different from it
  have hnodup := hb.once h
  rw [hsplit, List.nodup_append] at hnodup
  obtain ⟨-, hcys, hdisjoint⟩ := hnodup
  have hxs : ∀ d ∈ xs, ¬(d = c ∧ h = h) := fun d hd hdc =>
    hdisjoint d hd c List.mem_cons_self hdc.1
  have hys : ∀ d ∈ ys, ¬(d = c ∧ h = h) := fun d hd hdc =>
    (List.nodup_cons.1 hcys).1 (hdc.1 ▸ hd)
  have t1 := passWith_tellsOthers hw hb hp hu held xs hxs
  have hb' : (b.notifyWith nested h) = ((passWith nested h b (b.hub h).consumers).1).modifyHub h
    (·.unsubscribeAll (passWith nested h b (b.hub h).consumers).2) := rfl
  rw [hb', hsplit, passWith_append] at hl hlost ⊢
  generalize (passWith nested h b (xs ++ c :: ys)).2 = gone at hl hlost ⊢
  generalize (passWith nested h b xs).1 = b1 at t1 hl hlost ⊢
  have hb1 := Moves.sound t1.moves hb
  have hp1 := Moves.plans t1.moves hp
  have hu1 := Nat.le_trans (Moves.unrest t1.moves) hu
  have held1 := ((Moves.frame t1.moves).isHubHeld h).trans held
  -- the rest of the pass, as moves, so that the listener is one all the way back
  have m2 := informWith_moves hn hp1 c held1
  have m5 := passWith_moves_rest hn hp1 held1 c ys
  have m3 := m2.trans m5
  have m4 : Move Unplanned _ ((passWith nested h b1 (c :: ys)).1.modifyHub h
      (·.unsubscribeAll gone)) := .leave h gone (((Moves.frame m3).isHubHeld h).trans held1)
  have hl1 : b1.Listens c h := Moves.listens m3 (m4.listens hl)
  have hlost1 : .lost c h ∉ news b1 (b1.informWith nested c h).1 := fun he =>
    hlost (mem_news (Moves.grows t1.moves) (Moves.grows m2) ((Moves.grows m5).trans m4.grows) he)
  have y := informWith_isTold hb1 (Moves.fresh t1.moves hf) hl1 hlost1
  have hb2 := Moves.sound y.moves hb1
  have held2 := ((Moves.frame y.moves).isHubHeld h).trans held1
  have t3 := passWith_tellsOthers hw hb2 (Moves.plans y.moves hp1)
    (Nat.le_trans (Moves.unrest y.moves) hu1) held2 ys hys
  refine ⟨b1, _, t1, y, t3.trans ?_⟩
  exact leave_tellsOthers (Moves.sound t3.moves hb2)
    (((Moves.frame t3.moves).isHubHeld h).trans held2) gone

omit nested depth hn in
/-- A hub is posted, as a listener of another hub hears it. -/
theorem post_deliversLines_other {k : HubId} (held : b.isHubHeld k = true) (hne : k ≠ h)
    (time : Timestamp) : DeliversLines c h b (b.post k time) := by
  have m : Move Unplanned b (b.post k time) := .post k time held
  have hnews := news_post b k time
  refine ⟨m.frame.outline, m.grows, m.listens, Int.le_of_eq (connectionCount_post b k time), ?_⟩
  refine fun _ _ => messagesMatch_of_silent ?_ ?_ <;> rw [hnews]
  · refine silent_of_forall fun e he => ?_
    rw [List.mem_singleton.1 he]
    exact decide_eq_false hne
  · refine calm_of_noEnd fun e he => ?_
    rw [List.mem_singleton.1 he]
    rfl

/-- **A publication is heard**, with all that is nested in it. -/
theorem post_notify_deliversLines (hw : ∀ c h, RepublishesCountBelow c h nested depth)
    (hb : Sound b) (hp : PlansWithin Unplanned b) (hu : b.unrest ≤ depth) {k : HubId}
    (held : b.isHubHeld k = true) (time : Timestamp) (c : ConsumerId) (h : HubId) :
    DeliversLines c h b ((b.post k time).notifyWith nested k) := by
  have m0 : Move Unplanned b (b.post k time) := .post k time held
  have hb0 := m0.sound hb
  have hp0 := m0.plans hp
  have hu0 := Nat.le_trans m0.unrest hu
  have held0 := (m0.frame.isHubHeld k).trans held
  have m := post_notify_moves hn hp held time
  have m1 := notifyWith_moves hn hp0 held0
  have hcount : ((b.post k time).notifyWith nested k).connectionCount ≤ b.connectionCount := by
    -- counted as a consumer hears it that asks for another hub
    have hother : k ≠ ⟨k.index + 1⟩ := fun e => by
      have := congrArg HubId.index e
      simp at this
    have t := notifyWith_tellsOthers (hw c ⟨k.index + 1⟩) hb0 hp0 hu0 held0 fun e => absurd e hother
    rw [← connectionCount_post b k time]
    exact t.count
  refine ⟨Moves.outline m, Moves.grows m, Moves.listens m, hcount, fun hl hlost => ?_⟩
  have hl0 : (b.post k time).Listens c h := Moves.listens m1 hl
  by_cases hk : k = h
  · subst hk
    have hlost0 : .lost c k ∉ news (b.post k time) ((b.post k time).notifyWith nested k) :=
      fun he => hlost (mem_news m0.grows (Moves.grows m1) List.prefix_rfl he)
    obtain ⟨b1, b2, t1, y, t3⟩ := notifyWith_split hn (hw c k) hb0 hp0 hu0 held0
      (fresh_post b k time) hl hlost0 hl0.1
    exact ((t1.deliversLines_told y hb held).trans t3.deliversLines).matched hl hlost
  · have first := post_deliversLines_other (c := c) held hk time
    have t := notifyWith_tellsOthers (hw c h) hb0 hp0 hu0 held0 fun e => absurd e hk
    exact (first.trans t.deliversLines).matched hl hlost

/-- What a consumer hears of a hub that a session end may not change, while the hub that shows the
open connections is published: nothing. -/
theorem post_notify_hidden (hw : RepublishesCountBelow c h nested depth) (hb : Sound b)
    (hp : PlansWithin Unplanned b) (hu : b.unrest ≤ depth) {k : HubId}
    (hk : b.connectionsHub = some k) (held : b.isHubHeld k = true) (time : Timestamp)
    (hf : b.Fresh h) (hx : ¬b.IsExposed h) :
    ((b.post k time).notifyWith nested k).text h = b.text h ∧
      Silent c h (news b ((b.post k time).notifyWith nested k)) := by
  have m0 : Move Unplanned b (b.post k time) := .post k time held
  have m1 := notifyWith_moves hn (m0.plans hp) ((m0.frame.isHubHeld k).trans held)
  have hne : k ≠ h := fun e => hx (.inl (e ▸ hk))
  have t := notifyWith_tellsOthers hw (m0.sound hb) (m0.plans hp) (Nat.le_trans m0.unrest hu)
    ((m0.frame.isHubHeld k).trans held) fun e => absurd e hne
  obtain ⟨ht, hs⟩ := t.hidden (m0.fresh hf) fun hx' => hx ((m0.frame.outline.isExposed h).1 hx')
  refine ⟨ht.trans (text_post_of_not_isExposed hb hf hx hk time), ?_⟩
  rw [news_trans m0.grows (Moves.grows m1), news_post]
  refine Silent.append (silent_of_forall fun e he => ?_) hs
  rw [List.mem_singleton.1 he]
  exact decide_eq_false hne

/-- What is shown while all consumers of the hub itself are told, if what they find is shown
already. -/
theorem notifyWith_shown_self {a : Board} (hw : RepublishesCountBelow c h nested depth)
    (hb : Sound b)
    (hp : PlansWithin Unplanned b) (hu : b.unrest ≤ depth) (held : b.isHubHeld h = true)
    (o : Outline a b) (hf : b.Fresh h) (hs : b.ShowsCount h)
    (hl : (b.notifyWith nested h).Listens c h)
    (hlost : .lost c h ∉ news b (b.notifyWith nested h)) (hc : c ∈ (b.hub h).consumers)
    {most : Int} (h0 : ∃ n, b.connectionCount ≤ n ∧ n ≤ most ∧ a.Reads h (b.text h) n) :
    ∀ u ∈ messages c h (news b (b.notifyWith nested h)) ++ [(b.notifyWith nested h).text h],
      ∃ n, (b.notifyWith nested h).connectionCount ≤ n ∧ n ≤ most ∧ a.Reads h u n := by
  obtain ⟨b1, b2, t1, y, t3⟩ := notifyWith_split hn hw hb hp hu held hf hl hlost hc
  have hl2 := Moves.listens t3.moves hl
  have g1 := Moves.grows t1.moves
  have g2 := Moves.grows y.moves
  have g3 := Moves.grows t3.moves
  have m12 := t1.moves.trans y.moves
  have o2 := Moves.outline m12
  -- what is shown before the listener is told, and from then on
  have before := t1.within o (Moves.listens y.moves hl2)
    (fun he => hlost (mem_news List.prefix_rfl g1 (g2.trans g3) he)) hf held hs h0
  have after := t3.within (o.trans o2) hl
    (fun he => hlost (mem_news (g1.trans g2) g3 List.prefix_rfl he)) (Moves.fresh m12 hf)
    (((Moves.frame m12).isHubHeld h).trans held) ((o2.showsCount h).2 hs) (by
      rw [y.text, y.count]
      exact before _ (List.mem_append_right _ List.mem_cons_self))
  obtain ⟨stays, hy⟩ := y.news
  intro u hu'
  rw [news_trans g1 (g2.trans g3), news_trans g2 g3, hy, messages_append, messages_append,
    messages_queued, List.append_assoc, List.append_assoc, ← List.append_assoc,
    List.mem_append] at hu'
  rcases hu' with hu' | hu'
  · obtain ⟨n, hlo, hhi, hr⟩ := before u hu'
    exact ⟨n, Int.le_trans t3.count (y.count ▸ hlo), hhi, hr⟩
  · exact after u hu'

/-- What a listener of a hub that shows the open connections is shown, while the hub that is
published at their number is. -/
theorem post_notify_shown (hw : RepublishesCountBelow c h nested depth) (hb : Sound b)
    (hp : PlansWithin Unplanned b) (hu : b.unrest ≤ depth) {k : HubId}
    (hk : b.connectionsHub = some k) (held : b.isHubHeld k = true) (time : Timestamp)
    (hl : ((b.post k time).notifyWith nested k).Listens c h)
    (hlost : .lost c h ∉ news b ((b.post k time).notifyWith nested k))
    (hh : b.isHubHeld h = true) (hs : b.ShowsCount h) :
    ∀ u ∈ messages c h (news b ((b.post k time).notifyWith nested k)) ++
        [((b.post k time).notifyWith nested k).text h],
      ∃ n, ((b.post k time).notifyWith nested k).connectionCount ≤ n ∧ n ≤ b.connectionCount ∧
        b.Reads h u n := by
  have m0 : Move Unplanned b (b.post k time) := .post k time held
  have hb0 := m0.sound hb
  have hp0 := m0.plans hp
  have hu0 := Nat.le_trans m0.unrest hu
  have held0 := (m0.frame.isHubHeld k).trans held
  have o0 := m0.frame.outline
  have m1 := notifyWith_moves hn hp0 held0
  have hlost0 : .lost c h ∉ news (b.post k time) ((b.post k time).notifyWith nested k) :=
    fun he => hlost (mem_news m0.grows (Moves.grows m1) List.prefix_rfl he)
  have hmessages : messages c h (news b ((b.post k time).notifyWith nested k)) =
      messages c h (news (b.post k time) ((b.post k time).notifyWith nested k)) := by
    rw [news_trans m0.grows (Moves.grows m1), news_post, messages_append]
    exact List.nil_append _
  rw [hmessages]
  have hs0 := (o0.showsCount h).2 hs
  have hstart : ∃ n, (b.post k time).connectionCount ≤ n ∧ n ≤ b.connectionCount ∧
      b.Reads h ((b.post k time).text h) n :=
    ⟨b.connectionCount, Int.le_of_eq (connectionCount_post b k time), Int.le_refl _,
      reads_post hb hs hk time⟩
  by_cases hkh : k = h
  · subst hkh
    exact notifyWith_shown_self hn hw hb0 hp0 hu0 held0 o0 (fresh_post b k time) hs0 hl hlost0
      (Moves.listens m1 hl).1 hstart
  · -- another hub is published, so this one is volatile
    have hv : (b.hub h).isVolatile = true := by
      rcases hs with hs | ⟨hv, -⟩
      · exact absurd (Option.some.inj (hk.symm.trans hs)) hkh
      · exact hv
    have hf0 : (b.post k time).Fresh h := .inl ((o0.hub h).isVolatile.trans hv)
    have t := notifyWith_tellsOthers hw hb0 hp0 hu0 held0 fun e => absurd e hkh
    exact t.within o0 hl hlost0 hf0 ((m0.frame.isHubHeld h).trans hh) hs0 hstart

/-- The publication of the hub that shows the open connections. -/
theorem post_notify_republishesCount (hw : ∀ c h, RepublishesCountBelow c h nested depth)
    (hb : Sound b) (hp : PlansWithin Unplanned b) (hu : b.unrest ≤ depth) {k : HubId}
    (hk : b.connectionsHub = some k) (held : b.isHubHeld k = true) (time : Timestamp)
    (c : ConsumerId) (h : HubId) : RepublishesCount c h b
      ((b.post k time).notifyWith nested k) where
  moves := post_notify_moves hn hp held time
  count := (post_notify_deliversLines hn hw hb hp hu held time c h).count
  matched := (post_notify_deliversLines hn hw hb hp hu held time c h).matched
  hidden := post_notify_hidden hn (hw c h) hb hp hu hk held time
  shown := post_notify_shown hn (hw c h) hb hp hu hk held time

end Nested

/-! ### Any publication -/

/-- Publications nested at most `depth` deep, on a board on which consumers can bring about no
more than that. -/
theorem publishWithin_deliversLines (depth : Nat) : ∀ b k time, Sound b → PlansWithin Unplanned b →
    b.isHubHeld k = true → b.unrest ≤ depth → ∀ c h,
      DeliversLines c h b (publishWithin depth b k time) ∧
        (b.connectionsHub = some k → RepublishesCount c h b (publishWithin depth b k time)) := by
  induction depth with
  | zero =>
    intro b k time hb hp held hu c h
    have hn : PublishesBy Unplanned fun b _ _ => b := fun _ _ _ _ _ => .refl
    have hw : ∀ c h, RepublishesCountBelow c h (fun b _ _ => b) 0 :=
      fun _ _ _ _ _ _ _ _ _ hlt => absurd hlt (Nat.not_lt_zero _)
    exact ⟨post_notify_deliversLines hn hw hb hp hu held time c h,
      fun hk => post_notify_republishesCount hn hw hb hp hu hk held time c h⟩
  | succ n ih =>
    intro b k time hb hp held hu c h
    have hn : PublishesBy Unplanned (publishWithin n) := publishWithin_moves Unplanned n
    have hw : ∀ c h, RepublishesCountBelow c h (publishWithin n) (n + 1) :=
      fun c h b k time hb hp hk held hlt =>
        (ih b k time hb hp held (Nat.le_of_lt_succ hlt) c h).2 hk
    exact ⟨post_notify_deliversLines hn hw hb hp hu held time c h,
      fun hk => post_notify_republishesCount hn hw hb hp hu hk held time c h⟩

/-- **Any publication is heard.** -/
theorem publish_deliversLines (hb : Sound b) (hp : PlansWithin Unplanned b) {k : HubId}
    (held : b.isHubHeld k = true) (time : Timestamp) (c : ConsumerId) (h : HubId) :
    DeliversLines c h b (b.publish k time) :=
  (publishWithin_deliversLines b.unrest b k time hb hp held (Nat.le_refl _) c h).1

/-- The publications that session ends bring about on a whole board. -/
theorem publish_republishesCount (c : ConsumerId) (h : HubId) (depth : Nat) :
    RepublishesCountBelow c h publish depth :=
  fun b k time hb hp hk held _ =>
    (publishWithin_deliversLines b.unrest b k time hb hp held (Nat.le_refl _) c h).2 hk

end Board

end Switchboard
