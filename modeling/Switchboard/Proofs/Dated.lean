import Switchboard.Proofs.News

/-!
# Times of publications

A transaction publishes as of the time at which it was opened, and a hub can be published as of any
time. Everything else that is published while this goes on, by counters, meters, consumers and the
ends of sessions, is published as of the present time.

* `publish_dated`: the publication of a hub, with all that it brings about.
-/

namespace Switchboard

namespace Board

variable {T : HubId → Timestamp → Prop} {b b' b'' : Board}

/-- A board on which clock and transaction are as they were, and hubs were published as of times of
`T` only. -/
structure Dated (T : HubId → Timestamp → Prop) (b b' : Board) : Prop where
  wall : b'.wall = b.wall
  transaction : b'.transaction = b.transaction
  grows : b.events <+: b'.events
  takenAt : ∀ h s line, Event.published h s line ∈ news b b' → T h s.takenAt

namespace Dated

protected theorem refl (b : Board) : Dated T b b where
  wall := rfl
  transaction := rfl
  grows := List.prefix_rfl
  takenAt h s line he := by
    rw [news_self] at he
    cases he

theorem trans (hd : Dated T b b') (hd' : Dated T b' b'') : Dated T b b'' where
  wall := hd'.wall.trans hd.wall
  transaction := hd'.transaction.trans hd.transaction
  grows := hd.grows.trans hd'.grows
  takenAt h s line he := by
    rw [news_trans hd.grows hd'.grows, List.mem_append] at he
    rcases he with he | he
    · exact hd.takenAt h s line he
    · exact hd'.takenAt h s line he

/-- The present time stays of `T`. -/
theorem present (hd : Dated T b b') (hw : ∀ h, T h b.wall) : ∀ h, T h b'.wall := by
  rw [hd.wall]
  exact hw

/-- What publishes nothing is dated anyhow. -/
theorem of_quiet (es : List Event) (wall : b'.wall = b.wall)
    (transaction : b'.transaction = b.transaction) (journal : b'.journal = es ++ b.journal)
    (quiet : ∀ e ∈ es, e.publication? = none) : Dated T b b' where
  wall := wall
  transaction := transaction
  grows := ⟨_, (events_of_journal journal).symm⟩
  takenAt h s line he := by
    rw [news_of_events (events_of_journal journal), List.mem_reverse] at he
    exact absurd (quiet _ he) (by simp [Event.publication?])

/-- What leaves clock, transaction and journal as they were. -/
theorem of_eq (wall : b'.wall = b.wall) (transaction : b'.transaction = b.transaction)
    (journal : b'.journal = b.journal) : Dated T b b' :=
  of_quiet [] wall transaction journal (by simp)

theorem note (b : Board) {e : Event} (quiet : e.publication? = none) : Dated T b (b.note e) :=
  of_quiet [e] rfl rfl rfl (by simpa using quiet)

theorem post (b : Board) {h : HubId} {time : Timestamp} (ht : T h time) :
    Dated T b (b.post h time) where
  wall := (Frame.post b h time).wall
  transaction := (Frame.post b h time).transaction
  grows := ⟨_, (events_post b h time).symm⟩
  takenAt k s line he := by
    rw [news_post, List.mem_singleton] at he
    cases he
    exact ht

theorem formatted (b : Board) (h : HubId) : Dated T b (b.formatted h).1 :=
  of_eq (Frame.formatted b h).wall (Frame.formatted b h).transaction (journal_formatted b h)

theorem json (b : Board) (h : HubId) : Dated T b (b.json h).1 :=
  of_eq (Frame.json b h).wall (Frame.json b h).transaction (journal_json b h)

theorem noteOf (b : Board) (h : HubId) (noted : Noted) : Dated T b (b.noteOf h noted).1 := by
  cases noted with
  | wrapped => exact json b h
  | text => exact formatted b h
  | id => exact .refl b

theorem offer (b : Board) (c : ConsumerId) (q : Queue) (h : HubId) :
    Dated T b (b.offer c q h).1 := by
  have hj := json (T := T) b h
  rcases offer_cases b c q h with ⟨r, -, he⟩ | ⟨r, -, he⟩ | ⟨r, -, he⟩ <;> rw [he]
  · refine hj.trans ?_
    exact of_quiet [.queued c h (b.json h).2] rfl rfl rfl (by simp [Event.publication?])
  · exact hj.trans (note _ rfl)
  · exact hj

end Dated

/-! ### Telling consumers -/

section Inform

variable {nested : Board → HubId → Timestamp → Board}

/-- `nested` publishes hubs as of the present time when it is asked to. -/
def DatesBy (T : HubId → Timestamp → Prop) (nested : Board → HubId → Timestamp → Board) : Prop :=
  ∀ b h, (∀ k, T k b.wall) → Dated T b (nested b h b.wall)

variable (hn : DatesBy T nested)
include hn

theorem refresh_dated (hw : ∀ h, T h b.wall) (l : LeafId) : Dated T b (b.refresh nested l) := by
  rcases b.refresh_cases l with ⟨h, -, -, eq⟩ | eq
  · rw [eq]
    exact hn b h hw
  · rw [eq]
    exact .refl b

theorem countWith_dated (hw : ∀ h, T h b.wall) (l : LeafId) (steps : Int) :
    Dated T b (b.countWith nested l steps).1 := by
  rcases b.countWith_cases l steps with ⟨n, -, eq⟩ | ⟨m, -, eq⟩ | eq
  · have hm : Dated T b (b.modifyLeaf l fun x =>
        { x with body := .counter (n + steps), updatedAt := some b.wall }) := .of_eq rfl rfl rfl
    rw [eq]
    exact hm.trans (refresh_dated hn (hm.present hw) l)
  · rw [eq]
    exact .of_eq rfl rfl rfl
  · rw [eq]
    exact .refl b

theorem closeWith_dated (hw : ∀ h, T h b.wall) (c : ConsumerId) : Dated T b (b.closeWith nested c) := by
  rcases b.closeWith_cases c with ⟨s, -, -, eq⟩ | eq
  · have hm : Dated T b ((b.setConsumer c (.session { s with alive := false })).note (.ended c)) :=
      .of_quiet [.ended c] rfl rfl rfl (by simp [Event.publication?])
    rw [eq]
    exact hm.trans (countWith_dated hn (hm.present hw) _ _)
  · rw [eq]
    exact .refl b

theorem act_dated (hw : ∀ h, T h b.wall) (a : Action) : Dated T b (b.act nested a) := by
  cases b.deed a with
  | idle _ eq =>
    rw [eq]
    exact .refl b
  | subscribe _ _ h c _ eq | unsubscribe _ _ h c _ eq =>
    rw [eq]
    exact .of_eq rfl rfl rfl
  | update hub h _ eq =>
    rw [eq]
    exact hn b h hw
  | set leaf v x _ eq =>
    rw [eq]
    exact .of_eq rfl rfl rfl
  | increment leaf l eq | decrement leaf l eq =>
    rw [eq]
    exact countWith_dated hn hw l _

omit hn in
/-- What dates every step dates all of them. -/
theorem foldl_dated {α : Type} {f : Board → α → Board}
    (hf : ∀ b a, (∀ h, T h b.wall) → Dated T b (f b a)) (as : List α) (hw : ∀ h, T h b.wall) :
    Dated T b (as.foldl f b) := by
  induction as generalizing b with
  | nil => exact .refl b
  | cons a as ih => exact (hf b a hw).trans (ih ((hf b a hw).present hw))

theorem informWith_dated (hw : ∀ h, T h b.wall) (c : ConsumerId) (h : HubId) :
    Dated T b (b.informWith nested c h).1 := by
  unfold informWith
  split
  · rename_i o is
    have hc : Dated T b ((b.noteOf h o.noted).1.setConsumer c
        (.observer (o.called (b.noteOf h o.noted).2))) :=
      (Dated.noteOf b h o.noted).trans (.of_eq rfl rfl rfl)
    exact hc.trans (foldl_dated (fun d a hd => act_dated hn hd a) o.due (hc.present hw))
  · rename_i q is
    have ho := Dated.offer (T := T) b c q h
    split <;> rename_i he <;> rw [he] at ho <;> exact ho
  · rename_i s is
    split
    · have ho := Dated.offer (T := T) b c s.queue h
      split <;> rename_i he <;> rw [he] at ho
      · exact ho.trans (countWith_dated hn (ho.present hw) _ _)
      · exact ho
      · exact ho.trans (closeWith_dated hn (ho.present hw) c)
    · exact .refl b

theorem passWith_dated (h : HubId) (cs : List ConsumerId) (hw : ∀ h, T h b.wall) :
    Dated T b (passWith nested h b cs).1 := by
  induction cs generalizing b with
  | nil => exact .refl b
  | cons c cs ih =>
    have h1 : Dated T b _ := (informWith_dated hn hw c h).trans
      (.note _ (e := .informed c h (b.informWith nested c h).2) rfl)
    exact h1.trans (ih (h1.present hw))

theorem notifyWith_dated (hw : ∀ h, T h b.wall) (h : HubId) : Dated T b (b.notifyWith nested h) :=
  (passWith_dated hn h (b.hub h).consumers hw).trans (.of_eq rfl rfl rfl)

theorem post_notify_dated (hw : ∀ h, T h b.wall) (h : HubId) {time : Timestamp} (ht : T h time) :
    Dated T b ((b.post h time).notifyWith nested h) := by
  have hp := Dated.post b ht
  exact hp.trans (notifyWith_dated hn (hp.present hw) h)

end Inform

/-! ### Publishing -/

theorem publishWithin_dated (depth : Nat) (hw : ∀ h, T h b.wall) (h : HubId) {time : Timestamp}
    (ht : T h time) : Dated T b (publishWithin depth b h time) := by
  induction depth generalizing b h time with
  | zero => exact post_notify_dated (fun b _ _ => .refl b) hw h ht
  | succ n ih => exact post_notify_dated (fun d k hd => ih hd k (hd k)) hw h ht

/-- **The publication of a hub as of a time**, with all that it brings about: everything else is
published as of the present time. -/
theorem publish_dated (hw : ∀ k, T k b.wall) {h : HubId} {time : Timestamp} (ht : T h time) :
    Dated T b (b.publish h time) :=
  publishWithin_dated b.unrest hw h ht

theorem datesBy_publish : DatesBy T publish := fun _ h hw => publish_dated hw (hw h)

theorem count_dated (hw : ∀ h, T h b.wall) (l : LeafId) (steps : Int) : Dated T b (b.count l steps).1 :=
  countWith_dated datesBy_publish hw l steps

theorem close_dated (hw : ∀ h, T h b.wall) (c : ConsumerId) : Dated T b (b.close c) :=
  closeWith_dated datesBy_publish hw c

theorem publishAll_dated (hw : ∀ h, T h b.wall) {time : Timestamp} {hs : List HubId}
    (ht : ∀ h ∈ hs, T h time) : Dated T b (b.publishAll hs time) := by
  induction hs generalizing b with
  | nil => exact .refl b
  | cons h hs ih =>
    have h1 : Dated T b (b.publish h time) := publish_dated hw (ht h List.mem_cons_self)
    exact h1.trans (ih (h1.present hw) fun k hk => ht k (List.mem_cons_of_mem h hk))

theorem sample_dated (hw : ∀ h, T h b.wall) (l : LeafId) (now : Int) : Dated T b (b.sample l now).1 := by
  unfold sample
  split
  · split
    · rename_i m _
      have hm : Dated T b (b.modifyLeaf l
          ({ · with body := .meter m, updatedAt := some b.wall })) := .of_eq rfl rfl rfl
      exact hm.trans (refresh_dated datesBy_publish (hm.present hw) l)
    · exact .of_eq rfl rfl rfl
  · exact .refl b

theorem sampleAll_dated (hw : ∀ h, T h b.wall) : Dated T b b.sampleAll.1 := by
  have hm : Dated T b { b with registry := { b.registry with
      meters := b.registry.meters.filter b.isLeafHeld } } := .of_eq rfl rfl rfl
  unfold sampleAll
  dsimp only
  rw [sampleEach_fst]
  exact hm.trans (foldl_dated (fun _ l hd => sample_dated hd l _) _ (hm.present hw))

theorem settle_dated (hw : ∀ h, T h b.wall) : Dated T b b.settle := by
  refine foldl_dated (fun d c hd => ?_) _ hw
  split
  · exact .refl d
  · exact close_dated hd c

end Board

end Switchboard
