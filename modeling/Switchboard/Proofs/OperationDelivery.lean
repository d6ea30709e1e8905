import Switchboard.Proofs.Registration
import Switchboard.Proofs.History
import Switchboard.Proofs.NestedPublication

/-!
# What is heard of an operation

A channel or session that is subscribed after an operation and loses nothing of it gets one message
for each line of a hub. The messages are the lines, unless a session ends while the consumer is
behind: then a hub whose text shows the number of open connections has moved on before the consumer
is told.

* `step_deliversLines`: what is heard of the parts of an operation.
* `step_messagesMatch`: what is heard of an operation.
-/

namespace Switchboard

namespace Board

variable {b b' : Board} {c : ConsumerId} {h : HubId}

/-! ### Parts of operations -/

/-- A part of an operation that publishes nothing. -/
theorem DeliversLines.of_quiet (o : Outline b b') (he : b'.events = b.events)
    (hl : b'.Listens c h → b.Listens c h) (hc : b'.connectionCount = b.connectionCount) :
    DeliversLines c h b b' := by
  have hnews : news b b' = [] := news_of_events (by rw [he, List.append_nil])
  refine ⟨o, he ▸ List.prefix_rfl, hl, Int.le_of_eq hc, fun _ _ => ?_⟩
  refine messagesMatch_of_silent ?_ ?_ <;> rw [hnews]
  · exact ⟨rfl, rfl⟩
  · exact calm_of_noEnd fun e he => nomatch he

theorem refresh_deliversLines (hb : Sound b) (hp : PlansWithin Unplanned b) (l : LeafId)
    (c : ConsumerId) (h : HubId) : DeliversLines c h b (b.refresh publish l) := by
  rcases b.refresh_cases l with ⟨k, -, held, eq⟩ | eq
  · rw [eq]
    exact publish_deliversLines hb hp held _ c h
  · rw [eq]
    exact .refl c h b

theorem close_deliversLines (hb : Sound b) (hp : PlansWithin Unplanned b) (d : ConsumerId)
    (c : ConsumerId) (h : HubId) : DeliversLines c h b (b.close d) :=
  (closeWith_tellsOthers (publish_republishesCount c h b.unrest) hb hp
    (Nat.le_refl _) d).deliversLines

theorem foldl_deliversLines {α : Type} {f : Board → α → Board}
    (hf : ∀ b a, Sound b → PlansWithin Unplanned b →
      DeliversLines c h b (f b a) ∧ ChangesBy Unplanned (fun _ => True) b (f b a))
    (as : List α) (hb : Sound b) (hp : PlansWithin Unplanned b) :
      DeliversLines c h b (as.foldl f b) := by
  induction as generalizing b with
  | nil => exact .refl c h b
  | cons a as ih =>
    obtain ⟨x, hc⟩ := hf b a hb hp
    exact x.trans (ih (ChangesBy.sound hc hb) (ChangesBy.plans hc hp))

theorem publishAll_deliversLines (hb : Sound b) (hp : PlansWithin Unplanned b) {hs : List HubId}
    (held : ∀ k ∈ hs, b.isHubHeld k = true) (time : Timestamp) (c : ConsumerId) (h : HubId) :
    DeliversLines c h b (b.publishAll hs time) := by
  induction hs generalizing b with
  | nil => exact .refl c h b
  | cons k hs ih =>
    have hk := held k List.mem_cons_self
    have m := publish_moves Unplanned b k time hp hk
    refine (publish_deliversLines hb hp hk time c h).trans
      (ih (Moves.sound m hb) (Moves.plans m hp) fun j hj => ?_)
    rw [(Moves.frame m).isHubHeld]
    exact held j (List.mem_cons_of_mem k hj)

theorem finish_deliversLines (hb : Sound b) (hp : PlansWithin Unplanned b) (c : ConsumerId)
    (h : HubId) : DeliversLines c h b b.finish.1 := by
  cases ht : b.transaction with
  | none =>
    unfold finish
    rw [ht]
    exact .refl c h b
  | some tx =>
    rw [finish_eq ht]
    have x := publishAll_deliversLines hb hp
      (fun k hk => isHubHeld_of_touched ht hk) tx.openedAt c h
    exact x.trans (.of_quiet (.of_same rfl rfl rfl) rfl (fun hl => hl) rfl)

theorem sample_deliversLines (hb : Sound b) (hp : PlansWithin Unplanned b) (l : LeafId) (now : Int)
    (c : ConsumerId) (h : HubId) : DeliversLines c h b (b.sample l now).1 := by
  -- a meter that is sampled is no counter
  have hquiet : ∀ (m m' : Meter) (time : Option Timestamp), (b.leaf l).body = .meter m →
      DeliversLines c h b (b.modifyLeaf l ({ · with body := .meter m', updatedAt := time })) := by
    intro m m' time body
    refine .of_quiet (Frame.modifyLeaf b ⟨rfl, ?_⟩ rfl).outline rfl (fun hl => hl) ?_
    · unfold Leaf.sort
      rw [body]
    · refine connectionCount_modifyLeaf ?_
      unfold Leaf.count
      rw [body]
  unfold sample
  split
  · rename_i m body
    split
    · rename_i m' _
      have h1 : Change Unplanned (fun _ => True) b _ := .sample l m m' (some b.wall) body
      exact (hquiet m m' (some b.wall) body).trans
        (refresh_deliversLines (h1.sound hb) (h1.plans hp) l c h)
    · rename_i m' _
      exact hquiet m m' (b.leaf l).updatedAt body
  · exact .refl c h b

theorem sampleAll_deliversLines (hb : Sound b) (hp : PlansWithin Unplanned b) (c : ConsumerId)
    (h : HubId) : DeliversLines c h b b.sampleAll.1 := by
  have h1 : Change Unplanned (fun _ => True) b _ :=
    .track (b.registry.meters.filter b.isLeafHeld)
  have x : DeliversLines c h b { b with registry := { b.registry with
      meters := b.registry.meters.filter b.isLeafHeld } } :=
    .of_quiet (.of_same rfl rfl rfl) rfl (fun hl => hl) rfl
  unfold sampleAll
  dsimp only
  rw [sampleEach_fst]
  exact x.trans
    (foldl_deliversLines
      (fun b l hb hp => ⟨sample_deliversLines hb hp l _ c h, sample_changes hp l _⟩)
    _ (h1.sound hb) (h1.plans hp))

theorem advance_deliversLines (hb : Sound b) (hp : PlansWithin Unplanned b) (nanos : Int)
    (c : ConsumerId) (h : HubId) : DeliversLines c h b (b.advance nanos) := by
  have hquiet : ∀ (b : Board) wall now due,
      DeliversLines c h b { b with wall := wall, now := now, sampleDue := due } :=
        fun b wall now due =>
    .of_quiet (.of_same rfl rfl rfl) rfl (fun hl => hl) rfl
  have h1 : Change Unplanned (fun _ => True) b _ :=
    .clock (.ofNanos (b.wall.totalNanos + nanos)) (b.now + nanos) b.sampleDue
  have x := hquiet b (.ofNanos (b.wall.totalNanos + nanos)) (b.now + nanos) b.sampleDue
  unfold advance
  dsimp only
  split
  · split
    · refine x.trans ((sampleAll_deliversLines (h1.sound hb) (h1.plans hp) c h).trans ?_)
      exact hquiet _ _ _ _
    · exact x
  · exact x

theorem settle_deliversLines (hb : Sound b) (hp : PlansWithin Unplanned b) (c : ConsumerId)
    (h : HubId) : DeliversLines c h b b.settle := by
  refine foldl_deliversLines (fun b d hb hp => ?_) _ hb hp
  split
  · exact ⟨.refl c h b, .refl⟩
  · exact ⟨close_deliversLines hb hp d c h, close_changes hp d⟩

/-- A consumer whose receiver goes does not begin to listen. -/
theorem labelConsumer_deliversLines (b : Board) (label : String) (d : ConsumerId) (c : ConsumerId)
    (h : HubId) : DeliversLines c h b (b.labelConsumer label d) := by
  have hdrop : ∀ e, DeliversLines c h b (b.dropReceiver e).1 := by
    intro e
    unfold dropReceiver
    split
    · rename_i q hq
      refine .of_quiet (Frame.setConsumer b e _).outline rfl (fun hl => ?_) rfl
      refine hl.of_setConsumer fun hr => ?_
      cases hx : b.consumer e with
      | observer o => rw [hx] at hq; cases hq
      | channel r => rw [hx] at hr; cases hr
      | session s =>
        rw [hx] at hr
        change (s.alive && false) = true at hr
        rw [Bool.and_false] at hr
        cases hr
    · exact .refl c h b
  have hlabel : ∀ (b : Board) labels, DeliversLines c h b { b with labels := labels } :=
    fun b labels =>
    .of_quiet (.of_same rfl rfl rfl) rfl (fun hl => hl) rfl
  unfold labelConsumer
  split
  · rename_i old _
    exact (hdrop old.consumer).trans (hlabel _ _)
  · exact hlabel _ _

/-! ### Operations -/

/-- What is heard of an operation that starts on `b`. Before it publishes anything it can make a
consumer a listener, and count one more open connection. -/
def DeliversLinesFrom (c : ConsumerId) (h : HubId) (b b' : Board) : Prop :=
  ∃ m, Outline b m ∧ m.events = b.events ∧ m.connectionCount ≤ b.connectionCount + 1 ∧
    DeliversLines c h m b'

theorem DeliversLines.from (x : DeliversLines c h b b') : DeliversLinesFrom c h b b' :=
  ⟨b, .refl b, rfl, by omega, x⟩

theorem count_deliversLines (hb : Sound b) (hp : PlansWithin Unplanned b) (l : LeafId) {steps : Int}
    (hs : steps ≤ 1) (c : ConsumerId) (h : HubId) :
      DeliversLinesFrom c h b (b.count l steps).1 := by
  unfold count countWith
  split
  · rename_i n body
    have m : Move Unplanned b _ := .count l n steps body
    refine ⟨_, m.frame.outline, rfl, ?_, refresh_deliversLines (m.sound hb) (m.plans hp) l c h⟩
    by_cases hl : l = b.registry.connections
    · subst hl
      rw [connectionCount_count steps body]
      omega
    · have he : (b.modifyLeaf l fun x =>
          { x with body := .counter (n + steps), updatedAt := some b.wall }).connectionCount =
          b.connectionCount := by
        refine connectionCount_congr rfl ?_
        rw [leaf_modifyLeaf, if_neg hl]
      omega
  · rename_i m body
    have f := (Move.tick (A := Unplanned) l m steps body).frame
    exact DeliversLines.from
      (.of_quiet f.outline rfl (fun hl => hl) (connectionCount_tick steps body))
  · exact (DeliversLines.refl c h b).from

theorem subscribe_outline (b : Board) (k : HubId) (d : ConsumerId) :
    Outline b (b.subscribe k d) := by
  refine (Frame.modifyHub b ?_).outline
  unfold Hub.subscribe
  split
  · exact .refl _
  · exact ⟨rfl, rfl, rfl, rfl⟩

/-- Subscriptions of one consumer publish nothing. -/
theorem foldl_subscribe_outline (ks : List HubId) (d : ConsumerId) (b : Board) :
    Outline b (ks.foldl (fun b k => b.subscribe k d) b) ∧
      (ks.foldl (fun b k => b.subscribe k d) b).events = b.events ∧
      (ks.foldl (fun b k => b.subscribe k d) b).connectionCount = b.connectionCount := by
  induction ks generalizing b with
  | nil => exact ⟨.refl b, rfl, rfl⟩
  | cons k ks ih =>
    obtain ⟨o, he, hc⟩ := ih (b.subscribe k d)
    exact ⟨(subscribe_outline b k d).trans o, he, hc⟩

theorem connect_deliversLines (hb : Sound b) (hp : PlansWithin Unplanned b) {targets : List HubId}
    (known : targets.all b.isRegistered = true) (capacity : Nat) (c : ConsumerId) (h : HubId) :
    DeliversLinesFrom c h b (b.connect targets capacity).1 := by
  let x : Consumer := .session { queue := { capacity := max 1 capacity }, targets }
  have hx : x.PlansWithin Unplanned := nofun
  have h1 : Change Unplanned (fun _ => True) b (b.newConsumer x).1 := .newConsumer x hx rfl
  have held : ∀ k ∈ targets, (b.newConsumer x).1.isHubHeld k = true :=
    fun k hk => isHubHeld_of_isRegistered (List.all_eq_true.1 known k hk)
  -- the session subscribes before its connection is counted, and nothing is published until then
  have h2 := foldl_subscribe_changes (A := Unplanned) (E := fun _ => True) held (b.newConsumer x).2
  obtain ⟨o, he, hc⟩ := foldl_subscribe_outline targets (b.newConsumer x).2 (b.newConsumer x).1
  have o1 : Outline b (b.newConsumer x).1 := .of_same rfl rfl rfl
  have hc1 : (b.newConsumer x).1.connectionCount = b.connectionCount := rfl
  have hs := ChangesBy.sound h2 (h1.sound hb)
  have hp2 := ChangesBy.plans h2 (h1.plans hp)
  obtain ⟨m, om, hm, hle, y⟩ := count_deliversLines hs hp2 _ (Int.le_refl 1) c h
  exact ⟨m, o1.trans (o.trans om), hm.trans he, by omega, y⟩

theorem DeliversLinesFrom.trans {b'' : Board} (x : DeliversLinesFrom c h b b')
    (y : DeliversLines c h b' b'') : DeliversLinesFrom c h b b'' := by
  obtain ⟨m, o, he, hc, x⟩ := x
  exact ⟨m, o, he, hc, x.trans y⟩

theorem onlyIf_deliversLines {allowed : Bool} (hx : allowed = true → DeliversLinesFrom c h b b') :
    DeliversLinesFrom c h b (b.onlyIf allowed b') :=
  onlyIf_of (P := DeliversLinesFrom c h b) (DeliversLines.refl c h b).from hx

theorem journal_setValues (b : Board) (k : HubId) (p : String) (vs : List Literal) :
    (b.setValues k p vs).1.journal = b.journal := by
  rcases setValues_cases b k p vs with ⟨tx, l, -, -, he⟩ | ⟨-, he⟩ <;> rw [he]
  rfl

theorem journal_dropReceiver (b : Board) (d : ConsumerId) :
    (b.dropReceiver d).1.journal = b.journal := by
  unfold dropReceiver
  split <;> rfl

theorem journal_labelConsumer (b : Board) (label : String) (d : ConsumerId) :
    (b.labelConsumer label d).journal = b.journal := by
  unfold labelConsumer
  split
  · exact journal_dropReceiver b _
  · rfl

/-- **What is heard of an operation**, if it publishes anything. -/
theorem step_deliversLines (hb : Sound b) (hp : PlansWithin Unplanned b) (op : Op) (c : ConsumerId)
    (h : HubId) : (b.step op).events = b.events ∨ DeliversLinesFrom c h b (b.step op) := by
  -- most operations note nothing
  have hif : ∀ {allowed : Bool} {b' : Board}, b'.journal = b.journal →
      (b.onlyIf allowed b').events = b.events := fun hj =>
    onlyIf_of (P := fun c => c.events = b.events) rfl fun _ => events_of_journal_eq hj
  -- registrations note nothing either
  by_cases he : op.edit? = some .register
  · exact .inl (events_of_journal_eq (step_onlyRegisters hb he).journal)
  cases op with
  | finish => exact .inr (finish_deliversLines hb hp c h).from
  | increment l =>
    exact .inr (onlyIf_deliversLines fun _ => count_deliversLines hb hp l (Int.le_refl 1) c h)
  | decrement l =>
    exact .inr (onlyIf_deliversLines fun _ => count_deliversLines hb hp l (by decide) c h)
  | sample l now =>
    exact .inr (onlyIf_deliversLines fun _ => (sample_deliversLines hb hp l now c h).from)
  | sampleAll => exact .inr (sampleAll_deliversLines hb hp c h).from
  | update k time =>
    exact .inr (onlyIf_deliversLines fun held => (publish_deliversLines hb hp held time c h).from)
  | connect label targets capacity =>
    exact .inr (onlyIf_deliversLines fun known =>
      (connect_deliversLines hb hp known capacity c h).trans
        (labelConsumer_deliversLines _ label _ c h))
  | close d => exact .inr (onlyIf_deliversLines fun _ => (close_deliversLines hb hp d c h).from)
  | settle => exact .inr (settle_deliversLines hb hp c h).from
  | advance nanos => exact .inr (advance_deliversLines hb hp nanos c h).from
  | formatted k => exact .inl (hif (journal_formatted b k))
  | json k => exact .inl (hif (journal_json b k))
  | setValue k p v => exact .inl (hif (journal_setValues b k p [v]))
  | setValues k p vs => exact .inl (hif (journal_setValues b k p vs))
  | classify s p o =>
    cases o with
    | iri name => cases he rfl
    | literal v =>
      refine .inl (hif ?_)
      rw [classify]
      split
      · exact journal_setValues b _ p [v]
      · rfl
  | observe label noted answers planned =>
    exact .inl (events_of_journal_eq (journal_labelConsumer _ label _))
  | listen label capacity =>
    exact .inl (events_of_journal_eq (journal_labelConsumer _ label _))
  | receive d =>
    refine .inl (hif ?_)
    unfold receive
    split
    · split <;> rfl
    · rfl
  | takeNotes d =>
    refine .inl (hif ?_)
    unfold takeNotes
    split <;> rfl
  | dropReceiver d => exact .inl (hif (journal_dropReceiver b d))
  | dropConsumer label =>
    refine .inl (events_of_journal_eq ?_)
    show (b.dropConsumer label).1.journal = b.journal
    unfold dropConsumer
    split <;> rfl
  | openHub | makeHub | openLeaf | makeLeaf | labelLeaf | addLeaf | addMeter => cases he rfl
  | labelHub | setVolatile | openTransaction | touch | write | subscribe | unsubscribe =>
    exact .inl (hif rfl)
  | dropLeaf | abandon | setWall | stopSampler => exact .inl rfl

/-- Whether the number of open connections fits a 64-bit word, also with one more. -/
def CountFits (b : Board) : Prop :=
  InWord b.connectionCount ∧ InWord (b.connectionCount + 1)

instance (b : Board) : Decidable b.CountFits := inferInstanceAs (Decidable (_ ∧ _))

/-- What is heard of one operation, with the texts wrapped as they are afterwards. -/
theorem step_messagesMatch (hb : Sound b) (hp : PlansWithin Unplanned b) {op : Op}
    (hl : (b.step op).Listens c h) (hn : .lost c h ∉ news b (b.step op)) :
    let es := news b (b.step op)
    let wrapped := (lines h es).map ((b.step op).hub h).wrap
    (messages c h es).length = (lines h es).length ∧
      ((b.IsExposed h → Calm c h es) → messages c h es = wrapped) ∧
      (b.ShowsCount h → b.CountFits → (b.step op).CountFits → messages c h es = wrapped →
        Calm c h es) := by
  intro es wrapped
  rcases step_deliversLines hb hp op c h with he | ⟨m, o, he, hle, x⟩
  · have hes : es = [] := news_of_events (by rw [he, List.append_nil])
    have hcalm : Calm c h es := hes ▸ calm_of_noEnd fun e he => nomatch he
    refine ⟨by rw [hes]; rfl, fun _ => ?_, fun _ _ _ _ => hcalm⟩
    show messages c h es = (lines h es).map _
    rw [hes]
    rfl
  · have hnews : es = news m (b.step op) := by
      show (b.step op).events.drop b.events.length = (b.step op).events.drop m.events.length
      rw [he]
    have y := x.matched hl (hnews ▸ hn)
    have hw : ((b.step op).hub h).wrap = (m.hub h).wrap := x.outline.wrap h
    have hwrapped : wrapped = (lines h es).map (m.hub h).wrap :=
      congrArg (List.map · (lines h es)) hw
    rw [hwrapped, hnews]
    refine ⟨y.balanced, fun hc => y.aligned fun hx => hc ((o.isExposed h).1 hx), ?_⟩
    intro hs hfits hfits' hm
    -- on the way the number is at most one more than before and no less than afterwards
    have hmid : InWord m.connectionCount :=
      ⟨Int.le_trans hfits'.1.1 x.count, Int.lt_of_le_of_lt hle hfits.2.2⟩
    exact y.exact ((o.showsCount h).2 hs) hmid hfits'.1 hm

end Board

end Switchboard
