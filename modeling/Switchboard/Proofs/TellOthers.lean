import Switchboard.Proofs.Delivery

/-!
# Telling the others

Between the posting of a hub and the moment at which a consumer is told of it, other consumers are
told. Nothing is planned, so all that they can bring about is the end of a session, which takes one
off the open connections and publishes the hub that shows them, nested in the publication at hand.
`TellsOthers` says what this does to a consumer: until a session ends nothing is said about the hub
and its text stays as it is, from then on the text shows fewer open connections.

`RepublishesCount` says the same of the nested publication, which shows the number that it finds.

* `TellsOthers.trans`: others are told one after another.
* `passWith_tellsOthers`: what it does to tell some consumers.
-/

namespace Switchboard

namespace Board

variable {b b' b'' : Board} {c : ConsumerId} {h : HubId}

/-- **Other consumers are told**, as a consumer `c` hears it. -/
structure TellsOthers (c : ConsumerId) (h : HubId) (b b' : Board) : Prop where
  moves : Moves Unplanned b b'
  count : b'.connectionCount ≤ b.connectionCount
  matched : b'.Listens c h → .lost c h ∉ news b b' → MessagesMatch c h b b'
  silent : SilentAtFirst c h (news b b')
  still : b.Fresh h → NoEnd (news b b') → b'.text h = b.text h
  hidden : b.Fresh h → ¬b.IsExposed h → b'.text h = b.text h ∧ Silent c h (news b b')
  shown : b'.Listens c h → .lost c h ∉ news b b' → b.Fresh h → b.isHubHeld h = true →
    b.ShowsCount h → ¬NoEnd (news b b') → ∀ t ∈ messages c h (news b b') ++ [b'.text h],
      ∃ n, b'.connectionCount ≤ n ∧ n < b.connectionCount ∧ b.Reads h t n

/-- **The publication that a session end brings about**, as a consumer `c` hears it. -/
structure RepublishesCount (c : ConsumerId) (h : HubId) (b b' : Board) : Prop where
  moves : Moves Unplanned b b'
  count : b'.connectionCount ≤ b.connectionCount
  matched : b'.Listens c h → .lost c h ∉ news b b' → MessagesMatch c h b b'
  hidden : b.Fresh h → ¬b.IsExposed h → b'.text h = b.text h ∧ Silent c h (news b b')
  shown : b'.Listens c h → .lost c h ∉ news b b' → b.isHubHeld h = true → b.ShowsCount h →
    ∀ t ∈ messages c h (news b b') ++ [b'.text h],
      ∃ n, b'.connectionCount ≤ n ∧ n ≤ b.connectionCount ∧ b.Reads h t n

theorem Moves.outline (m : Moves Unplanned b b') : Outline b b' := (Moves.frame m).outline

theorem TellsOthers.deliversLines (t : TellsOthers c h b b') : DeliversLines c h b b' where
  outline := Moves.outline t.moves
  grows := Moves.grows t.moves
  listens := Moves.listens t.moves
  count := t.count
  matched := t.matched

theorem RepublishesCount.deliversLines (w : RepublishesCount c h b b') :
    DeliversLines c h b b' where
  outline := Moves.outline w.moves
  grows := Moves.grows w.moves
  listens := Moves.listens w.moves
  count := w.count
  matched := w.matched

/-! ### Turns follow one another -/

theorem TellsOthers.trans (t : TellsOthers c h b b') (t' : TellsOthers c h b' b'') :
    TellsOthers c h b b'' := by
  have hnews := news_trans (Moves.grows t.moves) (Moves.grows t'.moves)
  have o := Moves.outline t.moves
  have hfresh : b.Fresh h → b'.Fresh h := Moves.fresh t.moves
  constructor
  case moves => exact t.moves.trans t'.moves
  case count => exact Int.le_trans t'.count t.count
  case matched => exact (t.deliversLines.trans t'.deliversLines).matched
  case silent =>
    rw [hnews]
    exact t.silent.append t'.silent
  case still =>
    intro hf hn
    rw [hnews, noEnd_append] at hn
    rw [t'.still (hfresh hf) hn.2, t.still hf hn.1]
  case hidden =>
    intro hf hx
    obtain ⟨ht, hs⟩ := t.hidden hf hx
    obtain ⟨ht', hs'⟩ := t'.hidden (hfresh hf) fun hx' => hx ((o.isExposed h).1 hx')
    rw [hnews]
    exact ⟨ht'.trans ht, hs.append hs'⟩
  case shown =>
    intro hl hn hf hh hs hend u hu
    rw [hnews, List.mem_append, not_or] at hn
    have hl' := Moves.listens t'.moves hl
    have hh' : b'.isHubHeld h = true := ((Moves.frame t.moves).isHubHeld h).trans hh
    have hs' := (o.showsCount h).2 hs
    rw [hnews, messages_append, List.append_assoc, List.mem_append] at hu
    by_cases hend' : NoEnd (news b' b'')
    · -- the second part is still, so a session ended in the first one
      have hend1 : ¬NoEnd (news b b') := fun hn => hend (hnews ▸ noEnd_append.2 ⟨hn, hend'⟩)
      rw [(t'.silent.silent hend').2, List.nil_append, t'.still (hfresh hf) hend'] at hu
      obtain ⟨n, hlo, hhi, hr⟩ := t.shown hl' hn.1 hf hh hs hend1 u (List.mem_append.2 hu)
      exact ⟨n, Int.le_trans t'.count hlo, hhi, hr⟩
    · rcases hu with hu | hu
      · -- a message of the first part, in which a session ended then
        have hend1 : ¬NoEnd (news b b') := by
          intro hn
          rw [(t.silent.silent hn).2] at hu
          cases hu
        obtain ⟨n, hlo, hhi, hr⟩ := t.shown hl' hn.1 hf hh hs hend1 u (List.mem_append_left _ hu)
        exact ⟨n, Int.le_trans t'.count hlo, hhi, hr⟩
      · obtain ⟨n, hlo, hhi, hr⟩ := t'.shown hl hn.2 (hfresh hf) hh' hs' hend' u hu
        exact ⟨n, hlo, Int.lt_of_lt_of_le hhi t.count, hr.of_outline o⟩

/-- Nothing is said about the hub, and nothing ends. -/
theorem TellsOthers.of_still (m : Moves Unplanned b b')
    (hc : b'.connectionCount = b.connectionCount)
    {es : List Event} (he : b'.events = b.events ++ es)
    (hq : ∀ e ∈ es, e.isEnd = false ∧ e.isAbout c h = false)
    (ht : b.Fresh h → b'.text h = b.text h) : TellsOthers c h b b' := by
  have hnews : news b b' = es := news_of_events he
  have hend : NoEnd es := fun e hm => (hq e hm).1
  have hsilent : Silent c h es := silent_of_forall fun e hm => (hq e hm).2
  constructor
  case moves => exact m
  case count => exact Int.le_of_eq hc
  case matched =>
    intro _ _
    exact messagesMatch_of_silent (hnews ▸ hsilent) (hnews ▸ calm_of_noEnd hend)
  case silent =>
    rw [hnews]
    exact silentAtFirst_of_silent fun e hm => (hq e hm).2
  case still => exact fun hf _ => ht hf
  case hidden => exact fun hf _ => ⟨ht hf, hnews ▸ hsilent⟩
  case shown => exact fun _ _ _ _ _ hn => absurd (hnews ▸ hend) hn

protected theorem TellsOthers.refl (c : ConsumerId) (h : HubId) (b : Board) : TellsOthers c h b b :=
  .of_still .refl rfl (List.append_nil _).symm (fun _ he => nomatch he) fun _ => rfl

/-! ### The end of a session -/

/-- The counter of open connections counts them. -/
theorem Sound.body_connections (hb : Sound b) :
    (b.leaf b.registry.connections).body = .counter b.connectionCount := by
  have hc := hb.counter
  unfold connectionCount
  unfold Leaf.sort at hc
  cases hbody : (b.leaf b.registry.connections).body with
  | counter n => rfl
  | scalar v => rw [hbody] at hc; cases hc
  | array vs => rw [hbody] at hc; cases hc
  | meter m => rw [hbody] at hc; cases hc

/-- A board on which some number of connections was added, and nothing published yet. -/
def counted (b : Board) (steps : Int) : Board :=
  b.modifyLeaf b.registry.connections fun x =>
    { x with body := .counter (b.connectionCount + steps), updatedAt := some b.wall }

theorem counted_move (hb : Sound b) (steps : Int) : Move Unplanned b (b.counted steps) :=
  .count b.registry.connections b.connectionCount steps hb.body_connections

theorem connectionCount_counted (hb : Sound b) (steps : Int) :
    (b.counted steps).connectionCount = b.connectionCount + steps :=
  connectionCount_count steps hb.body_connections

/-- To count connections is to move their counter and to publish its owner. -/
theorem countWith_connections (hb : Sound b) (nested : Board → HubId → Timestamp → Board)
    (steps : Int) : (b.countWith nested b.registry.connections steps).1 =
      (b.counted steps).refresh nested b.registry.connections := by
  unfold countWith
  rw [hb.body_connections]
  rfl

section Nested

variable {nested : Board → HubId → Timestamp → Board} {depth : Nat}

/-- `nested` publishes as session ends do, as long as consumers can bring about less than
`depth`. -/
def RepublishesCountBelow (c : ConsumerId) (h : HubId) (nested : Board → HubId → Timestamp → Board)
    (depth : Nat) : Prop :=
  ∀ b k time, Sound b → PlansWithin Unplanned b → b.connectionsHub = some k →
    b.isHubHeld k = true → b.unrest < depth → RepublishesCount c h b (nested b k time)

/-- If the hub that would be published is gone, nothing happens. -/
theorem republishesCount_of_unheld (hn : ∀ k, b.connectionsHub = some k → b.isHubHeld k = false) :
    RepublishesCount c h b b := by
  have t := TellsOthers.refl c h b
  refine ⟨.refl, Int.le_refl _, t.matched, t.hidden, fun _ _ hh hs u hu => ?_⟩
  rw [news_self] at hu
  rw [List.mem_singleton.1 hu]
  refine ⟨b.connectionCount, Int.le_refl _, Int.le_refl _, reads_live ?_⟩
  rcases hs with hs | ⟨hv, -⟩
  · rw [hn h hs] at hh
    cases hh
  · exact hv

theorem refresh_republishesCount (hw : RepublishesCountBelow c h nested depth) (hb : Sound b)
    (hp : PlansWithin Unplanned b) (hu : b.unrest < depth) :
    RepublishesCount c h b (b.refresh nested b.registry.connections) := by
  unfold refresh
  split
  · rename_i k hk
    split
    · rename_i held
      exact hw b k b.wall hb hp hk held hu
    · rename_i held
      refine republishesCount_of_unheld fun k' hk' => ?_
      cases hk.symm.trans hk'
      exact Bool.not_eq_true _ ▸ held
  · rename_i hk
    exact republishesCount_of_unheld fun k' hk' => nomatch hk.symm.trans hk'

/-- A session end and the publication that it brings about. -/
theorem RepublishesCount.tellsOthers {d : ConsumerId} (m : Moves Unplanned b b')
    (hev : b'.events = b.events ++ [.ended d]) (hc : b'.connectionCount < b.connectionCount)
    (ht : b.Fresh h → ¬b.IsExposed h → b'.text h = b.text h) (w : RepublishesCount c h b' b'') :
    TellsOthers c h b b'' := by
  have o := Moves.outline m
  have hend : news b b' = [.ended d] := news_of_events hev
  have hnews : news b b'' = .ended d :: news b' b'' := by
    rw [news_trans (Moves.grows m) (Moves.grows w.moves), hend]
    rfl
  have hsilent : Silent c h [.ended d] := ⟨rfl, rfl⟩
  have first : DeliversLines c h b b' := by
    refine ⟨o, Moves.grows m, Moves.listens m, Int.le_of_lt hc, fun _ _ => ?_⟩
    refine messagesMatch_of_silent (hend ▸ hsilent) ?_
    rw [hend]
    rintro (_ | ⟨e, pre⟩) s post he
    · exact Nat.le_refl 0
    · simp at he
  constructor
  case moves => exact m.trans w.moves
  case count => exact Int.le_trans w.count (Int.le_of_lt hc)
  case matched => exact (first.trans w.deliversLines).matched
  case silent =>
    rw [hnews]
    exact silentAtFirst_ended d _
  case still =>
    intro _ hn
    have := hn (.ended d) (hnews ▸ List.mem_cons_self)
    cases this
  case hidden =>
    intro hf hx
    obtain ⟨hw, hs⟩ := w.hidden (Moves.fresh m hf) fun hx' => hx ((o.isExposed h).1 hx')
    rw [hnews]
    exact ⟨hw.trans (ht hf hx), hsilent.append hs⟩
  case shown =>
    intro hl hn _ hh hs _ u hu
    rw [hnews] at hn hu
    have hh' : b'.isHubHeld h = true := ((Moves.frame m).isHubHeld h).trans hh
    obtain ⟨n, hlo, hhi, hr⟩ :=
      w.shown hl (fun he => hn (List.mem_cons_of_mem _ he)) hh' ((o.showsCount h).2 hs) u hu
    exact ⟨n, hlo, Int.lt_of_le_of_lt hhi hc, hr.of_outline o⟩

/-- **A session ends.** What is said afterwards shows one connection less. -/
theorem closeWith_tellsOthers (hw : RepublishesCountBelow c h nested depth) (hb : Sound b)
    (hp : PlansWithin Unplanned b) (hu : b.unrest ≤ depth) (d : ConsumerId) :
    TellsOthers c h b (b.closeWith nested d) := by
  rcases b.closeWith_cases d with ⟨s, is, alive, eq⟩ | eq
  · have m1 : Move Unplanned b _ := .finish d s is alive
    have hunrest := unrest_ended is alive
    have hev := events_note (b.setConsumer d (.session { s with alive := false })) (.ended d)
    have ht1 : b.Fresh h →
        ((b.setConsumer d (.session { s with alive := false })).note (.ended d)).text h =
          b.text h := fun hf => text_of_leaves hb hf (.refl _) rfl fun _ => rfl
    have hc1 : ((b.setConsumer d (.session { s with alive := false })).note
        (.ended d)).connectionCount = b.connectionCount := rfl
    rw [eq]
    generalize (b.setConsumer d (.session { s with alive := false })).note (.ended d) = b1
      at m1 hunrest hev ht1 hc1 ⊢
    have hb1 := m1.sound hb
    have m2 := counted_move hb1 (-1)
    have hc2 := connectionCount_counted hb1 (-1)
    have hunrest2 := m2.unrest
    have w : RepublishesCount c h (b1.counted (-1)) _ :=
      refresh_republishesCount hw (m2.sound hb1) (m2.plans (m1.plans hp)) (by omega)
    have hreg : b1.registry = b.registry := m1.frame.registry
    rw [← hreg, countWith_connections hb1]
    refine RepublishesCount.tellsOthers ((Relation.ReflTransGen.single m1).tail m2) hev
      (by omega) ?_ w
    intro hf hx
    have hx1 : ¬b1.IsExposed h := fun hx' => hx ((m1.frame.outline.isExposed h).1 hx')
    exact (text_count hb1 (m1.fresh hf) hx1 _).trans (ht1 hf)
  · rw [eq]
    exact .refl c h b

/-! ### Telling another consumer -/

omit nested depth in
theorem json_tellsOthers (hb : Sound b) {k : HubId} (held : b.isHubHeld k = true) :
    TellsOthers c h b (b.json k).1 := by
  have hev : (b.json k).1.events = b.events ++ [] := by
    rw [events_of_journal_eq (journal_json b k), List.append_nil]
  exact .of_still (.single (.json k held)) (connectionCount_json b k) hev
    (fun _ he => nomatch he) fun hf => text_json hb hf k

omit nested depth in
theorem formatted_tellsOthers (hb : Sound b) {k : HubId} (held : b.isHubHeld k = true) :
    TellsOthers c h b (b.formatted k).1 := by
  have hev : (b.formatted k).1.events = b.events ++ [] := by
    rw [events_of_journal_eq (journal_formatted b k), List.append_nil]
  exact .of_still (.single (.formatted k held)) (connectionCount_formatted b k) hev
    (fun _ he => nomatch he) fun hf => text_formatted hb hf k

omit nested depth in
/-- A message about another hub, or to another consumer. -/
theorem offer_tellsOthers (hb : Sound b) {d : ConsumerId} {q : Queue}
    (hq : (b.consumer d).queue? = some q) {k : HubId} (held : b.isHubHeld k = true)
    (hne : ¬(d = c ∧ k = h)) : TellsOthers c h b (b.offer d q k).1 := by
  have t := json_tellsOthers (c := c) (h := h) hb held
  have hb' : Sound (b.json k).1 := (Move.json (A := Unplanned) k held).sound hb
  have hq' : ((b.json k).1.consumer d).queue? = some q := by
    rw [consumer_json]
    exact hq
  rcases offer_cases b d q k with ⟨r, ho, he⟩ | ⟨r, -, he⟩ | ⟨r, -, he⟩ <;> rw [he]
  · refine t.trans (.of_still (.single (.queue d q r k _ hq' ho)) rfl (events_note _ _) ?_ ?_)
    · rintro e (_ | ⟨_, ⟨⟩⟩)
      exact ⟨rfl, decide_eq_false hne⟩
    · exact fun hf => text_of_leaves hb' hf (.refl _) rfl fun _ => rfl
  · refine t.trans (.of_still (.single (.lose d k)) rfl (events_note _ _) ?_ ?_)
    · rintro e (_ | ⟨_, ⟨⟩⟩)
      exact ⟨rfl, rfl⟩
    · exact fun hf => text_note hb' hf _
  · exact t

variable (nested) in
/-- A meter moves without a publication. -/
theorem countWith_meter {l : LeafId} (hl : (b.leaf l).sort = .meter) (steps : Int) : ∃ m : Meter,
    (b.leaf l).body = .meter m ∧ (b.countWith nested l steps).1 = b.modifyLeaf l
        fun x => { x with body := .meter { m with count := m.count + steps } } := by
  unfold Leaf.sort at hl
  unfold countWith
  cases hbody : (b.leaf l).body with
  | meter m => exact ⟨m, rfl, rfl⟩
  | scalar v => rw [hbody] at hl; cases hl
  | array vs => rw [hbody] at hl; cases hl
  | counter n => rw [hbody] at hl; cases hl

variable (nested) in
/-- A sent message is counted without a publication. -/
theorem countWith_sendMeter (hb : Sound b) (steps : Int) : ∃ m : Meter,
    (b.leaf b.registry.sendMeter).body = .meter m ∧
      (b.countWith nested b.registry.sendMeter steps).1 = b.modifyLeaf b.registry.sendMeter
        fun x => { x with body := .meter { m with count := m.count + steps } } :=
  countWith_meter nested hb.meter steps

theorem sendMeter_tellsOthers (hb : Sound b) (steps : Int) :
    TellsOthers c h b (b.countWith nested b.registry.sendMeter steps).1 := by
  obtain ⟨m, body, he⟩ := countWith_sendMeter nested hb steps
  rw [he]
  exact .of_still (.single (.tick _ m steps body)) (connectionCount_tick steps body)
    (List.append_nil _).symm (fun _ he => nomatch he) fun hf => text_tick hb hf steps body

/-- **Another consumer is told**, or the consumer itself of another hub. -/
theorem informWith_tellsOthers (hw : RepublishesCountBelow c h nested depth) (hb : Sound b)
    (hp : PlansWithin Unplanned b) (hu : b.unrest ≤ depth) {d : ConsumerId} {k : HubId}
    (held : b.isHubHeld k = true) (hne : ¬(d = c ∧ k = h)) :
    TellsOthers c h b (b.informWith nested d k).1 := by
  unfold informWith
  split
  · rename_i o is
    -- an observer has nothing planned, so it only notes
    have hdue : o.due = [] := List.eq_nil_iff_forall_not_mem.2 fun a ha => hp.due is a ha
    dsimp only
    rw [hdue, List.foldl_nil]
    have t : TellsOthers c h b (b.noteOf k o.noted).1 := by
      cases o.noted with
      | wrapped => exact json_tellsOthers hb held
      | text => exact formatted_tellsOthers hb held
      | id => exact .refl c h b
    have hb' : Sound (b.noteOf k o.noted).1 := Moves.sound t.moves hb
    have is' : (b.noteOf k o.noted).1.consumer d = .observer o := by
      rw [consumer_noteOf]
      exact is
    refine t.trans (.of_still (.single (.call d o (b.noteOf k o.noted).2 is')) rfl
      (List.append_nil _).symm (fun _ he => nomatch he) fun hf => ?_)
    exact text_setConsumer hb' hf _ _
  · rename_i q is
    have t := offer_tellsOthers (c := c) (h := h) hb (d := d) (q := q) (by rw [is]; rfl) held hne
    split <;> rename_i he <;> rw [he] at t <;> exact t
  · rename_i s is
    split
    · have t := offer_tellsOthers (c := c) (h := h) hb (d := d) (q := s.queue)
        (by rw [is]; rfl) held hne
      split <;> rename_i he <;> rw [he] at t
      · exact t.trans (sendMeter_tellsOthers (Moves.sound t.moves hb) 1)
      · exact t
      · have hu' := Nat.le_trans (Moves.unrest t.moves) hu
        exact t.trans
          (closeWith_tellsOthers hw (Moves.sound t.moves hb) (Moves.plans t.moves hp) hu' d)
    · exact .refl c h b

/-- **Some consumers are told**: others than `c`, or all consumers of another hub. -/
theorem passWith_tellsOthers (hw : RepublishesCountBelow c h nested depth) (hb : Sound b)
    (hp : PlansWithin Unplanned b) (hu : b.unrest ≤ depth) {k : HubId}
    (held : b.isHubHeld k = true) (cs : List ConsumerId) (hne : ∀ d ∈ cs, ¬(d = c ∧ k = h)) :
    TellsOthers c h b (passWith nested k b cs).1 := by
  induction cs generalizing b with
  | nil => exact .refl c h b
  | cons d cs ih =>
    have t := informWith_tellsOthers hw hb hp hu held (hne d List.mem_cons_self)
    have hb1 := Moves.sound t.moves hb
    have t1 : TellsOthers c h (b.informWith nested d k).1 ((b.informWith nested d k).1.note
        (.informed d k (b.informWith nested d k).2)) := by
      refine .of_still (.single (.inform d k _)) rfl (events_note _ _) ?_ fun hf =>
        text_note hb1 hf _
      rintro e (_ | ⟨_, ⟨⟩⟩)
      exact ⟨rfl, rfl⟩
    -- the answer is noted, and then the others are told
    have t2 := t.trans t1
    exact t2.trans (ih (Moves.sound t2.moves hb) (Moves.plans t2.moves hp)
      (Nat.le_trans (Moves.unrest t2.moves) hu) (((Moves.frame t2.moves).isHubHeld k).trans held)
      fun e he => hne e (List.mem_cons_of_mem d he))

end Nested

end Board

end Switchboard
