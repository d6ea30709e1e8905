import Switchboard.Proofs.SessionPublication

/-!
# The account of sessions

The counter of open connections is the number of sessions that were opened and have not ended, the
meter of sent messages is the number of messages that sessions accepted, and a session that has
ended gets nothing any more and is dropped by every hub that is published after its end.

* `step_handlesSessions`: one operation, if it leaves both to the sessions.
* `sessions_accounted`: every run of such operations.
-/

namespace Switchboard

/-- Whether an operation leaves it to the sessions to move the counter of open connections and the
meter of sent messages, and to subscribe themselves. -/
def Op.leavesSessions (b : Board) : Op → Bool
  | .increment l | .decrement l => b.isApart l
  | .subscribe _ c => !(b.consumer c).isSession
  | .observe _ _ _ planned => planned.all fun p => p.2.isPlain
  | _ => true

theorem Op.plansWithin_of_leavesSessions {b : Board} {op : Op} (ho : op.leavesSessions b = true) :
    op.PlansWithin Plain := by
  cases op with
  | observe label noted answers planned => exact fun p hp => List.all_eq_true.1 ho p hp
  | _ => trivial

namespace Board

variable {b b' b'' : Board} {c : ConsumerId} {h : HubId}

/-! ### Registrations -/

/-- **What registrations leave alone**: consumers, subscriptions, and the leaves that count
sessions. -/
structure KeepsSessions (b b' : Board) : Prop where
  consumers : b'.consumers = b.consumers
  connections : b'.registry.connections = b.registry.connections
  sendMeter : b'.registry.sendMeter = b.registry.sendMeter
  subscribers : ∀ h, (b'.hub h).consumers = (b.hub h).consumers

namespace KeepsSessions

protected theorem refl (b : Board) : KeepsSessions b b := ⟨rfl, rfl, rfl, fun _ => rfl⟩

protected theorem trans (x : KeepsSessions b b') (y : KeepsSessions b' b'') :
    KeepsSessions b b'' where
  consumers := y.consumers.trans x.consumers
  connections := y.connections.trans x.connections
  sendMeter := y.sendMeter.trans x.sendMeter
  subscribers h := (y.subscribers h).trans (x.subscribers h)

theorem addHub (b : Board) (name : String) (disk : Disk) (series : Option TimeSeries) :
    KeepsSessions b (b.addHub name disk series) := by
  refine ⟨rfl, rfl, rfl, fun h => ?_⟩
  rw [hub_addHub]
  split
  · rename_i hi
    rw [hub_of_size_le (Nat.le_of_eq hi)]
    rfl
  · rfl

theorem addLeaf (b : Board) (h : HubId) (predicate : String) (l : LeafId) :
    KeepsSessions b (b.addLeaf h predicate l).1 := by
  cases free : (b.hub h).table.byPredicate.contains predicate with
  | true =>
    rw [Board.addLeaf, free]
    exact .refl b
  | false =>
    rw [addLeaf_fst free]
    refine ⟨rfl, rfl, rfl, fun k => ?_⟩
    show (Board.hub (b.modifyHub h _) k).consumers = _
    rw [hub_modifyHub]
    split
    · rename_i hk
      rw [hk]
    · rfl

theorem openHub {name : String} (ho : b.openHub name = .ok (b', h)) : KeepsSessions b b' := by
  rcases openHub_cases ho with ⟨-, rfl⟩ | ⟨id, hl, -, rfl, -⟩
  · exact .refl _
  · rw [newHub_true name hl]
    exact (addHub b name (b.disk.openFile id).1 _).trans ⟨rfl, rfl, rfl, fun _ => rfl⟩

theorem openLeaf {name : String} {l : LeafId} (ho : b.openLeaf name = .ok (b', l)) :
    KeepsSessions b b' := by
  rcases openLeaf_cases ho with ⟨-, rfl⟩ | ⟨make, rfl, -⟩
  · exact .refl _
  · exact ⟨rfl, rfl, rfl, fun _ => rfl⟩

theorem addMeter (b : Board) (h : HubId) (predicate name : String) :
    KeepsSessions b (b.addMeter h predicate name).1 := by
  have x := addLeaf (b.newLeaf (.meter name b.settings.leastWindow b.now)).1 h predicate
    (b.newLeaf (.meter name b.settings.leastWindow b.now)).2
  have x0 : KeepsSessions b (b.newLeaf (.meter name b.settings.leastWindow b.now)).1 :=
    ⟨rfl, rfl, rfl, fun _ => rfl⟩
  unfold Board.addMeter
  dsimp only
  split <;> rename_i he <;> rw [he] at x
  · exact (x0.trans x).trans ⟨rfl, rfl, rfl, fun _ => rfl⟩
  · exact x0.trans x

theorem register (b : Board) (hubName predicate leafName : String) :
    KeepsSessions b (b.register hubName predicate leafName).1 := by
  unfold Board.register
  split
  · exact .refl b
  · rename_i b1 k h1
    split
    · exact openHub h1
    · rename_i b2 l h2
      exact ((openHub h1).trans (openLeaf h2)).trans (addLeaf b2 k predicate l)

end KeepsSessions

/-- An operation that registers hubs or leaves leaves sessions alone. -/
theorem step_keepsSessions {op : Op} (he : op.edit? = some .register) :
    KeepsSessions b (b.step op) := by
  have hif : ∀ {allowed : Bool} {c : Board}, KeepsSessions b c →
    KeepsSessions b (b.onlyIf allowed c) :=
    fun hc => onlyIf_of (.refl b) fun _ => hc
  cases op with
  | openHub name => exact orElse_of (.refl b) fun _ _ ho => .openHub ho
  | makeHub label name =>
    rw [step, newHub_false]
    exact (KeepsSessions.addHub b name b.disk none).trans ⟨rfl, rfl, rfl, fun _ => rfl⟩
  | openLeaf name => exact orElse_of (.refl b) fun _ _ ho => .openLeaf ho
  | makeLeaf label kind name => exact ⟨rfl, rfl, rfl, fun _ => rfl⟩
  | labelLeaf label l => exact hif ⟨rfl, rfl, rfl, fun _ => rfl⟩
  | addLeaf h predicate l => exact hif (.addLeaf b h predicate l)
  | addMeter label h predicate name =>
    exact hif ((KeepsSessions.addMeter b h predicate name).trans ⟨rfl, rfl, rfl, fun _ => rfl⟩)
  | classify subject predicate object =>
    cases object with
    | literal v => cases he
    | iri name =>
      refine hif ?_
      rw [classify]
      split
      · exact .register b subject predicate name
      · exact .refl b
  | _ => cases he

/-- **Registrations handle sessions** by leaving them alone. -/
theorem register_handlesSessions (hs : Sound b) (hb : b.TalliesSessions 0 0) {op : Op}
    (he : op.edit? = some .register) : HandlesSessions b (b.step op) := by
  have x := step_onlyRegisters hs he
  have y : KeepsSessions b (b.step op) := step_keepsSessions he
  refine .of_spared hb (.of_consumers y.connections y.sendMeter y.consumers (fun l hl => ?_)
    ⟨[], x.journal, by simp⟩) x.journal fun c h _ hm => by rwa [y.subscribers] at hm
  -- the counter and the meter are there already, and old leaves keep their content
  have room : l.index < b.leaves.size := by
    simp only [isApart, Bool.and_eq_false_iff, ne_eq, decide_not, Bool.not_eq_false',
      decide_eq_true_eq] at hl
    rcases hl with rfl | rfl
    · exact hs.connections
    · exact hs.sendMeter
  rw [Leaf.tally, x.body l room, Leaf.tally]

/-! ### Parts of operations -/

/-- A change of other parts than leaves, hubs, consumers and the journal. -/
theorem other_handlesSessions (hb : b.TalliesSessions 0 0)
    (hr : b'.registry.connections = b.registry.connections)
    (hs : b'.registry.sendMeter = b.registry.sendMeter) (hl : b'.leaves = b.leaves)
    (hh : b'.hubs = b.hubs) (hc : b'.consumers = b.consumers) (hj : b'.journal = b.journal) :
    HandlesSessions b b' := by
  refine .of_spared hb (.of_consumers hr hs hc (fun l _ => ?_) ⟨[], hj, by simp⟩) hj ?_
  · rw [leaf, hl, leaf]
  · intro c h _ hm
    rwa [hub, hh] at hm

theorem write_handlesSessions (hb : b.TalliesSessions 0 0) (l : LeafId) (vs : List Literal)
    (time : Timestamp) : HandlesSessions b (b.modifyLeaf l (·.writeAll vs time)) :=
  .of_spared hb (.modifyLeaf b (.inr (Leaf.tally_writeAll _ _ _))) rfl fun _ _ _ hm => hm

theorem setValues_handlesSessions (hb : b.TalliesSessions 0 0) (k : HubId) (predicate : String)
    (vs : List Literal) : HandlesSessions b (b.setValues k predicate vs).1 := by
  rcases setValues_cases b k predicate vs with ⟨tx, l, -, -, he⟩ | ⟨-, he⟩ <;> rw [he]
  · have x := write_handlesSessions hb l vs tx.openedAt
    exact x.trans hb (other_handlesSessions x.tallies rfl rfl rfl rfl rfl rfl)
  · exact .refl hb

theorem classify_handlesSessions (hb : b.TalliesSessions 0 0) (subject predicate : String)
    (v : Literal) : HandlesSessions b (b.classify subject predicate (.literal v)).1 := by
  rw [classify]
  split
  · exact setValues_handlesSessions hb _ predicate [v]
  · exact .refl hb

/-- A consumer that changes without being opened or ended. -/
theorem setConsumer_handlesSessions (hb : b.TalliesSessions 0 0) {x : Consumer}
    (hx : x.alive? = (b.consumer c).alive?) : HandlesSessions b (b.setConsumer c x) :=
  .of_spared hb (.setConsumer b hx) rfl fun _ _ _ hm => hm

theorem dropReceiver_handlesSessions (hb : b.TalliesSessions 0 0) (c : ConsumerId) :
    HandlesSessions b (b.dropReceiver c).1 := by
  unfold dropReceiver
  split
  · exact setConsumer_handlesSessions hb (Consumer.alive?_withQueue _ _)
  · exact .refl hb

theorem receive_handlesSessions (hb : b.TalliesSessions 0 0) (c : ConsumerId) :
    HandlesSessions b (b.receive c).1 := by
  unfold receive
  split
  · split
    · exact setConsumer_handlesSessions hb (Consumer.alive?_withQueue _ _)
    · exact .refl hb
  · exact .refl hb

theorem takeNotes_handlesSessions (hb : b.TalliesSessions 0 0) (c : ConsumerId) :
    HandlesSessions b (b.takeNotes c).1 := by
  unfold takeNotes
  split
  · rename_i o is
    exact setConsumer_handlesSessions hb (by rw [is]; rfl)
  · exact .refl hb

theorem dropConsumer_handlesSessions (hb : b.TalliesSessions 0 0) (label : String) :
    HandlesSessions b (b.dropConsumer label).1 := by
  unfold dropConsumer
  split
  · exact other_handlesSessions hb rfl rfl rfl rfl rfl rfl
  · exact .refl hb

theorem labelConsumer_handlesSessions (hb : b.TalliesSessions 0 0) (label : String)
    (c : ConsumerId) : HandlesSessions b (b.labelConsumer label c) := by
  have hd : ∀ d, HandlesSessions b (b.dropReceiver d).1 :=
    fun d => dropReceiver_handlesSessions hb d
  unfold labelConsumer
  split
  · rename_i old _
    exact (hd old.consumer).trans hb (other_handlesSessions (hd _).tallies rfl rfl rfl rfl rfl rfl)
  · exact other_handlesSessions hb rfl rfl rfl rfl rfl rfl

/-- A consumer that is no session comes in. -/
theorem newConsumer_handlesSessions (hb : b.TalliesSessions 0 0) {x : Consumer}
    (hx : x.alive? = none) (label : String) :
    HandlesSessions b ((b.newConsumer x).1.labelConsumer label (b.newConsumer x).2) := by
  have tallies : (b.newConsumer x).1.TalliesSessions 0 0 := by
    have := hb.enter (x := x) (by rw [hx]; decide)
    rwa [Consumer.isOpen, hx] at this
  have first : HandlesSessions b (b.newConsumer x).1 :=
    .of_quiet (List.append_nil _).symm (fun _ he => absurd he List.not_mem_nil) tallies
      fun _ _ _ hm => hm
  exact first.trans hb (labelConsumer_handlesSessions tallies label _)

theorem foldl_handlesSessions {α : Type} {f : Board → α → Board}
    (hf : ∀ b a, Sound b → PlansWithin Plain b → b.TalliesSessions 0 0 →
      HandlesSessions b (f b a) ∧ ChangesBy Plain (fun _ => True) b (f b a))
    (as : List α) (hs : Sound b) (hp : PlansWithin Plain b) (hb : b.TalliesSessions 0 0) :
    HandlesSessions b (as.foldl f b) := by
  induction as generalizing b with
  | nil => exact .refl hb
  | cons a as ih =>
    obtain ⟨x, hc⟩ := hf b a hs hp hb
    exact x.trans hb (ih (ChangesBy.sound hc hs) (ChangesBy.plans hc hp) x.tallies)

theorem publishAll_handlesSessions (hs : Sound b) (hp : PlansWithin Plain b)
    (hb : b.TalliesSessions 0 0)
    {ks : List HubId} (held : ∀ k ∈ ks, b.isHubHeld k = true) (time : Timestamp) :
    HandlesSessions b (b.publishAll ks time) := by
  induction ks generalizing b with
  | nil => exact .refl hb
  | cons k ks ih =>
    have hk := held k List.mem_cons_self
    have m := publish_moves Plain b k time hp hk
    have x := publish_handlesSessions b k time hs hp hb hk
    refine x.trans hb (ih (Moves.sound m hs) (Moves.plans m hp) x.tallies fun j hj => ?_)
    rw [(Moves.frame m).isHubHeld]
    exact held j (List.mem_cons_of_mem k hj)

theorem finish_handlesSessions (hs : Sound b) (hp : PlansWithin Plain b)
    (hb : b.TalliesSessions 0 0) : HandlesSessions b b.finish.1 := by
  cases ht : b.transaction with
  | none =>
    unfold finish
    rw [ht]
    exact .refl hb
  | some tx =>
    rw [finish_eq ht]
    have x := publishAll_handlesSessions hs hp hb
      (fun k hk => isHubHeld_of_touched ht hk) tx.openedAt
    exact x.trans hb (other_handlesSessions x.tallies rfl rfl rfl rfl rfl rfl)

/-- A leaf that does not count sessions moves. -/
theorem count_handlesSessions (hs : Sound b) (hp : PlansWithin Plain b) (hb : b.TalliesSessions 0 0)
    {l : LeafId}
    (hl : b.isApart l = true) (steps : Int) : HandlesSessions b (b.count l steps).1 := by
  unfold count countWith
  split
  · rename_i n body
    have m : Move Plain b _ := .count l n steps body
    have x : HandlesSessions b (b.modifyLeaf l fun x =>
        { x with body := .counter (n + steps), updatedAt := some b.wall }) :=
      .of_spared hb (.modifyLeaf b (.inl hl)) rfl fun _ _ _ hm => hm
    exact x.trans hb
      (refresh_handlesSessions publish_handlesSessions (m.sound hs) (m.plans hp) x.tallies l)
  · exact .of_spared hb (.modifyLeaf b (.inl hl)) rfl fun _ _ _ hm => hm
  · exact .refl hb

theorem sample_handlesSessions (hs : Sound b) (hp : PlansWithin Plain b)
    (hb : b.TalliesSessions 0 0) (l : LeafId)
    (now : Int) : HandlesSessions b (b.sample l now).1 := by
  -- a sample closes a window and may raise the peak, but keeps what was counted
  have hcount : ∀ m : Meter, (m.sample now).1.count = m.count := by
    intro m
    unfold Meter.sample
    split
    · split <;> rfl
    · rfl
  have hquiet : ∀ (m m' : Meter) (time : Option Timestamp), (b.leaf l).body = .meter m →
      m'.count = m.count →
      HandlesSessions b (b.modifyLeaf l ({ · with body := .meter m', updatedAt := time })) := by
    intro m m' time body hm
    refine .of_spared hb (.modifyLeaf b (.inr ?_)) rfl fun _ _ _ hm => hm
    unfold Leaf.tally
    rw [body]
    exact hm
  unfold sample
  split
  · rename_i m body
    have hm := hcount m
    split
    · rename_i m' he
      rw [he] at hm
      have h1 : Change Plain (fun _ => True) b _ := .sample l m m' (some b.wall) body
      have x := hquiet m m' (some b.wall) body hm
      exact x.trans hb
        (refresh_handlesSessions publish_handlesSessions (h1.sound hs) (h1.plans hp) x.tallies l)
    · rename_i m' he
      rw [he] at hm
      exact hquiet m m' (b.leaf l).updatedAt body hm
  · exact .refl hb

theorem sampleAll_handlesSessions (hs : Sound b) (hp : PlansWithin Plain b)
    (hb : b.TalliesSessions 0 0) : HandlesSessions b b.sampleAll.1 := by
  have h1 : Change Plain (fun _ => True) b _ := .track (b.registry.meters.filter b.isLeafHeld)
  have x : HandlesSessions b { b with registry := { b.registry with
      meters := b.registry.meters.filter b.isLeafHeld } } :=
    other_handlesSessions hb rfl rfl rfl rfl rfl rfl
  unfold sampleAll
  dsimp only
  rw [sampleEach_fst]
  exact x.trans hb (foldl_handlesSessions
    (fun b l hs hp hb => ⟨sample_handlesSessions hs hp hb l _, sample_changes hp l _⟩) _
      (h1.sound hs) (h1.plans hp) x.tallies)

theorem advance_handlesSessions (hs : Sound b) (hp : PlansWithin Plain b)
    (hb : b.TalliesSessions 0 0) (nanos : Int) : HandlesSessions b (b.advance nanos) := by
  have hclock : ∀ {b : Board} wall now due, b.TalliesSessions 0 0 →
      HandlesSessions b { b with wall := wall, now := now, sampleDue := due } := fun _ _ _ hb =>
    other_handlesSessions hb rfl rfl rfl rfl rfl rfl
  have h1 : Change Plain (fun _ => True) b _ :=
    .clock (.ofNanos (b.wall.totalNanos + nanos)) (b.now + nanos) b.sampleDue
  have x := hclock (.ofNanos (b.wall.totalNanos + nanos)) (b.now + nanos) b.sampleDue hb
  unfold advance
  dsimp only
  split
  · split
    · have y := sampleAll_handlesSessions (h1.sound hs) (h1.plans hp) x.tallies
      exact x.trans hb (y.trans x.tallies (hclock _ _ _ y.tallies))
    · exact x
  · exact x

theorem close_handlesSessions (hs : Sound b) (hp : PlansWithin Plain b) (hb : b.TalliesSessions 0 0)
    (c : ConsumerId) : HandlesSessions b (b.close c) :=
  closeWith_handlesSessions publish_handlesSessions hs hp hb c

theorem settle_handlesSessions (hs : Sound b) (hp : PlansWithin Plain b)
    (hb : b.TalliesSessions 0 0) : HandlesSessions b b.settle := by
  refine foldl_handlesSessions (fun b d hs hp hb => ?_) _ hs hp hb
  split
  · exact ⟨.refl hb, .refl⟩
  · exact ⟨close_handlesSessions hs hp hb d, close_changes hp d⟩

/-! ### Opening a session -/

theorem mem_consumers_subscribe {x : Hub} {d : ConsumerId} (hd : d ∈ (x.subscribe c).consumers) :
    d ∈ x.consumers ∨ d = c := by
  unfold Hub.subscribe at hd
  split at hd
  · exact .inl hd
  · exact (List.mem_append.1 hd).imp_right List.mem_singleton.1

/-- Subscribing one consumer subscribes no other. -/
theorem mem_subscribe {k : HubId} {d : ConsumerId} (hd : d ∈ ((b.subscribe k c).hub h).consumers) :
    d ∈ (b.hub h).consumers ∨ d = c := by
  rw [subscribe, hub_modifyHub] at hd
  split at hd
  · rename_i hk
    rw [← hk]
    exact mem_consumers_subscribe hd
  · exact .inl hd

theorem subscribe_handlesSessions (hb : b.TalliesSessions 0 0) (k : HubId) (hc : ¬ b.IsOver c) :
    HandlesSessions b (b.subscribe k c) := by
  refine .of_spared hb (.modifyHub b k _) rfl fun d h hover hd => ?_
  refine (mem_subscribe hd).resolve_right ?_
  rintro rfl
  exact hc hover

theorem foldl_subscribe_spared (ks : List HubId) (c : ConsumerId) (b : Board) :
    SparesSessions b (ks.foldl (fun b k => b.subscribe k c) b) ∧
      ∀ d h, d ∈ ((ks.foldl (fun b k => b.subscribe k c) b).hub h).consumers →
        d ∈ (b.hub h).consumers ∨ d = c := by
  induction ks generalizing b with
  | nil => exact ⟨.refl b, fun d h hd => .inl hd⟩
  | cons k ks ih =>
    obtain ⟨ha, hm⟩ := ih (b.subscribe k c)
    refine ⟨(SparesSessions.modifyHub b k _).trans ha, fun d h hd => ?_⟩
    rcases hm d h hd with hd | hd
    · exact mem_subscribe hd
    · exact .inr hd

/-- **A session is opened**: it subscribes, and is counted before anything is published. -/
theorem connect_handlesSessions (hs : Sound b) (hp : PlansWithin Plain b)
    (hb : b.TalliesSessions 0 0)
    {targets : List HubId} (known : targets.all b.isRegistered = true) (capacity : Nat) :
    HandlesSessions b (b.connect targets capacity).1 := by
  let x : Consumer := .session { queue := { capacity := max 1 capacity }, targets }
  have hx : x.PlansWithin Plain := nofun
  have h1 : Change Plain (fun _ => True) b (b.newConsumer x).1 := .newConsumer x hx rfl
  have held : ∀ k ∈ targets, (b.newConsumer x).1.isHubHeld k = true :=
    fun k hk => isHubHeld_of_isRegistered (List.all_eq_true.1 known k hk)
  have h2 := foldl_subscribe_changes (A := Plain) (E := fun _ => True) held (b.newConsumer x).2
  obtain ⟨ha, hm⟩ := foldl_subscribe_spared targets (b.newConsumer x).2 (b.newConsumer x).1
  have hev := (foldl_subscribe_outline targets (b.newConsumer x).2 (b.newConsumer x).1).2.1
  have hs2 := ChangesBy.sound h2 (h1.sound hs)
  have hp2 := ChangesBy.plans h2 (h1.plans hp)
  have hb2 := (hb.enter (x := x) nofun).spared ha
  have hreg := ha.connections
  have hdef : (b.connect targets capacity).1 = ((targets.foldl (fun b' k =>
      b'.subscribe k (b.newConsumer x).2) (b.newConsumer x).1).countWith publish
        (targets.foldl (fun b' k => b'.subscribe k (b.newConsumer x).2)
          (b.newConsumer x).1).registry.connections 1).1 := rfl
  rw [hdef]
  generalize targets.foldl (fun b' k => b'.subscribe k (b.newConsumer x).2)
    (b.newConsumer x).1 = b2 at hm hev hs2 hp2 hb2 hreg ⊢
  obtain ⟨hb3, y⟩ := counted_handlesSessions publish_handlesSessions hs2 hp2 hb2
    (show 0 - 1 + (1 : Int) = 0 from rfl)
  have hev' : (b2.counted 1).events = b.events ++ [] := hev.trans (List.append_nil _).symm
  have first : HandlesSessions b (b2.counted 1) := by
    refine .of_quiet hev' (fun _ he => nomatch he) hb3 fun d k ho hd => ?_
    -- the new session is not over, and nobody else subscribes
    refine (hm d k hd).resolve_right ?_
    rintro rfl
    have hnone : b.consumer (b.newConsumer x).2 = default := consumer_of_size_le (Nat.le_refl _)
    rw [IsOver, hnone] at ho
    cases ho
  exact first.trans hb y

/-! ### Operations -/

/-- **An operation handles sessions** if it leaves them to themselves. -/
theorem step_handlesSessions (hs : Sound b) (hp : PlansWithin Plain b) (hb : b.TalliesSessions 0 0)
    {op : Op} (ho : op.leavesSessions b = true) : HandlesSessions b (b.step op) := by
  have hif : ∀ {allowed : Bool} {b' : Board}, (allowed = true → HandlesSessions b b') →
      HandlesSessions b (b.onlyIf allowed b') := onlyIf_of (.refl hb)
  have other : ∀ {b' : Board}, b'.registry = b.registry → b'.leaves = b.leaves →
      b'.hubs = b.hubs → b'.consumers = b.consumers → b'.journal = b.journal →
        HandlesSessions b b' :=
    fun hr => other_handlesSessions hb (by rw [hr]) (by rw [hr])
  by_cases he : op.edit? = some .register
  · exact register_handlesSessions hs hb he
  cases op with
  | openHub | makeHub | openLeaf | makeLeaf | labelLeaf | addLeaf | addMeter => cases he rfl
  | labelHub label h => exact hif fun _ => other rfl rfl rfl rfl rfl
  | dropLeaf label => exact other rfl rfl rfl rfl rfl
  | setVolatile h => exact hif fun _ => narrow_handlesSessions hb fun _ hd => hd
  | openTransaction kind => exact hif fun _ => other rfl rfl rfl rfl rfl
  | touch h => exact hif fun _ => other rfl rfl rfl rfl rfl
  | setValue h predicate v => exact hif fun _ => setValues_handlesSessions hb h predicate [v]
  | setValues h predicate vs => exact hif fun _ => setValues_handlesSessions hb h predicate vs
  | classify subject predicate object =>
    cases object with
    | iri name => cases he rfl
    | literal v => exact hif fun _ => classify_handlesSessions hb subject predicate v
  | finish => exact finish_handlesSessions hs hp hb
  | abandon => exact other rfl rfl rfl rfl rfl
  | write l vs time => exact hif fun _ => write_handlesSessions hb l vs time
  | increment l => exact hif fun _ => count_handlesSessions hs hp hb ho 1
  | decrement l => exact hif fun _ => count_handlesSessions hs hp hb ho (-1)
  | sample l now => exact hif fun _ => sample_handlesSessions hs hp hb l now
  | sampleAll => exact sampleAll_handlesSessions hs hp hb
  | update h time => exact hif fun held => publish_handlesSessions b h time hs hp hb held
  | formatted h => exact hif fun _ => formatted_handlesSessions hb h
  | json h => exact hif fun _ => json_handlesSessions hb h
  | observe label noted answers planned => exact newConsumer_handlesSessions hb rfl label
  | listen label capacity => exact newConsumer_handlesSessions hb rfl label
  | connect label targets capacity =>
    refine hif fun known => ?_
    have x := connect_handlesSessions hs hp hb known capacity
    exact x.trans hb (labelConsumer_handlesSessions x.tallies label _)
  | subscribe h c =>
    refine hif fun _ => subscribe_handlesSessions hb h fun hover => ?_
    -- a session that is over is a session
    rw [Op.leavesSessions, Consumer.isSession, hover] at ho
    cases ho
  | unsubscribe h c =>
    exact hif fun _ => narrow_handlesSessions hb fun d hd => (List.mem_filter.1 hd).1
  | close c => exact hif fun _ => close_handlesSessions hs hp hb c
  | receive c => exact hif fun _ => receive_handlesSessions hb c
  | takeNotes c => exact hif fun _ => takeNotes_handlesSessions hb c
  | dropReceiver c => exact hif fun _ => dropReceiver_handlesSessions hb c
  | dropConsumer label => exact dropConsumer_handlesSessions hb label
  | settle => exact settle_handlesSessions hs hp hb
  | advance nanos => exact advance_handlesSessions hs hp hb nanos
  | setWall t => exact other rfl rfl rfl rfl rfl
  | stopSampler => exact other rfl rfl rfl rfl rfl

/-- A run of operations that leave sessions to themselves. -/
def LeavesSessions (b : Board) (ops : List Op) : Prop :=
  EachStep (fun b op => op.leavesSessions b = true) b ops

instance (b : Board) (ops : List Op) : Decidable (b.LeavesSessions ops) :=
  inferInstanceAs (Decidable (EachStep _ _ _))

theorem run_handlesSessions (hs : Sound b) (hp : PlansWithin Plain b) (hb : b.TalliesSessions 0 0)
    {ops : List Op} (ho : b.LeavesSessions ops) : HandlesSessions b (b.run ops) := by
  induction ops generalizing b with
  | nil => exact .refl hb
  | cons op ops ih =>
    obtain ⟨h1, hrest⟩ := ho
    have x := step_handlesSessions hs hp hb h1
    have hc := step_changesBy hs hp (Op.plansWithin_of_leavesSessions h1)
    exact x.trans hb (ih (ChangesBy.sound hc hs) (ChangesBy.plans hc hp) x.tallies hrest)

/-- At the start there are no sessions, and nothing is counted. -/
theorem tallies_start (settings : Settings) (wall : Timestamp) (disk : Disk) :
    (start settings wall disk).TalliesSessions 0 0 := by
  rw [start_eq]
  exact ⟨rfl, rfl, rfl, fun c => iff_of_false nofun nofun, fun c => Nat.zero_le 1, nofun,
    fun es c h text hs => by cases List.eq_nil_of_suffix_nil hs⟩

/-- **What a board accounts for of its sessions.** -/
structure Accounted (b : Board) : Prop where
  /-- The counter of open connections is the number of open sessions. -/
  connections : b.connectionCount = b.openCount
  /-- Every session that was opened is open still or has ended. -/
  total : b.openCount + b.endCount = b.sessionCount
  /-- Sessions are over that have ended, each of them once. -/
  ends : ∀ c, b.IsOver c ↔ .ended c ∈ b.events
  once : ∀ c, b.events.count (.ended c) ≤ 1
  /-- The meter has counted the messages that sessions accepted. -/
  sent : b.sendCount = b.sentCount
  /-- A session that has ended gets no message any more. -/
  silent : ∀ before c after, b.events = before ++ .ended c :: after →
    ∀ h text, .queued c h text ∉ after
  /-- A hub that was published after the end of a session has dropped it. -/
  dropped : ∀ before c after, b.events = before ++ .ended c :: after →
    ∀ h s line, .published h s line ∈ after → c ∉ (b.hub h).consumers

/-- **The account of sessions**, after every run that leaves sessions to themselves. -/
theorem sessions_accounted (settings : Settings) (wall : Timestamp) {disk : Disk}
    (hd : disk.Sound) {ops : List Op} (ho : (start settings wall disk).LeavesSessions ops) :
    ((start settings wall disk).run ops).Accounted := by
  have h0 := sound_start settings wall disk hd
  have hb0 := tallies_start settings wall disk
  have x := run_handlesSessions h0 (plansWithin_start settings wall disk Plain) hb0 ho
  have hs := run_sound h0 ops
  have hnews := news_start settings wall disk ((start settings wall disk).run ops)
  generalize (start settings wall disk).run ops = b at x hs hnews ⊢
  have hb := x.tallies
  constructor
  case connections =>
    have hcount : (b.leaf b.registry.connections).tally = b.connectionCount := by
      rw [Leaf.tally, hs.body_connections]
    rw [← hcount, hb.opened, Int.add_zero]
  case total => exact hb.total
  case ends => exact fun c => (hb.ends c).trans mem_events.symm
  case once =>
    intro c
    rw [events, List.count_reverse]
    exact hb.once c
  case sent =>
    rw [hb.sent, Int.add_zero]
  case silent =>
    intro before c after he h text hm
    -- in the journal, latest first, the message would stand on top of the end
    obtain ⟨mid, rest, rfl⟩ := List.append_of_mem hm
    have hj : b.journal = rest.reverse ++ .queued c h text :: (mid.reverse ++ .ended c ::
        before.reverse) := by
      have := congrArg List.reverse he
      simpa [events] using this
    refine hb.silent (mid.reverse ++ .ended c :: before.reverse) c h text ?_ (by simp)
    exact ⟨rest.reverse, hj.symm⟩
  case dropped =>
    intro before c after he h s line hm
    obtain ⟨mid, rest, rfl⟩ := List.append_of_mem hm
    refine x.clears c h ⟨before ++ .ended c :: mid, s, line, rest, ?_, .inr (by simp)⟩
    rw [hnews, he]
    simp

/-- Two sessions, one of them on the system hub twice. The receiver of the second goes away, the
first is closed twice, and hubs are published in between. -/
def twoSessions : List Op :=
  [.connect "A" [⟨0⟩] 1, .connect "B" [⟨0⟩, ⟨0⟩] 4, .dropReceiver ⟨1⟩, .update ⟨0⟩ default,
    .close ⟨0⟩, .close ⟨0⟩, .dropConsumer "B", .settle, .update ⟨0⟩ default]

/-- The second session ends while it is told of a publication, and its end publishes the same hub
once more. -/
theorem sessions_accounted_twoSessions :
    (start {} default {}).LeavesSessions twoSessions ∧
      ((start {} default {}).run twoSessions).Accounted ∧
      ((start {} default {}).run twoSessions).endCount = 2 ∧
      ((start {} default {}).run twoSessions).sentCount = 2 := by
  have ho : (start {} default {}).LeavesSessions twoSessions := by decide +kernel
  exact ⟨ho, sessions_accounted {} default Disk.sound_empty ho, by decide +kernel,
    by decide +kernel⟩

end Board

end Switchboard
