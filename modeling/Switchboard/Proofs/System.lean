import Switchboard.Proofs.Depth
import Switchboard.Proofs.Registration
import Switchboard.Proofs.History

/-!
# The system hub

Which hub is the system hub and which leaf the counter of open connections is settled at the start,
and so is the place of the counter among the leaves of that hub. As long as the counter publishes
the system hub, whatever else is published keeps its snapshot up to date: it is as of the present
time and shows the number of open connections.

* `Change.place`, `Change.system`: what lasts.
* `publish_shown`: publications keep the snapshot of the system hub up to date.
-/

namespace Switchboard

namespace Board

variable {A : Action → Prop} {E : Edit → Prop} {b b' : Board}

/-! ### What lasts -/

/-- **A predicate of a hub leads to one leaf for good.** -/
theorem Change.place (hc : Change A E b b') {h : HubId} {p : String} {l : LeafId}
    (hg : (b.hub h).table.byPredicate.get? p = some l) :
    (b'.hub h).table.byPredicate.get? p = some l := by
  have hmodify : ∀ {k : HubId} {f : Hub → Hub}, (f (b.hub k)).table = (b.hub k).table →
      ((b.modifyHub k f).hub h).table.byPredicate.get? p = some l := by
    intro k f hf
    rw [hub_modifyHub]
    split
    · rename_i hk
      subst hk
      rw [hf, hg]
    · exact hg
  have hh : h.index < b.hubs.size := by
    by_contra hle
    rw [hub_of_size_le (Nat.not_lt.1 hle)] at hg
    cases hg
  cases hc with
  | move m => rw [(m.frame.hub h).table, hg]
  | openHub name id legal _ _ =>
    show ((b.newHub name true).1.hub h).table.byPredicate.get? p = some l
    rw [hub_newHub_of_lt name true hh, hg]
  | makeHub label name _ =>
    show ((b.newHub name false).1.hub h).table.byPredicate.get? p = some l
    rw [hub_newHub_of_lt name false hh, hg]
  | addLeaf k predicate x _ _ free _ =>
    rw [hub_addLeaf free]
    split
    · rename_i hk
      subst hk
      show ((b.hub k).table.add predicate x).byPredicate.get? p = some l
      rw [LeafTable.byPredicate_add, Register.get?_put_of_ne _ (OnlyRegisters.ne_of_free free hg),
        hg]
    · exact hg
  | setVolatile k _ => exact hmodify rfl
  | subscribe k c _ =>
    refine hmodify ?_
    unfold Hub.subscribe
    split <;> rfl
  | unsubscribe k c _ => exact hmodify rfl
  | _ => exact hg

/-- Which hub is the system hub, and which leaf its counter, is settled at the start. -/
theorem Change.system (hc : Change A E b b') : b'.registry.system = b.registry.system ∧
    b'.registry.connections = b.registry.connections := by
  cases hc with
  | move m =>
    rw [m.frame.registry]
    exact ⟨rfl, rfl⟩
  | addLeaf k predicate l _ _ free _ =>
    rw [registry_addLeaf free]
    exact ⟨rfl, rfl⟩
  | _ => exact ⟨rfl, rfl⟩

/-- Whether the system hub shows the counter of open connections under its predicate. -/
def IsWired (b : Board) : Prop :=
  (b.hub b.registry.system).table.byPredicate.get? Name.connectionsPredicate =
    some b.registry.connections

theorem ChangesBy.isWired (hc : ChangesBy A E b b') (hw : b.IsWired) : b'.IsWired := by
  induction hc with
  | refl => exact hw
  | tail _ hc ih =>
    obtain ⟨hs, hl⟩ := hc.system
    rw [IsWired, hs, hl]
    exact hc.place ih

theorem isWired_start (settings : Settings) (wall : Timestamp) (disk : Disk) :
    (start settings wall disk).IsWired := by
  rw [start_eq]
  show (((LeafTable.mk Register.empty ⟨0⟩ ⟨1⟩).add Name.connectionsPredicate ⟨2⟩).add
    Name.sendRatePredicate ⟨3⟩).byPredicate.get? Name.connectionsPredicate = some ⟨2⟩
  decide +kernel

/-- **A sound board on which the counter of open connections is the system hub's own.** -/
structure Tuned (b : Board) : Prop where
  sound : Sound b
  wired : b.IsWired
  owned : b.connectionsHub = some b.registry.system

/-- Publications leave the counter where it is. -/
theorem Tuned.moves (ht : Tuned b) (m : Moves A b b') : Tuned b' where
  sound := Moves.sound m ht.sound
  wired := ChangesBy.isWired (Moves.changes (E := fun _ => True) m) ht.wired
  owned := by
    rw [(Moves.frame m).outline.connectionsHub, (Moves.frame m).registry]
    exact ht.owned

theorem isHubHeld_system (b : Board) : b.isHubHeld b.registry.system = true :=
  (isHubHeld_iff b _).2 (.inl rfl)

/-! ### The system hub shows the number of open connections -/

/-- Whether the system hub was published last as of the present time, with the present number of
open connections. -/
def Shown (b : Board) : Prop :=
  ∃ s, (b.hub b.registry.system).snapshot = some s ∧ s.takenAt = b.wall ∧
    s.get? Name.connectionsPredicate = some [.integer b.connectionCount]

theorem Shown.of_same (hs : b.Shown) (hr : b'.registry = b.registry) (hw : b'.wall = b.wall)
    (hc : b'.connectionCount = b.connectionCount)
    (hh : (b'.hub b.registry.system).snapshot = (b.hub b.registry.system).snapshot) :
    b'.Shown := by
  obtain ⟨s, hsnap, htime, hval⟩ := hs
  exact ⟨s, by rw [hr, hh, hsnap], by rw [htime, hw], by rw [hval, hc]⟩

/-- A published snapshot of the system hub shows the number of open connections. -/
theorem get?_posted (ht : Tuned b) (time : Timestamp) :
    (b.posted b.registry.system time).get? Name.connectionsPredicate =
      some [.integer b.connectionCount] := by
  have hstamp : (b.stamp b.registry.system time).registry = b.registry :=
    (Frame.stamp b b.registry.system time).registry
  have hsort : ((b.stamp b.registry.system time).leaf
      (b.stamp b.registry.system time).registry.connections).sort = .counter := by
    rw [hstamp, ((Frame.stamp b b.registry.system time).leaf _).sort]
    exact ht.sound.counter
  have hvalues := (values_connections hsort).2
  rw [hstamp, connectionCount_stamp] at hvalues
  rw [← hvalues]
  exact LeafTable.get?_capture ht.wired _ time

/-- Publishing the system hub brings up to date what it shows, and publishing another hub leaves
it up to date. -/
theorem shown_post (ht : Tuned b) {h : HubId} (hs : b.Shown ∨ h = b.registry.system) :
    (b.post h b.wall).Shown := by
  have hf := Frame.post b h b.wall
  by_cases hh : h = b.registry.system
  · subst hh
    refine ⟨b.posted b.registry.system b.wall, ?_, hf.wall.symm, ?_⟩
    · rw [hf.registry, hub_post, if_pos rfl]
      rfl
    · rw [connectionCount_post]
      exact get?_posted ht b.wall
  · refine (hs.resolve_right hh).of_same hf.registry hf.wall (connectionCount_post b h b.wall) ?_
    rw [hub_post, if_neg hh]

theorem Shown.json (hs : b.Shown) (h : HubId) : (b.json h).1.Shown :=
  hs.of_same (Frame.json b h).registry (Frame.json b h).wall (connectionCount_json b h)
    (snapshot_json b h _)

theorem Shown.formatted (hs : b.Shown) (h : HubId) : (b.formatted h).1.Shown :=
  hs.of_same (Frame.formatted b h).registry (Frame.formatted b h).wall
    (connectionCount_formatted b h) (snapshot_formatted b h _)

theorem Shown.noteOf (hs : b.Shown) (h : HubId) (noted : Noted) : (b.noteOf h noted).1.Shown := by
  cases noted with
  | wrapped => exact hs.json h
  | text => exact hs.formatted h
  | id => exact hs

theorem Shown.offer (hs : b.Shown) (c : ConsumerId) (q : Queue) (h : HubId) :
    (b.offer c q h).1.Shown := by
  rcases offer_cases b c q h with ⟨r, -, he⟩ | ⟨r, -, he⟩ | ⟨r, -, he⟩ <;> rw [he]
  · exact (hs.json h).of_same rfl rfl rfl rfl
  · exact (hs.json h).of_same rfl rfl rfl rfl
  · exact hs.json h

theorem Shown.modifyHub (hs : b.Shown) {k : HubId} {f : Hub → Hub}
    (hf : (f (b.hub k)).snapshot = (b.hub k).snapshot) : (b.modifyHub k f).Shown :=
  hs.of_same rfl rfl rfl (snapshot_modifyHub hf _)

/-- A change of a leaf that does not count leaves up to date what is shown. -/
theorem Shown.modifyLeaf (hs : b.Shown) {l : LeafId} {f : Leaf → Leaf}
    (hf : (f (b.leaf l)).count = (b.leaf l).count) : (b.modifyLeaf l f).Shown :=
  hs.of_same rfl rfl (connectionCount_modifyLeaf hf) rfl

section Inform

variable {nested : Board → HubId → Timestamp → Board} {depth : Nat}

/-- `nested` keeps up to date what the system hub shows, as long as consumers can bring about less
than `depth`. -/
def ShownBelow (depth : Nat) (nested : Board → HubId → Timestamp → Board) : Prop :=
  ∀ b h, Tuned b → b.isHubHeld h = true → b.unrest < depth → b.Shown ∨ h = b.registry.system →
    (nested b h b.wall).Shown

variable (hn : ShownBelow depth nested)
include hn

/-- **Moving a counter leaves up to date what the system hub shows.** It does so even if nothing
was up to date before, if it is the counter of open connections. -/
theorem shown_countWith (ht : Tuned b) (hu : b.unrest < depth) {l : LeafId} (steps : Int)
    (hs : b.Shown ∨ l = b.registry.connections) : (b.countWith nested l steps).1.Shown := by
  by_cases hl : l = b.registry.connections
  · subst hl
    have hm : Move (fun _ => True) b (b.counted steps) := (counted_move ht.sound steps).all
    have ht' : Tuned (b.counted steps) := ht.moves (.single hm)
    have held : (b.counted steps).isHubHeld b.registry.system = true := isHubHeld_system _
    have howner : ((b.counted steps).leaf b.registry.connections).owner =
        some b.registry.system := ht'.owned
    rw [countWith_connections ht.sound, refresh, howner]
    dsimp only
    rw [if_pos held]
    exact hn _ _ ht' held (Nat.lt_of_le_of_lt hm.unrest hu) (.inr rfl)
  · have hs := hs.resolve_right hl
    rcases b.countWith_cases l steps with ⟨n, body, eq⟩ | ⟨m, body, eq⟩ | eq
    · have hm : Move (fun _ => True) b _ := .count l n steps body
      -- another counter moves, and publishes its own hub
      have hs' : (b.modifyLeaf l fun x =>
          { x with body := .counter (n + steps), updatedAt := some b.wall }).Shown := by
        refine hs.of_same rfl rfl (connectionCount_congr rfl ?_) rfl
        rw [leaf_modifyLeaf, if_neg hl]
      rw [eq]
      rcases refresh_cases _ l with ⟨k, -, held, eq'⟩ | eq'
      · rw [eq']
        exact hn _ _ (ht.moves (.single hm)) held (Nat.lt_of_le_of_lt hm.unrest hu) (.inl hs')
      · rw [eq']
        exact hs'
    · rw [eq]
      refine hs.modifyLeaf ?_
      unfold Leaf.count
      rw [body]
    · rw [eq]
      exact hs

theorem shown_closeWith (ht : Tuned b) (hu : b.unrest ≤ depth) (hs : b.Shown) (c : ConsumerId) :
    (b.closeWith nested c).Shown := by
  rcases b.closeWith_cases c with ⟨s, is, alive, eq⟩ | eq
  · have hm : Move (fun _ => True) b _ := .finish c s is alive
    have hlt := unrest_ended is alive
    rw [eq]
    exact shown_countWith hn (ht.moves (.single hm)) (by omega) (-1) (.inr rfl)
  · rw [eq]
    exact hs

theorem shown_act (ht : Tuned b) (hu : b.unrest < depth) (hs : b.Shown) (a : Action) :
    (b.act nested a).Shown := by
  cases b.deed a with
  | idle _ eq =>
    rw [eq]
    exact hs
  | subscribe hub consumer h c held eq =>
    rw [eq]
    refine hs.modifyHub ?_
    unfold Hub.subscribe
    split <;> rfl
  | unsubscribe hub consumer h c held eq =>
    rw [eq]
    exact hs.modifyHub rfl
  | update hub h held eq =>
    rw [eq]
    exact hn _ _ ht held hu (.inl hs)
  | set leaf v x labelled eq =>
    rw [eq]
    exact hs.modifyLeaf (Leaf.count_writeAll _ _ _)
  | increment leaf l eq | decrement leaf l eq =>
    rw [eq]
    exact shown_countWith hn ht hu _ (.inl hs)

variable (hm : PublishesBy (fun _ => True) nested)
include hm

theorem shown_foldl_act (ht : Tuned b) (hu : b.unrest < depth) (hs : b.Shown) (as : List Action) :
    (as.foldl (act nested) b).Shown := by
  induction as generalizing b with
  | nil => exact hs
  | cons a as ih =>
    have m := act_moves hm (plansWithin_true b) (a := a) trivial
    exact ih (ht.moves m) (Nat.lt_of_le_of_lt (Moves.unrest m) hu) (shown_act hn ht hu hs a)

theorem shown_informWith (ht : Tuned b) (hu : b.unrest ≤ depth) (hs : b.Shown) (c : ConsumerId)
    {h : HubId} (held : b.isHubHeld h = true) : (b.informWith nested c h).1.Shown := by
  have hoffer : ∀ {q : Queue} {b' : Board} {d : Delivery}, (b.consumer c).queue? = some q →
      b.offer c q h = (b', d) → Tuned b' ∧ b'.unrest ≤ depth ∧ b'.Shown := by
    intro q b' d hq he
    have m := offer_moves (A := fun _ => True) hq held
    have hs' := hs.offer c q h
    rw [he] at m hs'
    exact ⟨ht.moves m, Nat.le_trans (Moves.unrest m) hu, hs'⟩
  unfold informWith
  split
  · rename_i o is
    have m := noteOf_moves (A := fun _ => True) held o.noted
    have is' : (b.noteOf h o.noted).1.consumer c = .observer o := by
      rw [consumer_noteOf]; exact is
    have hcall : Move (fun _ => True) _ _ := .call c o (b.noteOf h o.noted).2 is'
    have hs' : ((b.noteOf h o.noted).1.setConsumer c
        (.observer (o.called (b.noteOf h o.noted).2))).Shown :=
      (hs.noteOf h o.noted).of_same rfl rfl rfl rfl
    dsimp only
    by_cases hd : o.due = []
    · rw [hd]
      exact hs'
    · have hlt := unrest_called is' hd (b.noteOf h o.noted).2
      have hle := Moves.unrest m
      exact shown_foldl_act hn hm (ht.moves (m.tail hcall)) (by omega) hs' o.due
  · rename_i q is
    split <;> rename_i he <;> exact (hoffer (by rw [is]; rfl) he).2.2
  · rename_i s is
    split
    · split <;> rename_i he <;> obtain ⟨ht', hu', hs'⟩ := hoffer (q := s.queue) (by rw [is]; rfl) he
      · obtain ⟨m, body, hc⟩ := countWith_sendMeter nested ht'.sound 1
        rw [hc]
        refine hs'.modifyLeaf ?_
        unfold Leaf.count
        rw [body]
      · exact hs'
      · exact shown_closeWith hn ht' hu' hs' c
    · exact hs

theorem shown_passWith (ht : Tuned b) (hu : b.unrest ≤ depth) (hs : b.Shown) {h : HubId}
    (held : b.isHubHeld h = true) (cs : List ConsumerId) : (passWith nested h b cs).1.Shown := by
  induction cs generalizing b with
  | nil => exact hs
  | cons c cs ih =>
    have m := (informWith_moves hm (plansWithin_true b) c held).tail
      (.inform c h (b.informWith nested c h).2)
    have hs' : ((b.informWith nested c h).1.note
        (.informed c h (b.informWith nested c h).2)).Shown :=
      (shown_informWith hn hm ht hu hs c held).of_same rfl rfl rfl rfl
    exact ih (ht.moves m) (Nat.le_trans (Moves.unrest m) hu) hs'
      (((Moves.frame m).isHubHeld h).trans held)

theorem shown_notifyWith (ht : Tuned b) (hu : b.unrest ≤ depth) (hs : b.Shown) {h : HubId}
    (held : b.isHubHeld h = true) : (b.notifyWith nested h).Shown :=
  (shown_passWith hn hm ht hu hs held _).modifyHub rfl

end Inform

/-- **Publications keep up to date what the system hub shows**, however deep they are nested. -/
theorem publish_shown (depth : Nat) : ShownBelow depth publish := by
  induction depth with
  | zero => exact fun _ _ _ _ hu => absurd hu (Nat.not_lt_zero _)
  | succ n ih =>
    intro b h ht held hu hs
    have hm : Move (fun _ => True) b _ := .post h b.wall held
    rw [publish_eq ht.sound held]
    exact shown_notifyWith ih (publish_moves _) (ht.moves (.single hm))
      (Nat.le_trans hm.unrest (Nat.le_of_lt_succ hu)) (shown_post ht hs)
      ((hm.frame.isHubHeld h).trans held)

end Board

end Switchboard
