import Switchboard.Proofs.Ledger
import Switchboard.Proofs.System

/-!
# Changes of the number of open connections

The counter of open connections publishes the hub that it was registered on last. At the start
that is the system hub. As long as it is, every change of the number is published there before
anything else happens, consumers of the system hub are told, and in the end it shows the number as
it is. A registration of the counter on another hub puts an end to that.

* `run_ownsCounter`: the counter stays the system hub's own unless it is registered elsewhere.
* `count_republishes`, `count_spares`: what a change of the number does in either case.
* `connections_published`: both together, on every board that can be reached.
-/

namespace Switchboard

theorem mem_calls {c : ConsumerId} {h : HubId} {es : List Event} :
    c ∈ calls h es ↔ ∃ stays, Event.informed c h stays ∈ es := by
  unfold calls
  rw [List.mem_filterMap]
  constructor
  · rintro ⟨e, he, hc⟩
    cases e with
    | informed d k stays =>
      dsimp only at hc
      split at hc
      · rename_i hk
        cases hc
        exact ⟨stays, hk ▸ he⟩
      · cases hc
    | _ => cases hc
  · rintro ⟨stays, he⟩
    exact ⟨_, he, if_pos rfl⟩

namespace Board

variable {A : Action → Prop} {E : Edit → Prop} {b b' b'' : Board} {h : HubId}

/-! ### Who owns the counter -/

/-- A leaf changes hands only if it is registered. -/
theorem Change.owner (hc : Change A E b b') (he : ¬E .register) (l : LeafId) :
    (b'.leaf l).owner = (b.leaf l).owner := by
  have hmodify : ∀ {k : LeafId} {f : Leaf → Leaf}, (f (b.leaf k)).owner = (b.leaf k).owner →
      ((b.modifyLeaf k f).leaf l).owner = (b.leaf l).owner := by
    intro k f hf
    rw [leaf_modifyLeaf]
    split
    · rename_i hk
      subst hk
      exact hf
    · rfl
  cases hc with
  | move m => exact m.frame.owner l
  | write k vs time _ _ => exact hmodify (Leaf.owner_writeAll _ _ _)
  | sample k m m' time _ => exact hmodify rfl
  | openHub _ _ _ _ allowed | makeHub _ _ allowed | newLeaf _ _ allowed
  | enterLeaf _ _ _ allowed | labelLeaf _ _ _ allowed | addLeaf _ _ _ _ _ _ allowed =>
    exact absurd allowed he
  | _ => rfl

/-- Whether the counter of open connections is the system hub's own. -/
structure OwnsCounter (b : Board) : Prop where
  room : b.registry.connections.index < b.leaves.size
  owned : b.connectionsHub = some b.registry.system

/-- Names and labels do not matter. -/
theorem OwnsCounter.of_leaves (ho : b.OwnsCounter) (hs : b'.registry.system = b.registry.system)
    (hc : b'.registry.connections = b.registry.connections) (hl : b'.leaves = b.leaves) :
    b'.OwnsCounter where
  room := by rw [hc, hl]; exact ho.room
  owned := by
    unfold connectionsHub
    rw [hc, hs, leaf, hl]
    exact ho.owned

theorem OwnsCounter.changes (ho : b.OwnsCounter) (hb : Sound b) (he : ¬E .register)
    (hc : ChangesBy A E b b') : b'.OwnsCounter := by
  refine ⟨(hc.sound hb).connections, ?_⟩
  induction hc with
  | refl => exact ho.owned
  | tail _ hc ih =>
    obtain ⟨hs, hl⟩ := hc.system
    unfold connectionsHub at ih ⊢
    rw [hs, hl, hc.owner he, ih]

theorem OwnsCounter.addHub (ho : b.OwnsCounter) (name : String) (disk : Disk)
    (series : Option TimeSeries) : (b.addHub name disk series).OwnsCounter where
  room := by
    rw [leaves_addHub]
    exact Nat.lt_of_lt_of_le ho.room (Nat.le_add_right _ 2)
  owned := by
    show ((b.addHub name disk series).leaf b.registry.connections).owner = some b.registry.system
    rw [leaf_addHub_of_lt name disk series ho.room]
    exact ho.owned

/-- A new leaf is not the counter. -/
theorem OwnsCounter.newLeaf_ne (ho : b.OwnsCounter) (x : Leaf) :
    (b.newLeaf x).2 ≠ b.registry.connections := by
  intro he
  have hroom := ho.room
  rw [← he] at hroom
  exact absurd hroom (Nat.lt_irrefl _)

theorem OwnsCounter.newLeaf (ho : b.OwnsCounter) (x : Leaf) : (b.newLeaf x).1.OwnsCounter where
  room := by
    show _ < (b.leaves.add x).size
    rw [Store.size_add]
    exact Nat.lt_succ_of_lt ho.room
  owned := by
    show ((b.newLeaf x).1.leaf b.registry.connections).owner = some b.registry.system
    rw [leaf_newLeaf, if_neg (ho.newLeaf_ne x)]
    exact ho.owned

/-- Registering another leaf, or the counter on the system hub once more. -/
theorem OwnsCounter.addLeaf (ho : b.OwnsCounter) {k : HubId} {l : LeafId} (predicate : String)
    (hl : l = b.registry.connections → k = b.registry.system) :
    (b.addLeaf k predicate l).1.OwnsCounter := by
  cases free : (b.hub k).table.byPredicate.contains predicate with
  | true =>
    rw [Board.addLeaf, free]
    exact ho
  | false =>
    have hr := registry_addLeaf (l := l) free
    refine ⟨?_, ?_⟩
    · rw [hr]
      exact Nat.lt_of_lt_of_le ho.room (leaves_addLeaf free)
    · unfold connectionsHub
      rw [hr, leaf_addLeaf free]
      split
      · rename_i he
        rw [Leaf.attach, hl he]
      · exact ho.owned

theorem OwnsCounter.openHub (ho : b.OwnsCounter) {name : String}
    (he : b.openHub name = .ok (b', h)) : b'.OwnsCounter := by
  rcases openHub_cases he with ⟨-, rfl⟩ | ⟨id, hl, -, rfl, -⟩
  · exact ho
  · rw [newHub_true name hl]
    exact (ho.addHub name _ _).of_leaves rfl rfl rfl

/-- The leaf that a name leads to is registered under it, or is new. -/
theorem OwnsCounter.openLeaf (ho : b.OwnsCounter) {name : String} {l : LeafId}
    (he : b.openLeaf name = .ok (b', l)) :
    b'.OwnsCounter ∧ (b.leaf? name = some l ∨ l ≠ b.registry.connections) := by
  rcases openLeaf_cases he with ⟨hl, rfl⟩ | ⟨make, rfl, rfl⟩
  · exact ⟨ho, .inl hl⟩
  · exact ⟨(ho.newLeaf _).of_leaves rfl rfl rfl, .inr (ho.newLeaf_ne _)⟩

theorem OwnsCounter.addMeter (ho : b.OwnsCounter) (k : HubId) (predicate name : String) :
    (b.addMeter k predicate name).1.OwnsCounter := by
  have h1 := ho.newLeaf (.meter name b.settings.leastWindow b.now)
  have h2 := h1.addLeaf (k := k) (l := (b.newLeaf (.meter name b.settings.leastWindow b.now)).2)
    predicate fun hc => absurd hc (ho.newLeaf_ne _)
  unfold Board.addMeter
  dsimp only
  split <;> rename_i he <;> rw [he] at h2
  · exact h2.of_leaves rfl rfl rfl
  · exact h2

/-- Whether an operation registers the counter of open connections on a hub other than the system
hub. -/
def reroutes (b : Board) : Op → Bool
  | .addLeaf k _ l => l = b.registry.connections && k ≠ b.registry.system
  | .classify subject _ (.iri name) =>
    b.leaf? name = some b.registry.connections && subject ≠ Name.hubName Name.systemId
  | _ => false

/-- Whether no operation of a run does so. -/
def KeepsCounter : Board → List Op → Prop
  | _, [] => True
  | b, op :: ops => b.reroutes op = false ∧ KeepsCounter (b.step op) ops

instance : ∀ (b : Board) (ops : List Op), Decidable (b.KeepsCounter ops)
  | _, [] => .isTrue trivial
  | b, op :: ops =>
    have := instDecidableKeepsCounter (b.step op) ops
    inferInstanceAs (Decidable (_ ∧ KeepsCounter (b.step op) ops))

theorem OwnsCounter.register (ho : b.OwnsCounter) (hb : Sound b) {subject : String}
    (predicate : String) {name : String}
    (hr : b.leaf? name = some b.registry.connections → subject = Name.hubName Name.systemId) :
    (b.register subject predicate name).1.OwnsCounter := by
  unfold Board.register
  split
  · exact ho
  · rename_i b1 k h1
    have ho1 := ho.openHub h1
    -- opening a hub renames no leaf, and the system hub is there already
    have hsame : b1.leaf? name = b.leaf? name ∧
        b1.registry.connections = b.registry.connections ∧
        (subject = Name.hubName Name.systemId → k = b1.registry.system) := by
      rcases openHub_cases h1 with ⟨hn, rfl⟩ | ⟨id, hl, hn, rfl, rfl⟩
      · refine ⟨rfl, rfl, ?_⟩
        rintro rfl
        rw [hub?, hb.system] at hn
        exact (Option.some.inj hn).symm
      · refine ⟨rfl, rfl, ?_⟩
        rintro rfl
        rw [hub?, hb.system] at hn
        cases hn
    split
    · exact ho1
    · rename_i b2 l h2
      obtain ⟨ho2, hl⟩ := ho1.openLeaf h2
      have hreg : b2.registry.system = b1.registry.system ∧
          b2.registry.connections = b1.registry.connections := by
        rcases openLeaf_cases h2 with ⟨-, rfl⟩ | ⟨make, rfl, -⟩
        · exact ⟨rfl, rfl⟩
        · exact ⟨rfl, rfl⟩
      refine ho2.addLeaf predicate fun hc => ?_
      rw [hreg.2] at hc
      rw [hreg.1]
      refine hsame.2.2 (hr ?_)
      rw [← hsame.1, ← hsame.2.1, ← hc]
      exact hl.resolve_right (· hc)

/-- **An operation leaves the counter with the system hub** unless it registers it elsewhere. -/
theorem OwnsCounter.step (ho : b.OwnsCounter) (hb : Sound b) {op : Op}
    (hr : b.reroutes op = false) : (b.step op).OwnsCounter := by
  have hif : ∀ {allowed : Bool} {c : Board}, (allowed = true → c.OwnsCounter) →
      (b.onlyIf allowed c).OwnsCounter := onlyIf_of ho
  by_cases he : op.Edits .register
  · cases op with
    | openHub name => exact orElse_of (P := OwnsCounter) ho fun _ _ hopen => ho.openHub hopen
    | makeHub label name =>
      rw [Board.step, newHub_false]
      exact (ho.addHub name b.disk none).of_leaves rfl rfl rfl
    | openLeaf name => exact orElse_of (P := OwnsCounter) ho fun _ _ hopen => (ho.openLeaf hopen).1
    | makeLeaf label kind name => exact (ho.newLeaf (kind.leaf name b.now)).of_leaves rfl rfl rfl
    | labelLeaf label l => exact hif fun _ => ho.of_leaves rfl rfl rfl
    | addLeaf k predicate l =>
      refine hif fun _ => ho.addLeaf predicate fun hc => ?_
      simpa [reroutes, hc] using hr
    | addMeter label k predicate name =>
      exact hif fun _ => (ho.addMeter k predicate name).of_leaves rfl rfl rfl
    | classify subject predicate object =>
      cases object with
      | literal v => cases he
      | iri name =>
        refine hif fun _ => ?_
        rw [classify]
        split
        · refine ho.register hb predicate fun hc => ?_
          simpa [reroutes, hc] using hr
        · exact ho
    | _ => cases he
  · exact ho.changes hb he (step_changesBy hb (plansWithin_true b) op.plansWithin_true)

theorem OwnsCounter.run (ho : b.OwnsCounter) (hb : Sound b) {ops : List Op}
    (hk : b.KeepsCounter ops) : (b.run ops).OwnsCounter := by
  induction ops generalizing b with
  | nil => exact ho
  | cons op ops ih => exact ih (ho.step hb hk.1) (step_sound hb op) hk.2

/-- **The counter stays the system hub's own** unless it is registered elsewhere. -/
theorem run_ownsCounter (settings : Settings) (wall : Timestamp) {disk : Disk} (hd : disk.Sound)
    {ops : List Op} (hk : (start settings wall disk).KeepsCounter ops) :
    ((start settings wall disk).run ops).OwnsCounter := by
  have hb := sound_start settings wall disk hd
  refine OwnsCounter.run ⟨hb.connections, ?_⟩ hb hk
  rw [start_eq]
  rfl

/-! ### The counter is the system hub's own -/

/-- Everyone on a list is told, whatever those before bring about. -/
theorem mem_calls_passWith {nested : Board → HubId → Timestamp → Board}
    (hn : PublishesBy (fun _ => True) nested) (held : b.isHubHeld h = true) {c : ConsumerId}
    {cs : List ConsumerId} (hc : c ∈ cs) : c ∈ calls h (news b (passWith nested h b cs).1) := by
  induction cs generalizing b with
  | nil => cases hc
  | cons d cs ih =>
    have hi := informWith_moves hn (plansWithin_true b) d held
    have hm := hi.tail (.inform d h (b.informWith nested d h).2)
    have held' := ((Moves.frame hm).isHubHeld h).trans held
    have hrest := passWith_moves hn cs (plansWithin_true _) held'
    show c ∈ calls h (news b (passWith nested h ((b.informWith nested d h).1.note
      (.informed d h (b.informWith nested d h).2)) cs).1)
    rw [news_trans (Moves.grows hm) (Moves.grows hrest), calls_append, List.mem_append]
    rcases List.mem_cons.1 hc with rfl | hc
    · refine .inl (mem_calls.2 ⟨(b.informWith nested c h).2, ?_⟩)
      have hevents : ((b.informWith nested c h).1.note
          (.informed c h (b.informWith nested c h).2)).events =
            b.events ++ (news b (b.informWith nested c h).1 ++
              [.informed c h (b.informWith nested c h).2]) := by
        rw [events_note, events_eq_news (Moves.grows hi), List.append_assoc]
      rw [news_of_events hevents]
      exact List.mem_append_right _ List.mem_cons_self
    · exact .inr (ih held' hc)

/-- **What is seen of a change of the number of open connections** that leads to `n`: the system
hub is published first of all, with the new number and as of the present time, each of its
publications is logged, everyone that is subscribed to it is told, and in the end it shows the
number that there is by then. -/
structure Republishes (b b' : Board) (n : Int) : Prop where
  first : ∃ s line rest, news b b' = .published b.registry.system s line :: rest ∧
    s.takenAt = b.wall ∧ s.get? Name.connectionsPredicate = some [.integer n]
  shown : b'.Shown
  logged : ∀ f, (b.hub b.registry.system).file? = some f → b'.disk.content f =
    b.disk.content f ++ (lines b.registry.system (news b b')).flatMap Lines.write
  informed : ∀ c ∈ (b.hub b.registry.system).consumers,
    c ∈ calls b.registry.system (news b b')

/-- Counting connections publishes the system hub. -/
theorem count_eq_publish (ht : Tuned b) (steps : Int) :
    (b.count b.registry.connections steps).1 =
      (b.counted steps).publish b.registry.system b.wall := by
  have ht' : Tuned (b.counted steps) := ht.moves (.single (counted_move ht.sound steps))
  have howner : ((b.counted steps).leaf b.registry.connections).owner =
      some b.registry.system := ht'.owned
  rw [count, countWith_connections ht.sound, refresh, howner]
  exact if_pos (isHubHeld_system (b.counted steps))

/-- **A change of the number of open connections is published by the system hub** as long as the
counter is its own. -/
theorem count_republishes (ht : Tuned b) (steps : Int) :
    b.Republishes (b.count b.registry.connections steps).1 (b.connectionCount + steps) := by
  have hm : Moves (fun _ => True) b (b.count b.registry.connections steps).1 :=
    count_moves (plansWithin_true b) _ steps
  have hcount : Move (fun _ => True) b (b.counted steps) := (counted_move ht.sound steps).all
  have ht' : Tuned (b.counted steps) := ht.moves (.single hcount)
  have held : (b.counted steps).isHubHeld b.registry.system = true := isHubHeld_system _
  have hpost : Move (fun _ => True) (b.counted steps) _ := .post b.registry.system b.wall held
  have held' := (hpost.frame.isHubHeld b.registry.system).trans held
  have hpass := passWith_moves (publish_moves fun _ => True)
    (((b.counted steps).post b.registry.system b.wall).hub b.registry.system).consumers
    (plansWithin_true _) held'
  have heq : (b.count b.registry.connections steps).1 =
      ((b.counted steps).post b.registry.system b.wall).notifyWith publish b.registry.system := by
    rw [count_eq_publish ht, publish_eq ht'.sound held]
  -- nothing happens before the system hub is posted, and nothing after its consumers are told
  have hnews : news b (b.count b.registry.connections steps).1 =
      .published b.registry.system ((b.counted steps).posted b.registry.system b.wall)
        ((b.counted steps).postedLine b.registry.system b.wall) ::
      news ((b.counted steps).post b.registry.system b.wall)
        (passWith publish b.registry.system ((b.counted steps).post b.registry.system b.wall)
          (((b.counted steps).post b.registry.system b.wall).hub
            b.registry.system).consumers).1 := by
    rw [heq]
    show news (b.counted steps) (passWith publish b.registry.system _ _).1 = _
    rw [news_trans hpost.grows (Moves.grows hpass), news_post]
    rfl
  constructor
  case first =>
    refine ⟨_, _, _, hnews, rfl, ?_⟩
    have hget := get?_posted ht' b.wall
    rwa [connectionCount_counted ht.sound] at hget
  case shown =>
    rw [count_eq_publish ht]
    exact publish_shown _ _ _ ht' held (Nat.lt_succ_self _) (.inr rfl)
  case logged =>
    intro f hf
    have hc := ChangesBy.content (Moves.changes (E := fun _ => True) hm) ht.sound f
    have hfile : ((b.count b.registry.connections steps).1.hub b.registry.system).file? =
        some f := by
      rw [Hub.file?, ((Moves.frame hm).hub _).series]
      exact hf
    rwa [(Moves.sound hm ht.sound).fileLines_eq hfile] at hc
  case informed =>
    intro c hc
    rw [hnews]
    refine mem_calls_passWith (publish_moves _) held' ?_
    rw [consumers_post]
    exact hc

/-! ### The counter is that of another hub -/

/-- Whether a hub published nothing in between. -/
def Spares (h : HubId) (b b' : Board) : Prop :=
  ∃ es, b'.events = b.events ++ es ∧ published h es = []

theorem Spares.of_events (he : b'.events = b.events) : Spares h b b' :=
  ⟨[], he.trans (List.append_nil _).symm, rfl⟩

theorem Spares.trans (s : Spares h b b') (s' : Spares h b' b'') : Spares h b b'' := by
  obtain ⟨es, he, hq⟩ := s
  obtain ⟨fs, hf, hr⟩ := s'
  refine ⟨es ++ fs, by rw [hf, he, List.append_assoc], ?_⟩
  rw [published_append, hq, hr]
  rfl

theorem Spares.note (b : Board) {e : Event} (he : e.publication? = none) :
    Spares h b (b.note e) :=
  ⟨[e], events_note b e, published_of_quiet h (List.forall_mem_singleton.2 he)⟩

theorem Spares.published (s : Spares h b b') : published h (news b b') = [] := by
  obtain ⟨es, he, hq⟩ := s
  rwa [news_of_events he]

theorem spares_post {k : HubId} (hk : k ≠ h) (time : Timestamp) : Spares h b (b.post k time) :=
  ⟨_, events_post b k time, (published_one h k _ _).trans (if_neg hk)⟩

theorem spares_json (b : Board) (k : HubId) : Spares h b (b.json k).1 :=
  .of_events (events_of_journal_eq (journal_json b k))

theorem spares_noteOf (b : Board) (k : HubId) (noted : Noted) :
    Spares h b (b.noteOf k noted).1 := by
  cases noted with
  | wrapped => exact spares_json b k
  | text => exact .of_events (events_of_journal_eq (journal_formatted b k))
  | id => exact .of_events rfl

theorem spares_offer (b : Board) (c : ConsumerId) (q : Queue) (k : HubId) :
    Spares h b (b.offer c q k).1 := by
  rcases offer_cases b c q k with ⟨r, -, he⟩ | ⟨r, -, he⟩ | ⟨r, -, he⟩ <;> rw [he]
  · exact (spares_json b k).trans (.note _ rfl)
  · exact (spares_json b k).trans (.note _ rfl)
  · exact spares_json b k

section Inform

variable {nested : Board → HubId → Timestamp → Board}

/-- `nested` does not publish a hub, unless asked for it or for a change of the number of open
connections. -/
def SparesBy (h : HubId) (nested : Board → HubId → Timestamp → Board) : Prop :=
  ∀ b k time, Sound b → PlansWithin Unplanned b → b.isHubHeld k = true →
    b.connectionsHub ≠ some h → k ≠ h → Spares h b (nested b k time)

variable (hn : SparesBy h nested)
include hn

theorem countWith_spares (hb : Sound b) (hp : PlansWithin Unplanned b)
    (hh : b.connectionsHub ≠ some h) (steps : Int) :
    Spares h b (b.countWith nested b.registry.connections steps).1 := by
  have hm := counted_move hb steps
  have hh' : (b.counted steps).connectionsHub ≠ some h := by
    rwa [hm.frame.outline.connectionsHub]
  have h0 : Spares h b (b.counted steps) := .of_events rfl
  rw [countWith_connections hb]
  rcases refresh_cases (b.counted steps) b.registry.connections with ⟨k, hk, held, eq⟩ | eq
  · rw [eq]
    refine h0.trans (hn _ k _ (hm.sound hb) (hm.plans hp) held hh' ?_)
    rintro rfl
    exact hh' hk
  · rw [eq]
    exact h0

theorem closeWith_spares (hb : Sound b) (hp : PlansWithin Unplanned b)
    (hh : b.connectionsHub ≠ some h) (c : ConsumerId) : Spares h b (b.closeWith nested c) := by
  rcases b.closeWith_cases c with ⟨s, is, alive, eq⟩ | eq
  · have hm : Move Unplanned b _ := .finish c s is alive
    have h0 : Spares h b ((b.setConsumer c (.session { s with alive := false })).note
      (.ended c)) := .note (b.setConsumer c _) rfl
    rw [eq]
    refine h0.trans (countWith_spares hn (hm.sound hb) (hm.plans hp) ?_ (-1))
    rwa [hm.frame.outline.connectionsHub]
  · rw [eq]
    exact .of_events rfl

theorem informWith_spares (hb : Sound b) (hp : PlansWithin Unplanned b)
    (hh : b.connectionsHub ≠ some h) (c : ConsumerId) {k : HubId} (held : b.isHubHeld k = true) :
    Spares h b (b.informWith nested c k).1 := by
  unfold informWith
  split
  · rename_i o is
    -- nothing is due
    have hd : o.due = [] := List.eq_nil_iff_forall_not_mem.2 (hp.due is)
    dsimp only
    rw [hd]
    exact (spares_noteOf b k o.noted).trans (.of_events rfl)
  · rename_i q is
    have ho := spares_offer (h := h) b c q k
    split <;> rename_i he <;> rw [he] at ho <;> exact ho
  · rename_i s is
    split
    · have ho := spares_offer (h := h) b c s.queue k
      have hm := offer_moves (A := Unplanned) (q := s.queue) (by rw [is]; rfl) held
      split <;> rename_i he <;> rw [he] at ho hm
      · obtain ⟨m, -, hc⟩ := countWith_sendMeter nested (Moves.sound hm hb) 1
        rw [hc]
        exact ho.trans (.of_events rfl)
      · exact ho
      · refine ho.trans (closeWith_spares hn (Moves.sound hm hb) (Moves.plans hm hp) ?_ c)
        rwa [(Moves.outline hm).connectionsHub]
    · exact .of_events rfl

variable (hm : PublishesBy Unplanned nested)
include hm

theorem passWith_spares (hb : Sound b) (hp : PlansWithin Unplanned b)
    (hh : b.connectionsHub ≠ some h) {k : HubId} (held : b.isHubHeld k = true)
    (cs : List ConsumerId) : Spares h b (passWith nested k b cs).1 := by
  induction cs generalizing b with
  | nil => exact .of_events rfl
  | cons c cs ih =>
    have m := (informWith_moves hm hp c held).tail (.inform c k (b.informWith nested c k).2)
    have h1 := (informWith_spares hn hb hp hh c held).trans
      (.note _ (e := .informed c k (b.informWith nested c k).2) rfl)
    refine h1.trans (ih (Moves.sound m hb) (Moves.plans m hp) ?_
      (((Moves.frame m).isHubHeld k).trans held))
    rwa [(Moves.outline m).connectionsHub]

end Inform

theorem publishWithin_spares (h : HubId) (depth : Nat) : SparesBy h (publishWithin depth) := by
  have hpost : ∀ {nested : Board → HubId → Timestamp → Board}, SparesBy h nested →
      PublishesBy Unplanned nested →
      SparesBy h fun b k time => (b.post k time).notifyWith nested k := by
    intro nested hn hm b k time hb hp held hh hk
    have m : Move Unplanned b _ := .post k time held
    have hpass := passWith_spares hn hm (m.sound hb) (m.plans hp)
      (by rwa [m.frame.outline.connectionsHub]) ((m.frame.isHubHeld k).trans held)
      ((b.post k time).hub k).consumers
    exact ((spares_post hk time).trans hpass).trans (.of_events rfl)
  induction depth with
  | zero => exact hpost (fun _ _ _ _ _ _ _ _ => .of_events rfl) fun _ _ _ _ _ => .refl
  | succ n ih => exact hpost ih (publishWithin_moves _ n)

/-- **A hub is not published when the number of open connections changes** if the counter is not
its own and nothing is planned. -/
theorem count_spares (hb : Sound b) (hp : PlansWithin Unplanned b)
    (hh : b.connectionsHub ≠ some h) (steps : Int) :
    Spares h b (b.count b.registry.connections steps).1 :=
  countWith_spares (fun b k time => publishWithin_spares h b.unrest b k time) hb hp hh steps

/-! ### Either way -/

/-- **Every change of the number of open connections is published by the system hub**, as long as
the counter is its own: so it is at the start and throughout every run that does not register the
counter on another hub. If it is the counter of another hub, the system hub is not published and
goes on showing what it showed, as long as nothing is planned. -/
theorem connections_published (settings : Settings) (wall : Timestamp) {disk : Disk}
    (hd : disk.Sound) :
    (∀ ops, (start settings wall disk).KeepsCounter ops →
      ((start settings wall disk).run ops).OwnsCounter) ∧
    ∀ b, Changes (start settings wall disk) b → ∀ steps,
      let b' := (b.count b.registry.connections steps).1
      (b.connectionsHub = some b.registry.system →
        b.Republishes b' (b.connectionCount + steps)) ∧
      (b.connectionsHub ≠ some b.registry.system → PlansWithin Unplanned b →
        published b.registry.system (news b b') = [] ∧
          (b'.hub b.registry.system).snapshot = (b.hub b.registry.system).snapshot) := by
  refine ⟨fun ops hk => run_ownsCounter settings wall hd hk, fun b hc steps => ?_⟩
  have hb := ChangesBy.sound hc (sound_start settings wall disk hd)
  intro b'
  refine ⟨fun ho => ?_, fun hne hp => ?_⟩
  · exact count_republishes ⟨hb, ChangesBy.isWired hc (isWired_start settings wall disk), ho⟩ steps
  · have hm : Moves Unplanned b b' := count_moves hp _ steps
    have hnone := (count_spares hb hp hne steps).published
    refine ⟨hnone, ?_⟩
    rw [snapshot_of_changes hc, snapshot_of_changes
      (hc.trans (Moves.changes (E := fun _ => True) hm).all),
      events_eq_news (Moves.grows hm), published_append, hnone, List.append_nil]

/-- A triple registers the counter of open connections on another hub. -/
def counterMoved : List Op :=
  [.openTransaction .triple,
    .classify (Name.hubName "r") "http://x/c" (.iri Name.connectionsLeaf), .finish]

/-- At the start one more connection is published by the system hub. After the counter was
registered on another hub it is published there, and the system hub shows nothing. -/
theorem connections_published_counterMoved :
    let a := start {} default {}
    let b := a.run counterMoved
    let b' := (b.count b.registry.connections 1).1
    a.Republishes (a.count a.registry.connections 1).1 (a.connectionCount + 1) ∧
    (a.run [.connect "A" [⟨0⟩] 4]).OwnsCounter ∧
    b.connectionsHub = some ⟨1⟩ ∧ b.registry.system = ⟨0⟩ ∧ b'.connectionCount = 1 ∧
    (published ⟨1⟩ (news b b')).length = 1 ∧ published ⟨0⟩ (news b b') = [] ∧
    (b'.hub ⟨0⟩).snapshot = none := by
  intro a b b'
  obtain ⟨hkept, hall⟩ := connections_published {} default Disk.sound_empty
  have hsound := sound_start {} default {} Disk.sound_empty
  have hp : PlansWithin Unplanned b :=
    run_plans hsound (plansWithin_start {} default {} _) (by simp [counterMoved, Op.PlansWithin])
  obtain ⟨hsystem, hmoved, hcount, hnews, hempty⟩ : b.registry.system = ⟨0⟩ ∧
      b.connectionsHub = some ⟨1⟩ ∧ b'.connectionCount = 1 ∧
      (published ⟨1⟩ (news b b')).length = 1 ∧ (b.hub ⟨0⟩).snapshot = none := by
    decide +kernel
  obtain ⟨hnone, hsame⟩ := (hall b (run_changes hsound _) 1).2 (by rw [hmoved, hsystem]; decide) hp
  rw [hsystem] at hnone hsame
  exact ⟨(hall a .refl 1).1 (by decide +kernel), hkept _ (by decide +kernel), hmoved, hsystem,
    hcount, hnews, hnone, hsame.trans hempty⟩

end Board

end Switchboard
