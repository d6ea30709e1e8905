import Mathlib.Data.List.Perm.Basic
import Switchboard.Proofs.Course
import Switchboard.Proofs.Slots
import Switchboard.Proofs.Stages

/-!
# Commits by several workers

The touched hubs of a transaction are dealt to workers in parts. Each worker publishes its hubs one
after the other, and the steps of different workers come in any order: a schedule says whose turn it
is. A commit is done when no worker has anything left to do.

If the hubs can be published side by side, each of them goes through the same as if it were
published alone. So no order makes a difference, but for the order in which things happened to
different hubs, and the serial commit is one of the orders.

* `finishBy_each`: what becomes of each touched hub, whatever the order.
* `exists_serial`: the serial commit is one of the orders.
* `finish_interleaved`: every order has the outcome of the serial commit.
-/

namespace Switchboard

/-- What happened about hubs is the same up to its order, if it is the same about each hub. -/
theorem perm_of_about {hs : List HubId} {es fs : List Event}
    (he : ∀ e ∈ es, ∃ h ∈ hs, e.hub? = some h) (hf : ∀ e ∈ fs, ∃ h ∈ hs, e.hub? = some h)
    (ha : ∀ h ∈ hs, about h es = about h fs) : es.Perm fs := by
  rw [List.perm_iff_count]
  intro e
  by_cases hh : ∃ h ∈ hs, e.hub? = some h
  · obtain ⟨h, hh, heh⟩ := hh
    have hc : ∀ es : List Event, (about h es).count e = es.count e := fun es =>
      List.count_filter (decide_eq_true heh)
    rw [← hc es, ← hc fs, ha h hh]
  · rw [List.count_eq_zero.2 fun hm => hh (he e hm), List.count_eq_zero.2 fun hm => hh (hf e hm)]

/-! ### Workers -/

/-- A worker: the hubs that it has yet to publish, and how far it has come with the first. -/
structure Worker where
  todo : List HubId
  stage : Stage := .waiting

namespace Worker

/-- The worker of a hub and others after a step. When the hub is done it goes on with the others. -/
def next (h : HubId) (hs : List HubId) : Stage → Worker
  | .done => { todo := hs }
  | s => { todo := h :: hs, stage := s }

/-- How far the worker has come with a hub. -/
def stage? : Worker → HubId → Option Stage
  | ⟨[], _⟩, _ => none
  | ⟨h :: hs, s⟩, k => if k = h then some s else if k ∈ hs then some .waiting else none

theorem stage?_eq_none {w : Worker} {k : HubId} : w.stage? k = none ↔ k ∉ w.todo := by
  obtain ⟨_ | ⟨h, hs⟩, s⟩ := w
  · simp [stage?]
  · rw [stage?, List.mem_cons, not_or]
    split
    · rename_i he
      simp [he]
    · rename_i hne
      split
      · rename_i hm
        simp [hm]
      · rename_i hm
        simp [hne, hm]

/-- All hubs of a worker that begins are waiting. -/
theorem stage?_waiting (hs : List HubId) (k : HubId) :
    (Worker.mk hs .waiting).stage? k = if k ∈ hs then some .waiting else none := by
  cases hs with
  | nil => simp [stage?]
  | cons h hs =>
    rw [stage?]
    by_cases hk : k = h <;> simp [hk]

theorem stage?_next {h k : HubId} (hk : k ≠ h) (hs : List HubId) (s s' : Stage) :
    (next h hs s').stage? k = (Worker.mk (h :: hs) s).stage? k := by
  rw [stage?, if_neg hk]
  cases s' with
  | done => exact stage?_waiting hs k
  | _ => exact if_neg hk

theorem todo_next (h : HubId) (hs : List HubId) (s : Stage) :
    (next h hs s).todo.Sublist (h :: hs) := by
  cases s with
  | done => exact List.sublist_cons_self h hs
  | _ => exact List.Sublist.refl _

end Worker

/-- Workers on a board. -/
structure Crew where
  board : Board
  workers : List Worker

namespace Crew

/-- The workers at the start, one for each part. -/
def start (b : Board) (parts : List (List HubId)) : Crew := ⟨b, parts.map ({ todo := · })⟩

/-- A step of one worker. A worker that has nothing left to do rests. -/
def step (time : Timestamp) (crew : Crew) (i : Nat) : Crew :=
  match crew.workers[i]? with
  | some ⟨h :: hs, s⟩ =>
    let (b, s) := crew.board.publishStep h time s
    ⟨b, crew.workers.set i (.next h hs s)⟩
  | _ => crew

/-- The steps of workers in turn. -/
def run (time : Timestamp) (crew : Crew) (schedule : List Nat) : Crew :=
  schedule.foldl (step time) crew

/-- Whether nothing is left to do. -/
def isIdle (crew : Crew) : Bool := crew.workers.all (·.todo.isEmpty)

/-- The hubs that are left to do. -/
def todo (crew : Crew) : List HubId := crew.workers.flatMap Worker.todo

/-- How far the publication of a hub has come. -/
def stage (crew : Crew) (k : HubId) : Stage := (crew.workers.findSome? (·.stage? k)).getD .done

variable {time : Timestamp} {b b' : Board} {before after : List Worker} {h k : HubId}
  {hs : List HubId} {s : Stage}

theorem run_append (crew : Crew) (schedule rest : List Nat) :
    crew.run time (schedule ++ rest) = (crew.run time schedule).run time rest :=
  List.foldl_append

/-- The step of the worker after some others. -/
theorem step_mk : (Crew.mk b (before ++ ⟨h :: hs, s⟩ :: after)).step time before.length =
    ⟨(b.publishStep h time s).1, before ++ .next h hs (b.publishStep h time s).2 :: after⟩ := by
  unfold step
  simp

/-- A step does nothing, or it is one of a worker that has a hub to publish. -/
theorem step_cases (crew : Crew) (i : Nat) : crew.step time i = crew ∨
    ∃ b before h hs s after, crew = ⟨b, before ++ ⟨h :: hs, s⟩ :: after⟩ ∧ i = before.length := by
  obtain ⟨b, ws⟩ := crew
  cases hw : ws[i]? with
  | none =>
    left
    unfold step
    rw [hw]
  | some w =>
    obtain ⟨_ | ⟨h, hs⟩, s⟩ := w
    · left
      unfold step
      rw [hw]
    · obtain ⟨hi, he⟩ := List.getElem?_eq_some_iff.1 hw
      refine .inr ⟨b, ws.take i, h, hs, s, ws.drop (i + 1), ?_, ?_⟩
      · rw [← he, List.getElem_cons_drop, List.take_append_drop]
      · rw [List.length_take, Nat.min_eq_left (Nat.le_of_lt hi)]

theorem findSome?_eq_none {ws : List Worker} (hk : k ∉ ws.flatMap Worker.todo) :
    ws.findSome? (·.stage? k) = none := by
  rw [List.findSome?_eq_none_iff]
  exact fun w hw => Worker.stage?_eq_none.2 fun hm => hk (List.mem_flatMap.2 ⟨w, hw, hm⟩)

section Distinct

variable (distinct : (Crew.mk b (before ++ ⟨h :: hs, s⟩ :: after)).todo.Nodup)
include distinct

/-- No other worker has the hub. -/
theorem not_mem_others :
    h ∉ before.flatMap Worker.todo ∧ h ∉ hs ∧ h ∉ after.flatMap Worker.todo := by
  unfold todo at distinct
  rw [List.flatMap_append, List.flatMap_cons, List.nodup_append] at distinct
  obtain ⟨-, hd, hb⟩ := distinct
  rw [List.cons_append, List.nodup_cons, List.mem_append, not_or] at hd
  exact ⟨fun hm => hb h hm h List.mem_cons_self rfl, hd.1.1, hd.1.2⟩

/-- The stage of a worker is that of its first hub. -/
theorem stage_mk : (Crew.mk b (before ++ ⟨h :: hs, s⟩ :: after)).stage h = s := by
  obtain ⟨hb, -, -⟩ := not_mem_others distinct
  unfold stage
  rw [List.findSome?_append, findSome?_eq_none hb]
  simp [Worker.stage?]

/-- **A step moves one hub**, and the others stay where they are. -/
theorem stage_next (b' : Board) (s' : Stage) :
    (Crew.mk b' (before ++ .next h hs s' :: after)).stage k =
      if k = h then s' else (Crew.mk b (before ++ ⟨h :: hs, s⟩ :: after)).stage k := by
  obtain ⟨hb, hn, ha⟩ := not_mem_others distinct
  unfold stage
  split
  · rename_i hk
    subst hk
    rw [List.findSome?_append, findSome?_eq_none hb, List.findSome?_cons]
    cases s' with
    | done =>
      have hnone : (Worker.next k hs .done).stage? k = none := Worker.stage?_eq_none.2 hn
      rw [hnone, findSome?_eq_none ha]
      rfl
    | _ => simp [Worker.next, Worker.stage?]
  · rename_i hk
    rw [List.findSome?_append, List.findSome?_append, List.findSome?_cons, List.findSome?_cons,
      Worker.stage?_next hk hs s]

omit distinct in
theorem todo_next (b' : Board) (s' : Stage) :
    (Crew.mk b' (before ++ .next h hs s' :: after)).todo.Sublist
      (Crew.mk b (before ++ ⟨h :: hs, s⟩ :: after)).todo := by
  unfold todo
  rw [List.flatMap_append, List.flatMap_append, List.flatMap_cons, List.flatMap_cons]
  exact (List.Sublist.refl _).append ((Worker.todo_next h hs s').append (List.Sublist.refl _))

end Distinct

/-- **A step moves one hub** that is left, or it does nothing. -/
theorem step_moves {crew : Crew} (distinct : crew.todo.Nodup) (time : Timestamp) (i : Nat) :
    crew.step time i = crew ∨ ∃ h ∈ crew.todo,
      (crew.step time i).board = (crew.board.publishStep h time (crew.stage h)).1 ∧
      (∀ k, (crew.step time i).stage k =
        if k = h then (crew.board.publishStep h time (crew.stage h)).2 else crew.stage k) ∧
      (crew.step time i).todo.Sublist crew.todo := by
  rcases crew.step_cases i with he | ⟨b, before, h, hs, s, after, rfl, rfl⟩
  · exact .inl he
  · right
    have hh : h ∈ (Crew.mk b (before ++ ⟨h :: hs, s⟩ :: after)).todo := List.mem_flatMap.2
      ⟨_, List.mem_append_right _ List.mem_cons_self, List.mem_cons_self⟩
    refine ⟨h, hh, ?_⟩
    rw [step_mk, stage_mk distinct]
    exact ⟨rfl, fun k => stage_next distinct _ _, todo_next ..⟩

theorem stage_of_isIdle {crew : Crew} (hi : crew.isIdle = true) (k : HubId) :
    crew.stage k = .done := by
  unfold stage
  rw [findSome?_eq_none]
  · rfl
  · rw [List.mem_flatMap]
    rintro ⟨w, hw, hk⟩
    rw [List.isEmpty_iff.1 (List.all_eq_true.1 hi w hw)] at hk
    exact absurd hk List.not_mem_nil

theorem stage_start {parts : List (List HubId)} (hk : k ∈ parts.flatten) :
    (start b parts).stage k = .waiting := by
  unfold stage start
  induction parts with
  | nil => exact absurd hk List.not_mem_nil
  | cons part parts ih =>
    rw [List.map_cons, List.findSome?_cons, Worker.stage?_waiting]
    by_cases hp : k ∈ part
    · rw [if_pos hp]
      rfl
    · rw [if_neg hp]
      exact ih ((List.mem_append.1 (List.flatten_cons ▸ hk)).resolve_left hp)

theorem todo_start (b : Board) (parts : List (List HubId)) :
    (start b parts).todo = parts.flatten := by
  unfold todo start
  rw [List.flatMap_map]
  exact List.flatMap_id'

end Crew

namespace Board

variable {start b b' : Board} {h k : HubId} {hs : List HubId} {time : Timestamp}

/-! ### Hubs at the same time -/

/-- Whether the consumers of hubs only observe. -/
def OnlyObserved (b : Board) (hs : List HubId) : Prop :=
  ∀ h ∈ hs, ∀ c ∈ (b.hub h).consumers, (b.consumer c).observes = true

instance (b : Board) (hs : List HubId) : Decidable (b.OnlyObserved hs) :=
  inferInstanceAs (Decidable (∀ h ∈ hs, ∀ c ∈ (b.hub h).consumers, _))

/-- Whether no leaf of a hub is in a reserved slot of another one of some hubs. -/
def LeavesApart (b : Board) (h : HubId) (hs : List HubId) : Prop :=
  ∀ k ∈ hs, k ≠ h → ∀ l ∈ (b.hub h).table.leaves, (b.hub k).table.isReserved l = false

instance (b : Board) (h : HubId) (hs : List HubId) : Decidable (b.LeavesApart h hs) :=
  inferInstanceAs (Decidable (∀ k ∈ hs, k ≠ h → _))

/-- Whether no leaf is in a reserved slot of a hub and in one of another one of some hubs. -/
def SlotsApart (b : Board) (h : HubId) (hs : List HubId) : Prop :=
  ∀ k ∈ hs, k ≠ h → (b.hub k).table.isReserved ((b.hub h).table.slot .instant) = false ∧
    (b.hub k).table.isReserved ((b.hub h).table.slot .datetime) = false

instance (b : Board) (h : HubId) (hs : List HubId) : Decidable (b.SlotsApart h hs) :=
  inferInstanceAs (Decidable (∀ k ∈ hs, k ≠ h → _))

theorem SlotsApart.isReserved (ha : b.SlotsApart h hs) (hk : k ∈ hs) (hne : k ≠ h)
    (r : Name.Reserved) : (b.hub k).table.isReserved ((b.hub h).table.slot r) = false := by
  cases r with
  | instant => exact (ha k hk hne).1
  | datetime => exact (ha k hk hne).2

/-- Hubs that can be published side by side: no leaf in a reserved slot of one of them is registered
on another one, no consumer is subscribed to two of them, and their consumers only observe. -/
structure SideBySide (b : Board) (hs : List HubId) : Prop where
  slots : ∀ h ∈ hs, ∀ k ∈ hs, k ≠ h →
    ∀ l ∈ (b.hub k).table.byPredicate.values, (b.hub h).table.isReserved l = false
  consumers : ∀ h ∈ hs, ∀ k ∈ hs, k ≠ h → ∀ c ∈ (b.hub k).consumers, c ∉ (b.hub h).consumers
  observes : ∀ h ∈ hs, ∀ c ∈ (b.hub h).consumers, (b.consumer c).observes = true

/-- **No leaf of one of the hubs is in a slot of another one**, whether it is registered or one that
the hub made for itself. -/
theorem SideBySide.leavesApart (hd : SideBySide b hs) (hb : Sound b) (hp : Secluded b)
    (held : ∀ h ∈ hs, b.isHubHeld h = true) (hh : h ∈ hs) : b.LeavesApart h hs := by
  intro k hk hne l hl
  rcases (LeafTable.mem_leaves_iff _ _).1 hl with ⟨q, rfl⟩ | hl
  · by_cases ho : b.IsOwn h q
    -- a leaf that a hub made for itself is in no other slot
    · rw [Bool.eq_false_iff]
      intro hr
      obtain ⟨r, hr⟩ := LeafTable.isReserved_iff.1 hr
      exact hne (hp.apart h k q r (held h hh) (held k hk) ho hr).1
    -- and one that took over a slot is registered
    · rw [IsOwn, Bool.not_eq_false] at ho
      obtain ⟨l, hg⟩ := Option.isSome_iff_exists.1 ho
      rw [hb.slotted h q l hg]
      exact hd.slots k hk h hh hne.symm l (Register.mem_values_of_get? hg)
  · exact hd.slots k hk h hh hne.symm l hl

/-- **Nothing that one of the hubs sees belongs to another one.** -/
theorem SideBySide.clear (hd : SideBySide b hs) (hb : Sound b) (hp : Secluded b)
    (held : ∀ h ∈ hs, b.isHubHeld h = true) (hh : h ∈ hs) (hk : k ∈ hs) (hne : k ≠ h) :
    Clear b h k where
  slots := hd.leavesApart hb hp held hk h hh hne.symm
  consumers := hd.consumers h hh k hk hne
  file _ hf hf' := hne (hb.files_apart hf hf')

/-- A hub is under way after any number of its own steps. -/
theorem underway_iterate (hm : (start.leaf start.registry.sendMeter).sort = .meter)
    (ho : ∀ c ∈ (start.hub h).consumers, (start.consumer c).observes = true) (time : Timestamp)
    (n : Nat) : Underway start h ((publishNext h time)^[n] (start, .waiting)).1
      ((publishNext h time)^[n] (start, .waiting)).2 := by
  induction n with
  | zero => exact .waiting ho
  | succ n ih =>
    rw [Function.iterate_succ_apply']
    exact ih.step hm time

end Board

/-! ### Crews on their way -/

namespace Crew

open Board (Underway Within)

variable {start : Board} {time : Timestamp} {hubs : List HubId} {crew crew' : Crew}

/-- **A crew on its way.** The hubs that are left are some of those that it began with, each on the
list of one worker, and all of them are under way. Nothing changed but what belongs to the hubs. -/
structure OnWay (start : Board) (hubs : List HubId) (crew : Crew) : Prop where
  distinct : crew.todo.Nodup
  listed : ∀ h ∈ crew.todo, h ∈ hubs
  inside : Within start hubs start crew.board
  underway : ∀ h ∈ hubs, Underway start h crew.board (crew.stage h)

section OnWay

variable (hm : (start.leaf start.registry.sendMeter).sort = .meter)
include hm

theorem OnWay.step (hw : OnWay start hubs crew) (i : Nat) :
    OnWay start hubs (crew.step time i) := by
  rcases step_moves hw.distinct time i with he | ⟨h, hh, hboard, hstage, hsub⟩
  · rw [he]
    exact hw
  · have hh := hw.listed h hh
    have hu := hw.underway h hh
    refine ⟨hw.distinct.sublist hsub, fun k hk => hw.listed k (hsub.subset hk), ?_, fun k hk => ?_⟩
    · rw [hboard]
      exact hw.inside.trans ((Board.within_publishStep hm hu time).mono hh)
    · rw [hboard, hstage]
      split
      · rename_i he
        exact he ▸ hu.step hm time
      · rename_i hne
        exact (hw.underway k hk).other hm hne hu time

/-- **What is so of each hub when a crew begins**, and stays so when the hub makes a step and when
another one does, is so at all times. -/
theorem OnWay.each_run {P : HubId → Board → Stage → Prop} (hw : OnWay start hubs crew)
    (first : ∀ h ∈ hubs, P h crew.board (crew.stage h))
    (own : ∀ h ∈ hubs, ∀ b s, Underway start h b s → P h b s →
      P h (b.publishStep h time s).1 (b.publishStep h time s).2)
    (other : ∀ h ∈ hubs, ∀ k ∈ hubs, k ≠ h → ∀ b r s, Underway start h b r →
      Underway start k b s → P k b s → P k (b.publishStep h time r).1 s)
    (schedule : List Nat) : OnWay start hubs (crew.run time schedule) ∧
      ∀ h ∈ hubs, P h (crew.run time schedule).board ((crew.run time schedule).stage h) := by
  induction schedule generalizing crew with
  | nil => exact ⟨hw, first⟩
  | cons i schedule ih =>
    refine ih (hw.step hm i) fun k hk => ?_
    rcases step_moves hw.distinct time i with he | ⟨h, hh, hboard, hstage, -⟩
    · rw [he]
      exact first k hk
    · have hh := hw.listed h hh
      rw [hboard, hstage]
      split
      · rename_i he
        exact he ▸ own h hh _ _ (hw.underway h hh) (first h hh)
      · rename_i hne
        exact other h hh k hk hne _ _ _ (hw.underway h hh) (hw.underway k hk) (first k hk)

end OnWay

theorem onWay_start {b : Board} (parts : List (List HubId)) (distinct : parts.flatten.Nodup)
    (ho : ∀ h ∈ parts.flatten, ∀ c ∈ (b.hub h).consumers, (b.consumer c).observes = true) :
    OnWay b parts.flatten (.start b parts) where
  distinct := todo_start b parts ▸ distinct
  listed _ hh := todo_start b parts ▸ hh
  inside := .refl b _ b
  underway h hh := by
    rw [stage_start hh]
    exact .waiting (ho h hh)

end Crew

namespace Board

variable {start b b' : Board} {h k : HubId} {hs : List HubId} {time : Timestamp}

/-- Two boards that differ in nothing but the order in which things happened to different hubs. -/
structure Concurs (b b' : Board) : Prop where
  settings : b'.settings = b.settings
  wall : b'.wall = b.wall
  now : b'.now = b.now
  registry : b'.registry = b.registry
  transaction : b'.transaction = b.transaction
  labels : b'.labels = b.labels
  sampleDue : b'.sampleDue = b.sampleDue
  hub : ∀ h, b'.hub h = b.hub h
  leaf : ∀ l, b'.leaf l = b.leaf l
  consumer : ∀ c, b'.consumer c = b.consumer c
  file : ∀ f, b'.disk.content f = b.disk.content f
  names : b'.disk.names = b.disk.names
  usable : b'.disk.usable = b.disk.usable
  order : ∀ h, about h b'.events = about h b.events
  events : b'.events.Perm b.events

/-- **What belongs to the hubs is seen by them**, so boards on which each of them sees the same
concur. -/
theorem concurs_of_agree (hw : Within start hs start b) (hw' : Within start hs start b')
    (ha : ∀ h ∈ hs, Agree start h b b') : Concurs b b' := by
  obtain ⟨es, he, hes, ht⟩ := hw.events
  obtain ⟨fs, hf, hfs, ht'⟩ := hw'.events
  have habout : ∀ h, about h fs = about h es := by
    intro h
    by_cases hh : h ∈ hs
    · have heq := (ha h hh).events
      rw [hf, he, about_append, about_append] at heq
      exact List.append_cancel_left heq
    · rw [about_of_not_mem hfs hh, about_of_not_mem hes hh]
  have hperm : fs.Perm es := perm_of_about hfs hes fun h _ => habout h
  constructor
  case settings => rw [hw'.frame.settings, hw.frame.settings]
  case wall => rw [hw'.frame.wall, hw.frame.wall]
  case now => rw [hw'.frame.now, hw.frame.now]
  case registry => rw [hw'.frame.registry, hw.frame.registry]
  case transaction => rw [hw'.frame.transaction, hw.frame.transaction]
  case labels => rw [hw'.frame.labels, hw.frame.labels]
  case sampleDue => rw [hw'.frame.sampleDue, hw.frame.sampleDue]
  case names => rw [hw'.frame.disk.names, hw.frame.disk.names]
  case usable => rw [hw'.frame.disk.usable, hw.frame.disk.usable]
  case hub =>
    intro h
    by_cases hh : h ∈ hs
    · exact (ha h hh).hub
    · rw [hw'.hub h hh, hw.hub h hh]
  case leaf =>
    intro l
    refine Leaf.eq_of_face ?_ ?_
    · by_cases hl : ∃ h ∈ hs, (start.hub h).table.isReserved l = true
      · obtain ⟨h, hh, hl⟩ := hl
        exact (ha h hh).face l
          ((LeafTable.mem_leaves_iff _ _).2 (.inl (LeafTable.isReserved_iff.1 hl)))
      · have hl' : ∀ h ∈ hs, (start.hub h).table.isReserved l = false :=
          fun h hh => Bool.eq_false_iff.2 fun hr => hl ⟨h, hh, hr⟩
        rw [hw'.face l hl', hw.face l hl']
    -- as many messages were sent, in whatever order
    · rw [ht', ht, hperm.countP_eq]
  case consumer =>
    intro c
    by_cases hc : ∃ h ∈ hs, c ∈ (start.hub h).consumers
    · obtain ⟨h, hh, hc⟩ := hc
      exact (ha h hh).consumer c hc
    · have hc' : ∀ h ∈ hs, c ∉ (start.hub h).consumers := fun h hh hm => hc ⟨h, hh, hm⟩
      rw [hw'.consumer c hc', hw.consumer c hc']
  case file =>
    intro f
    by_cases hf : ∃ h ∈ hs, (start.hub h).file? = some f
    · obtain ⟨h, hh, hf⟩ := hf
      exact (ha h hh).file f hf
    · have hf' : ∀ h ∈ hs, (start.hub h).file? ≠ some f := fun h hh hm => hf ⟨h, hh, hm⟩
      rw [hw'.file f hf', hw.file f hf']
  case order =>
    intro h
    rw [hf, he, about_append, about_append, habout]
  case events =>
    rw [hf, he]
    exact hperm.append_left _

end Board

/-! ### Orders -/

namespace Crew

open Board (Sound publishNext)

variable {time : Timestamp} {b b' : Board} {before after : List Worker} {h : HubId}
  {hs : List HubId} {s : Stage} {crew crew' crew'' : Crew}

/-- Whether one crew comes from another one by steps in some order. -/
def Leads (time : Timestamp) (crew crew' : Crew) : Prop :=
  ∃ schedule, crew.run time schedule = crew'

protected theorem Leads.refl (time : Timestamp) (crew : Crew) : Leads time crew crew := ⟨[], rfl⟩

theorem Leads.trans (hl : Leads time crew crew') (hl' : Leads time crew' crew'') :
    Leads time crew crew'' := by
  obtain ⟨schedule, rfl⟩ := hl
  obtain ⟨rest, rfl⟩ := hl'
  exact ⟨schedule ++ rest, run_append crew schedule rest⟩

/-- A worker publishes its first hub. -/
theorem leads_hub {n : Nat} (hn : (publishNext h time)^[n] (b, s) = (b', .done)) :
    Leads time ⟨b, before ++ ⟨h :: hs, s⟩ :: after⟩ ⟨b', before ++ { todo := hs } :: after⟩ := by
  have hone : ∀ (b : Board) (s : Stage), Leads time ⟨b, before ++ ⟨h :: hs, s⟩ :: after⟩
      ⟨(b.publishStep h time s).1, before ++ .next h hs (b.publishStep h time s).2 :: after⟩ :=
    fun b s => ⟨[before.length], step_mk⟩
  induction n generalizing b s with
  | zero =>
    obtain ⟨rfl, rfl⟩ := Prod.mk.inj hn
    exact hone b .done
  | succ n ih =>
    rw [Function.iterate_succ_apply, publishNext] at hn
    have hstep := hone b s
    generalize b.publishStep h time s = p at hn hstep
    obtain ⟨c, s'⟩ := p
    cases s' with
    | done =>
      rw [Board.iterate_done] at hn
      obtain ⟨rfl, -⟩ := Prod.mk.inj hn
      exact hstep
    | _ => exact hstep.trans (ih hn)

/-- A worker publishes its part. -/
theorem leads_part {part : List HubId} (hb : Sound b) (held : ∀ h ∈ part, b.isHubHeld h = true) :
    Leads time ⟨b, before ++ { todo := part } :: after⟩
      ⟨b.publishAll part time, before ++ { todo := [] } :: after⟩ := by
  induction part generalizing b with
  | nil => exact .refl time _
  | cons h hs ih =>
    have hh := held h List.mem_cons_self
    have hmoves := Board.publish_moves (fun _ => True) b h time (Board.plansWithin_true b) hh
    obtain ⟨n, hn⟩ := Board.iterate_publish hb hh time
    refine (leads_hub hn).trans (ih (Board.Moves.sound hmoves hb) fun k hk => ?_)
    rw [(Board.Moves.frame hmoves).isHubHeld]
    exact held k (List.mem_cons_of_mem h hk)

/-- **One worker after the other** publishes all parts in order. -/
theorem leads_serial (before : List Worker) {parts : List (List HubId)} (hb : Sound b)
    (held : ∀ h ∈ parts.flatten, b.isHubHeld h = true) :
    Leads time ⟨b, before ++ parts.map ({ todo := · })⟩
      ⟨b.publishAll parts.flatten time, before ++ parts.map fun _ => { todo := [] }⟩ := by
  induction parts generalizing b before with
  | nil => exact .refl time _
  | cons part parts ih =>
    have hpart : ∀ h ∈ part, b.isHubHeld h = true := fun h hh =>
      held h (List.mem_append_left _ hh)
    have hmoves := Board.publishAll_moves (Board.plansWithin_true b) hpart time
    have hrest := ih (before ++ [{ todo := [] }]) (Board.Moves.sound hmoves hb)
      fun k hk => by
        rw [(Board.Moves.frame hmoves).isHubHeld]
        exact held k (List.mem_append_right _ hk)
    rw [List.append_assoc, List.append_assoc] at hrest
    rw [List.flatten_cons, Board.publishAll, List.foldl_append]
    exact (leads_part hb hpart).trans hrest

/-- A hub comes to its end from any stage. -/
theorem exists_done (b : Board) (h : HubId) (time : Timestamp) (s : Stage) :
    ∃ n b', (publishNext h time)^[n] (b, s) = (b', .done) := by
  have hnext : ∀ b s, (∃ n b', (publishNext h time)^[n] (Board.publishStep b h time s) =
      (b', .done)) → ∃ n b', (publishNext h time)^[n] (b, s) = (b', .done) := by
    rintro b s ⟨n, b', hn⟩
    exact ⟨n + 1, b', hn⟩
  have htelling : ∀ b left gone, ∃ n b',
      (publishNext h time)^[n] (b, .telling left gone) = (b', .done) :=
    fun b left gone => ⟨_, _, Board.iterate_telling b h time left gone⟩
  have hlogged := fun b s line => hnext b (.logged s line) (htelling _ _ _)
  have hcaptured := fun b s line => hnext b (.captured s line) (hlogged _ _ _)
  have hstamped := fun b => hnext b .stamped (hcaptured _ _ _)
  have hinstant := fun b => hnext b .instant (hstamped _)
  cases s with
  | waiting => exact hnext b .waiting (hinstant _)
  | instant => exact hinstant b
  | stamped => exact hstamped b
  | captured s line => exact hcaptured b s line
  | logged s line => exact hlogged b s line
  | telling left gone => exact htelling b left gone
  | done => exact ⟨0, b, rfl⟩

/-- A worker comes to the end of its hubs. -/
theorem leads_rest (before after : List Worker) (b : Board) (todo : List HubId) (s : Stage) :
    ∃ b' s', Leads time ⟨b, before ++ ⟨todo, s⟩ :: after⟩ ⟨b', before ++ ⟨[], s'⟩ :: after⟩ := by
  induction todo generalizing b s with
  | nil => exact ⟨b, s, .refl time _⟩
  | cons h hs ih =>
    obtain ⟨n, c, hn⟩ := exists_done b h time s
    obtain ⟨b', s', hl⟩ := ih c .waiting
    exact ⟨b', s', (leads_hub hn).trans hl⟩

/-- **No order gets stuck**: from every crew there is a way to the end. -/
theorem leads_idle (time : Timestamp) (crew : Crew) :
    ∃ crew', Leads time crew crew' ∧ crew'.isIdle = true := by
  obtain ⟨b, ws⟩ := crew
  have hall : ∀ (ws before : List Worker) (b : Board), (∀ w ∈ before, w.todo.isEmpty = true) →
      ∃ crew', Leads time ⟨b, before ++ ws⟩ crew' ∧ crew'.isIdle = true := by
    intro ws
    induction ws with
    | nil =>
      intro before b hidle
      exact ⟨_, .refl time _, List.all_eq_true.2 (by rwa [List.append_nil])⟩
    | cons w ws ih =>
      intro before b hidle
      obtain ⟨b', s', hl⟩ := leads_rest before ws b w.todo w.stage
      obtain ⟨crew', hl', hi⟩ := ih (before ++ [⟨[], s'⟩]) b' fun v hv => by
        rcases List.mem_append.1 hv with hv | hv
        · exact hidle v hv
        · rw [List.mem_singleton.1 hv]
          rfl
      rw [List.append_assoc] at hl'
      exact ⟨crew', hl.trans hl', hi⟩
  exact hall ws [] b fun _ hw => absurd hw List.not_mem_nil

end Crew

/-! ### Finishing -/

theorem length_workParts {α : Type} {workers : Nat} (h : 1 ≤ workers) (xs : List α) :
    (workParts workers xs).length ≤ workers := by
  unfold workParts
  split
  · refine Nat.le_trans (List.length_filter_le _ _) (Nat.le_of_eq ?_)
    rw [shares, List.length_map, List.length_range]
  · exact h

namespace Board

variable {b : Board} {tx : Transaction}

/-- Finishes the open transaction with a number of workers, whose steps come in the order of a
schedule. It is finished when all hubs are published, which are then counted. -/
def finishBy (b : Board) (workers : Nat) (schedule : List Nat) : Option (Board × Nat) :=
  match b.transaction with
  | none => some (b, 0)
  | some tx =>
    let crew := (Crew.start b (workParts workers tx.hubs)).run tx.openedAt schedule
    if crew.isIdle then some ({ crew.board with transaction := none }, tx.hubs.length) else none

theorem finishBy_eq (ht : b.transaction = some tx) (workers : Nat) (schedule : List Nat) :
    b.finishBy workers schedule =
      if ((Crew.start b (workParts workers tx.hubs)).run tx.openedAt schedule).isIdle then
        some ({ ((Crew.start b (workParts workers tx.hubs)).run tx.openedAt schedule).board with
          transaction := none }, tx.hubs.length)
      else none := by
  unfold finishBy
  rw [ht]

/-- **The serial commit is one of the orders**, for every number of workers. -/
theorem exists_serial (hb : Sound b) (ht : b.transaction = some tx) (workers : Nat) :
    ∃ schedule, b.finishBy workers schedule = some b.finish := by
  have held : ∀ h ∈ (workParts workers tx.hubs).flatten, b.isHubHeld h = true := by
    rw [flatten_workParts]
    exact fun h hh => isHubHeld_of_touched ht hh
  obtain ⟨schedule, hr⟩ := Crew.leads_serial [] hb held
  refine ⟨schedule, ?_⟩
  have hr' : (Crew.start b (workParts workers tx.hubs)).run tx.openedAt schedule = _ := hr
  rw [finishBy_eq ht, hr', finish_eq ht, flatten_workParts, if_pos]
  exact List.all_eq_true.2 fun w hw => by
    obtain ⟨part, -, rfl⟩ := List.mem_map.1 hw
    rfl

/-- **No order of steps is lost**: each one can be carried on until the transaction is finished. -/
theorem exists_finishBy (b : Board) (workers : Nat) (schedule : List Nat) :
    ∃ rest, (b.finishBy workers (schedule ++ rest)).isSome = true := by
  cases ht : b.transaction with
  | none => exact ⟨[], by rw [finishBy, ht]; rfl⟩
  | some tx =>
    obtain ⟨crew, ⟨rest, hr⟩, hi⟩ := Crew.leads_idle tx.openedAt
      ((Crew.start b (workParts workers tx.hubs)).run tx.openedAt schedule)
    refine ⟨rest, ?_⟩
    rw [finishBy_eq ht, Crew.run_append, hr, if_pos hi]
    rfl

/-- **What becomes of each touched hub**, whatever the order: what is so of each of them at first,
and stays so when the hub makes a step and when another one does, is so when all hubs are published.
-/
theorem finishBy_each {P : HubId → Board → Stage → Prop} (hb : Sound b)
    (ht : b.transaction = some tx) (nodup : tx.hubs.Nodup)
    (ho : b.OnlyObserved tx.hubs)
    (first : ∀ h ∈ tx.hubs, P h b .waiting)
    (own : ∀ h ∈ tx.hubs, ∀ c s, Underway b h c s → P h c s →
      P h (c.publishStep h tx.openedAt s).1 (c.publishStep h tx.openedAt s).2)
    (other : ∀ h ∈ tx.hubs, ∀ k ∈ tx.hubs, k ≠ h → ∀ c r s, Underway b h c r →
      Underway b k c s → P k c s → P k (c.publishStep h tx.openedAt r).1 s)
    {workers : Nat} {schedule : List Nat} {r : Board × Nat}
    (hr : b.finishBy workers schedule = some r) :
    ∃ c : Board, r = ({ c with transaction := none }, tx.hubs.length) ∧
      Within b tx.hubs b c ∧ ∀ h ∈ tx.hubs, P h c .done := by
  rw [finishBy_eq ht] at hr
  split at hr
  · rename_i hi
    have hparts : (workParts workers tx.hubs).flatten = tx.hubs := flatten_workParts tx.hubs
    have hw := Crew.onWay_start (b := b) (workParts workers tx.hubs)
      (by rwa [hparts]) (by rwa [hparts])
    rw [hparts] at hw
    obtain ⟨hw, hall⟩ := hw.each_run hb.meter (P := P) (fun h hh => by
      rw [Crew.stage_start (hparts.symm ▸ hh)]
      exact first h hh) own other schedule
    refine ⟨_, (Option.some.inj hr).symm, hw.inside, fun h hh => ?_⟩
    have hp := hall h hh
    rwa [Crew.stage_of_isIdle hi] at hp
  · cases hr

/-- **Each touched hub sees what it would see if it had been published alone**, if the hubs can be
published side by side. -/
theorem finishBy_alone (hb : Reachable b) (ht : b.transaction = some tx) (hd : SideBySide b tx.hubs)
    {workers : Nat} {schedule : List Nat} {r : Board × Nat}
    (hr : b.finishBy workers schedule = some r) :
    ∃ c : Board, r = ({ c with transaction := none }, tx.hubs.length) ∧
      Within b tx.hubs b c ∧ ∀ h ∈ tx.hubs, Agree b h (b.publish h tx.openedAt) c := by
  have hs := hb.sound
  have held : ∀ h ∈ tx.hubs, b.isHubHeld h = true := fun h hh => isHubHeld_of_touched ht hh
  -- a hub on the way that it goes alone
  let P (h : HubId) (c : Board) (s : Stage) : Prop := ∃ n,
    Agree b h ((publishNext h tx.openedAt)^[n] (b, .waiting)).1 c ∧
      s = ((publishNext h tx.openedAt)^[n] (b, .waiting)).2
  obtain ⟨c, hc, hw, hall⟩ := finishBy_each (P := P) hs ht (hb.touched.nodup ht) hd.observes
    (fun h _ => ⟨0, .refl b h b, rfl⟩) (by
      rintro h hh c s hu ⟨n, ha, rfl⟩
      have hn := underway_iterate hs.meter (hd.observes h hh) tx.openedAt n
      obtain ⟨ha', hs'⟩ := agree_publishStep hs.meter hn hu ha tx.openedAt
      refine ⟨n + 1, ?_, ?_⟩ <;> rw [Function.iterate_succ_apply', publishNext]
      · exact ha'
      · exact hs') (by
      -- the others see the same as before
      rintro h hh k hk hne c r s hu - ⟨n, ha, hs'⟩
      have hclear := hd.clear hs hb.secluded held hh hk hne
      exact ⟨n, ha.trans ((within_publishStep hs.meter hu tx.openedAt).agree hclear hne), hs'⟩) hr
  refine ⟨c, hc, hw, fun h hh => ?_⟩
  obtain ⟨n, ha, hn⟩ := hall h hh
  rwa [eq_publish_of_done hs (held h hh) hn.symm] at ha

/-- **All orders concur**, for all numbers of workers. -/
theorem finishBy_concurs (hb : Reachable b) (ht : b.transaction = some tx)
    (hd : SideBySide b tx.hubs) {workers workers' : Nat} {schedule schedule' : List Nat}
    {r r' : Board × Nat} (hr : b.finishBy workers schedule = some r)
    (hr' : b.finishBy workers' schedule' = some r') : Concurs r.1 r'.1 ∧ r'.2 = r.2 := by
  obtain ⟨c, rfl, hw, ha⟩ := finishBy_alone hb ht hd hr
  obtain ⟨c', rfl, hw', ha'⟩ := finishBy_alone hb ht hd hr'
  have hsame := concurs_of_agree hw hw' fun h hh => (ha h hh).symm.trans (ha' h hh)
  exact ⟨{ hsame with transaction := rfl }, rfl⟩

/-- **Every order has the outcome of the serial commit**, on every reachable board and for every
number of workers, if the touched hubs can be published side by side. The parts that the workers get
are the touched hubs, each once and in order, and there are no more of them than workers. The serial
commit is one of the orders, and no order gets stuck. However the steps of the workers are ordered,
in the end all hubs, leaves, consumers and files are as after the serial commit, the same happened
about each hub in the same order, and as many hubs are counted. -/
theorem finish_interleaved (hb : Reachable b) (ht : b.transaction = some tx)
    (hd : SideBySide b tx.hubs) {workers : Nat} (hw : 1 ≤ workers) :
    ((workParts workers tx.hubs).flatten = tx.hubs ∧ tx.hubs.Nodup ∧
      (workParts workers tx.hubs).length ≤ workers) ∧
    (∃ schedule, b.finishBy workers schedule = some b.finish) ∧
    (∀ schedule, ∃ rest, (b.finishBy workers (schedule ++ rest)).isSome = true) ∧
    ∀ schedule r, b.finishBy workers schedule = some r →
      Concurs b.finish.1 r.1 ∧ r.2 = b.finish.2 := by
  obtain ⟨serial, hs⟩ := exists_serial hb.sound ht workers
  exact ⟨⟨flatten_workParts tx.hubs, hb.touched.nodup ht, length_workParts hw tx.hubs⟩,
    ⟨serial, hs⟩, b.exists_finishBy workers, fun _ _ hr => finishBy_concurs hb ht hd hs hr⟩

/-- An open transaction that touched three hubs, which share a leaf. The first has a channel, the
second an observer that leaves, the third a session. -/
def threeTouched : Board :=
  (start {} default {}).run
    [.openHub (Name.hubName "r"), .openHub (Name.hubName "s"), .openHub (Name.hubName "t"),
      .makeLeaf "v" .scalar "v", .addLeaf ⟨1⟩ "http://x/v" ⟨10⟩, .addLeaf ⟨2⟩ "http://x/v" ⟨10⟩,
      .addLeaf ⟨3⟩ "http://x/v" ⟨10⟩, .listen "c" 4, .subscribe ⟨1⟩ ⟨0⟩,
      .observe "o" .text [false] [], .subscribe ⟨2⟩ ⟨1⟩, .connect "a" [⟨3⟩] 4,
      .openTransaction .batch, .setValue ⟨1⟩ "http://x/v" (.int 1),
      .setValue ⟨2⟩ "http://x/v" (.int 2), .setValue ⟨3⟩ "http://x/v" (.int 3)]

/-- Two workers take turns, and all is as after the serial commit. -/
theorem finish_interleaved_threeTouched : ∃ tx, threeTouched.transaction = some tx ∧
    tx.hubs = [⟨1⟩, ⟨2⟩, ⟨3⟩] ∧ workParts 2 tx.hubs = [[⟨1⟩, ⟨2⟩], [⟨3⟩]] ∧
    SideBySide threeTouched tx.hubs ∧
    ((workParts 2 tx.hubs).flatten = tx.hubs ∧ tx.hubs.Nodup ∧ (workParts 2 tx.hubs).length ≤ 2) ∧
    (∃ schedule, threeTouched.finishBy 2 schedule = some threeTouched.finish) ∧
    (∀ schedule, ∃ rest, (threeTouched.finishBy 2 (schedule ++ rest)).isSome = true) ∧
    (threeTouched.finishBy 2 ((List.range 28).map (· % 2))).isSome = true ∧
    ∀ schedule r, threeTouched.finishBy 2 schedule = some r →
      Concurs threeTouched.finish.1 r.1 ∧ r.2 = threeTouched.finish.2 := by
  have hb : Reachable threeTouched := ⟨{}, default, {}, _, Disk.sound_empty, rfl⟩
  obtain ⟨tx, ht⟩ : ∃ tx, threeTouched.transaction = some tx :=
    Option.isSome_iff_exists.1 (by decide +kernel)
  have hhubs : tx.hubs = [⟨1⟩, ⟨2⟩, ⟨3⟩] := by
    have : (threeTouched.transaction.map Transaction.hubs) = some [⟨1⟩, ⟨2⟩, ⟨3⟩] := by
      decide +kernel
    rw [ht] at this
    exact Option.some.inj this
  have hd : SideBySide threeTouched tx.hubs := by
    rw [hhubs]
    exact ⟨by decide +kernel, by decide +kernel, by decide +kernel⟩
  obtain ⟨hparts, hserial, hgoes, hall⟩ := finish_interleaved hb ht hd (by decide : 1 ≤ 2)
  exact ⟨tx, ht, hhubs, by rw [hhubs]; decide, hd, hparts, hserial, hgoes, by decide +kernel, hall⟩

end Board

end Switchboard
