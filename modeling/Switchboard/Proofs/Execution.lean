import Switchboard.Proofs.SharedCommit

/-!
# Executions

When several workers publish the touched hubs of a transaction at the same time, more than one board
can come of the commit. An execution is a list of steps from board to board. Each of them does what
its operation does, and a commit is made by the workers that the settings give it, in any order.

* `performs_cases`: what can come of an operation.
* `Executes.regular`, `Executes.plans`: what holds on every board of an execution.
* `executes_run`: a run that commits serially is an execution.
-/

namespace Switchboard

namespace Board

variable {A : Action → Prop} {E : Edit → Prop} {b b' b'' : Board} {h : HubId} {tx : Transaction}

/-! ### What every order of a commit keeps -/

/-- What publications keep, however far they have come. -/
structure Advances (A : Action → Prop) (b b' : Board) : Prop where
  frame : Frame b b'
  sound : Sound b'
  plans : PlansWithin A b'
  grows : b.events <+: b'.events

theorem Advances.refl (hb : Sound b) (hp : PlansWithin A b) : Advances A b b :=
  ⟨.refl b, hb, hp, List.prefix_rfl⟩

theorem Advances.trans (x : Advances A b b') (y : Advances A b' b'') : Advances A b b'' :=
  ⟨x.frame.trans y.frame, y.sound, y.plans, x.grows.trans y.grows⟩

theorem Moves.advances (m : Moves A b b') (hb : Sound b) (hp : PlansWithin A b) : Advances A b b' :=
  ⟨Moves.frame m, Moves.sound m hb, Moves.plans m hp, Moves.grows m⟩

/-- One step of a publication, whoever is told of it. -/
theorem publishStep_advances (hb : Sound b) (hp : PlansWithin A b) (held : b.isHubHeld h = true)
    (time : Timestamp) (s : Stage) : Advances A b (b.publishStep h time s).1 := by
  have hwrite : ∀ r v, Advances A b
      (b.modifyLeaf ((b.hub h).table.slot r) (·.write v time)) := fun r v =>
    ⟨Frame.writeLeaf b _ [v] time, hb.of_frame (Frame.writeLeaf b _ [v] time) hb.once rfl, hp,
      List.prefix_rfl⟩
  cases s with
  | waiting => exact hwrite .instant _
  | instant => exact hwrite .datetime _
  | stamped | done => exact .refl hb hp
  | captured s line =>
    have hj := journal_log b h line
    refine ⟨Frame.log b h line, hb.of_frame (Frame.log b h line) (fun k => ?_) hj,
      fun c o hc => hp c o ?_, events_of_journal_eq hj ▸ List.prefix_rfl⟩
    · show ((b.log h line).hub k).consumers.Nodup
      rw [hub_log]
      exact hb.once k
    · rw [← consumer_log b h line c]
      exact hc
  | logged s line =>
    have hf : Frame b ((b.keep h s line).note (.published h s line)) :=
      (Frame.keep b h s line).trans (Frame.note _ _)
    refine ⟨hf, hb.of_kept hf.kept (fun k hk => (hf.isHubHeld k).symm.trans hk)
      (fun l hl => .inl ((hf.isKnownLeaf l).symm.trans hl))
        (nodup_modifyHub hb.once (hb.once h)) ?_,
      hp, ⟨[.published h s line], (events_note _ _).symm⟩⟩
    rintro k s' line' (_ | ⟨_, hm⟩)
    · exact hb.held h held
    · exact hb.published k s' line' hm
  | telling left gone =>
    cases left with
    | nil => exact Moves.advances (.single (.leave h gone held)) hb hp
    | cons c cs =>
      have m := (informWith_moves (publish_moves A) hp c held).tail
        (.inform c h (b.informWith publish c h).2)
      exact Moves.advances m hb hp

end Board

/-- **What each step of a publication keeps is kept by every order of steps.** -/
theorem Crew.run_of {Q : Board → Prop} (hubs : List HubId) {time : Timestamp}
    (hq : ∀ b h s, h ∈ hubs → Q b → Q (b.publishStep h time s).1) {crew : Crew}
    (distinct : crew.todo.Nodup) (listed : ∀ h ∈ crew.todo, h ∈ hubs) (first : Q crew.board)
    (schedule : List Nat) : Q (crew.run time schedule).board := by
  induction schedule generalizing crew with
  | nil => exact first
  | cons i schedule ih =>
    rcases step_moves distinct time i with he | ⟨h, hh, hboard, -, hsub⟩
    · show Q ((crew.step time i).run time schedule).board
      rw [he]
      exact ih distinct listed first
    · refine ih (distinct.sublist hsub) (fun k hk => listed k (hsub.subset hk)) ?_
      rw [hboard]
      exact hq _ _ _ (listed h hh) first

namespace Board

/-- **A commit advances a board and closes the transaction**, whatever the order, and keeps what
each step of a publication keeps. -/
theorem finishBy_of {Q : Board → Prop} (hb : Sound b) (hp : PlansWithin A b)
    (ht : b.transaction = some tx) (nodup : tx.hubs.Nodup) (first : Q b)
    (keeps : ∀ c h s, c.isHubHeld h = true → Advances A b c → Q c →
      Q (c.publishStep h tx.openedAt s).1)
    {workers : Nat} {schedule : List Nat} {r : Board × Nat}
    (hr : b.finishBy workers schedule = some r) :
    ∃ c, (Advances A b c ∧ Q c) ∧ r.1 = { c with transaction := none } := by
  rw [finishBy_eq ht] at hr
  split at hr
  · refine ⟨_, ?_, congrArg Prod.fst (Option.some.inj hr).symm⟩
    have htodo : (Crew.start b (workParts workers tx.hubs)).todo = tx.hubs :=
      (Crew.todo_start b _).trans (flatten_workParts tx.hubs)
    refine Crew.run_of (Q := fun c => Advances A b c ∧ Q c) tx.hubs
      (fun c h s hh ⟨hc, hq⟩ => ?_) (by rwa [htodo]) (fun h hh => by rwa [htodo] at hh)
      ⟨.refl hb hp, first⟩ schedule
    have held : c.isHubHeld h = true :=
      (hc.frame.isHubHeld h).trans (isHubHeld_of_touched ht hh)
    exact ⟨hc.trans (publishStep_advances hc.sound hc.plans held tx.openedAt s),
      keeps c h s held hc hq⟩
  · cases hr

end Board

/-! ### A single worker -/

namespace Crew

variable {time : Timestamp} {crew : Crew}

theorem step_of_isIdle (hi : crew.isIdle = true) (i : Nat) : crew.step time i = crew := by
  rcases crew.step_cases i with he | ⟨b, before, h, hs, s, after, rfl, -⟩
  · exact he
  -- a crew that is idle has no worker with a hub to publish
  · have hw := List.all_eq_true.1 hi ⟨h :: hs, s⟩ (List.mem_append_right _ List.mem_cons_self)
    cases hw

/-- Where there is one worker, the other numbers of a schedule do nothing. -/
theorem step_of_single (time : Timestamp) (hone : crew.workers.length = 1) (i : Nat) :
    (crew.step time i = crew ∨ crew.step time i = crew.step time 0) ∧
      (crew.step time i).workers.length = 1 := by
  rcases crew.step_cases i with he | ⟨b, before, h, hs, s, after, rfl, rfl⟩
  · rw [he]
    exact ⟨.inl rfl, hone⟩
  · rw [step_mk]
    simp only [List.length_append, List.length_cons] at hone ⊢
    obtain rfl : before = [] := List.length_eq_zero_iff.1 (by omega)
    exact ⟨.inr rfl, hone⟩

theorem run_of_single (time : Timestamp) (hone : crew.workers.length = 1) (schedule : List Nat) :
    ∃ n, crew.run time schedule = (step time · 0)^[n] crew := by
  induction schedule generalizing crew with
  | nil => exact ⟨0, rfl⟩
  | cons i schedule ih =>
    obtain ⟨hi, hone'⟩ := step_of_single time hone i
    obtain ⟨n, hn⟩ := ih hone'
    rcases hi with he | he
    · exact ⟨n, by rw [he] at hn; rw [← hn, run, List.foldl_cons, he]; rfl⟩
    · exact ⟨n + 1, by rw [Function.iterate_succ_apply, ← he, ← hn]; rfl⟩

/-- **One worker comes to the same end, whatever the schedule.** -/
theorem run_unique (hone : crew.workers.length = 1) {schedule schedule' : List Nat}
    (hi : (crew.run time schedule).isIdle = true) (hi' : (crew.run time schedule').isIdle = true) :
    crew.run time schedule = crew.run time schedule' := by
  have hfix : ∀ {c : Crew}, c.isIdle = true → ∀ n, (step time · 0)^[n] c = c := fun hc n =>
    Function.iterate_fixed (step_of_isIdle hc 0) n
  obtain ⟨m, hm⟩ := run_of_single time hone schedule
  obtain ⟨n, hn⟩ := run_of_single time hone schedule'
  -- both runs have come to the end after as many steps as they have together
  have hsum := Function.iterate_add_apply (step time · 0) m n crew
  rw [← hn, hfix hi', Nat.add_comm, Function.iterate_add_apply, ← hm, hfix hi] at hsum
  exact hsum

end Crew

namespace Board

/-- **A single worker publishes one hub after the other**, and so do several if there is one hub,
whatever the schedule. -/
theorem finishBy_serial (hb : Sound b) (ht : b.transaction = some tx) {workers : Nat}
    (hone : ¬(1 < workers ∧ 1 < tx.hubs.length)) {schedule : List Nat} {r : Board × Nat}
    (hr : b.finishBy workers schedule = some r) : r = b.finish := by
  obtain ⟨serial, hs⟩ := exists_serial hb ht workers
  have hparts : workParts workers tx.hubs = [tx.hubs] := if_neg hone
  rw [finishBy_eq ht] at hr hs
  split at hr
  · rename_i hi
    split at hs
    · rename_i hi'
      rw [Crew.run_unique (by rw [hparts]; rfl) hi hi'] at hr
      exact Option.some.inj (hr.symm.trans hs)
    · cases hs
  · cases hr

/-! ### Steps -/

/-- The hubs that several workers publish at the same time when the open transaction is finished. A
single hub, and the hubs of a single worker, are published one after the other. -/
def sharedHubs (b : Board) : List HubId :=
  match b.transaction with
  | some tx => if 1 < b.settings.workers ∧ 1 < tx.hubs.length then tx.hubs else []
  | none => []

/-- **What can come of an operation.** A commit is made by the workers that the settings give it, in
any order. -/
inductive Performs (b : Board) : Op → Board → Prop
  | commit (schedule : List Nat) (r : Board × Nat)
    (done : b.finishBy b.settings.workers schedule = some r) : Performs b .finish r.1
  | other (op : Op) (ne : op ≠ .finish) : Performs b op (b.step op)

/-- **The serial step is one that can come of an operation.** -/
theorem performs_step (hb : Sound b) (op : Op) : b.Performs op (b.step op) := by
  by_cases he : op = .finish
  · subst he
    cases ht : b.transaction with
    | none =>
      have hf : b.finishBy b.settings.workers [] = some b.finish := by
        rw [finishBy, finish, ht]
      exact .commit [] _ hf
    | some tx =>
      obtain ⟨serial, hs⟩ := exists_serial hb ht b.settings.workers
      exact .commit serial _ hs
  · exact .other op he

/-- **What can come of an operation** is what comes of its serial step, unless it is a commit that
several workers share. -/
theorem performs_cases (hb : Sound b) {op : Op} (hp : b.Performs op b') : b' = b.step op ∨
    ∃ tx schedule r, op = .finish ∧ b.transaction = some tx ∧ b.sharedHubs = tx.hubs ∧
      b.finishBy b.settings.workers schedule = some r ∧ b' = r.1 := by
  cases hp with
  | other => exact .inl rfl
  | commit schedule r done =>
    cases ht : b.transaction with
    | none =>
      left
      rw [finishBy, ht] at done
      rw [← Option.some.inj done, step, finish, ht]
    | some tx =>
      by_cases hone : 1 < b.settings.workers ∧ 1 < tx.hubs.length
      · refine .inr ⟨tx, schedule, r, rfl, rfl, ?_, done, rfl⟩
        rw [sharedHubs, ht]
        exact if_pos hone
      · rw [finishBy_serial hb ht hone done]
        exact .inl rfl

/-! ### What holds on every board -/

theorem Frame.secluded (hf : Frame b b') (hp : Secluded b) : Secluded b' where
  scalar h r held ho := by
    rw [hf.isHubHeld] at held
    rw [IsOwn, (hf.hub h).table] at ho
    rw [(hf.hub h).table, (hf.leaf _).sort]
    exact hp.scalar h r held ho
  apart h k r q held held' ho he := by
    rw [hf.isHubHeld] at held held'
    rw [IsOwn, (hf.hub h).table] at ho
    rw [(hf.hub h).table, (hf.hub k).table] at he
    exact hp.apart h k r q held held' ho he

/-- **What holds on every board of an execution**, whoever makes the commits. -/
structure Regular (b : Board) : Prop where
  sound : Sound b
  secluded : Secluded b
  touched : b.NamesTouched

theorem regular_start (settings : Settings) (wall : Timestamp) {disk : Disk} (hd : disk.Sound) :
    Regular (start settings wall disk) where
  sound := sound_start settings wall disk hd
  secluded := secluded_start settings wall disk
  touched := (show Reachable (start settings wall disk) from
    ⟨settings, wall, disk, [], hd, rfl⟩).touched

/-- A commit that several workers share keeps plans within their bound and adds to what happened. -/
theorem Regular.finishBy (hb : Regular b) (hp : PlansWithin A b) (ht : b.transaction = some tx)
    {workers : Nat} {schedule : List Nat} {r : Board × Nat}
    (hr : b.finishBy workers schedule = some r) :
    Regular r.1 ∧ PlansWithin A r.1 ∧ b.events <+: r.1.events := by
  obtain ⟨c, ⟨x, -⟩, he⟩ := finishBy_of (Q := fun _ => True) hb.sound hp ht (hb.touched.nodup ht)
    trivial (fun _ _ _ _ _ _ => trivial) hr
  have hc : Change A (fun _ => True) c { c with transaction := none } := .transact none nofun
  rw [he]
  exact ⟨⟨hc.sound x.sound, hc.secluded x.sound (x.frame.secluded hb.secluded), nofun⟩,
    hc.plans x.plans, x.grows⟩

theorem Performs.regular (hb : Regular b) {op : Op} (hp : b.Performs op b') : Regular b' := by
  rcases performs_cases hb.sound hp with rfl | ⟨tx, schedule, r, -, ht, -, hr, rfl⟩
  · have hc := step_changes hb.sound op
    exact ⟨ChangesBy.sound hc hb.sound, hc.secluded hb.sound hb.secluded,
      step_namesTouched hb.sound hb.touched op⟩
  · exact (hb.finishBy (plansWithin_true b) ht hr).1

theorem Performs.plans (hb : Regular b) {op : Op} (hp : b.Performs op b') (ho : op.PlansWithin A)
    (hA : PlansWithin A b) : PlansWithin A b' := by
  rcases performs_cases hb.sound hp with rfl | ⟨tx, schedule, r, -, ht, -, hr, rfl⟩
  · exact ChangesBy.plans (step_changesBy hb.sound hA ho) hA
  · exact (hb.finishBy hA ht hr).2.1

theorem Performs.grows (hb : Regular b) {op : Op} (hp : b.Performs op b') :
    b.events <+: b'.events := by
  rcases performs_cases hb.sound hp with rfl | ⟨tx, schedule, r, -, ht, -, hr, rfl⟩
  · exact step_grows hb.sound op
  · exact (hb.finishBy (plansWithin_true b) ht hr).2.2

end Board

/-! ### Executions -/

/-- A step of an execution: an operation, the board that it finds and the board that comes of it. -/
structure Step where
  before : Board
  op : Op
  after : Board

/-- What happened in a step. -/
def Step.news (t : Step) : List Event := Board.news t.before t.after

/-- **An execution**: from one board to another, in steps that can come of their operations. -/
inductive Executes : Board → List Step → Board → Prop
  | nil (b : Board) : Executes b [] b
  | cons {b c b' : Board} {op : Op} {steps : List Step} (performs : b.Performs op c)
    (rest : Executes c steps b') : Executes b (⟨b, op, c⟩ :: steps) b'

namespace Board

/-- The steps of a run that commits serially. -/
def steps (b : Board) : List Op → List Step
  | [] => []
  | op :: ops => ⟨b, op, b.step op⟩ :: (b.step op).steps ops

theorem mem_steps (b : Board) (before : List Op) (op : Op) (after : List Op) :
    ⟨b.run before, op, (b.run before).step op⟩ ∈ b.steps (before ++ op :: after) := by
  induction before generalizing b with
  | nil => exact List.mem_cons_self
  | cons o before ih => exact List.mem_cons_of_mem _ (ih (b.step o))

/-- **A run that commits serially is an execution.** -/
theorem executes_run (hb : Sound b) (ops : List Op) : Executes b (b.steps ops) (b.run ops) := by
  induction ops generalizing b with
  | nil => exact .nil b
  | cons op ops ih => exact .cons (performs_step hb op) (ih (step_sound hb op))

end Board

namespace Executes

open Board (Regular PlansWithin news)

variable {b b' : Board} {A : Action → Prop} {steps : List Step}

theorem regular (he : Executes b steps b') (hb : Regular b) :
    Regular b' ∧ ∀ t ∈ steps, Regular t.before ∧ t.before.Performs t.op t.after := by
  induction he with
  | nil b => exact ⟨hb, fun t ht => absurd ht List.not_mem_nil⟩
  | cons performs rest ih =>
    obtain ⟨hend, hall⟩ := ih (performs.regular hb)
    exact ⟨hend, List.forall_mem_cons.2 ⟨⟨hb, performs⟩, hall⟩⟩

theorem append {b'' : Board} {more : List Step} (he : Executes b steps b')
    (he' : Executes b' more b'') : Executes b (steps ++ more) b'' := by
  induction he with
  | nil b => exact he'
  | cons performs rest ih => exact .cons performs (ih he')

theorem plans (he : Executes b steps b') (hb : Regular b) (hp : PlansWithin A b)
    (ho : ∀ t ∈ steps, t.op.PlansWithin A) : PlansWithin A b' := by
  induction he with
  | nil b => exact hp
  | cons performs rest ih =>
    obtain ⟨ho, hrest⟩ := List.forall_mem_cons.1 ho
    exact ih (performs.regular hb) (performs.plans hb ho hp) hrest

theorem grows (he : Executes b steps b') (hb : Regular b) : b.events <+: b'.events := by
  induction he with
  | nil b => exact List.prefix_rfl
  | cons performs rest ih => exact (performs.grows hb).trans (ih (performs.regular hb))

/-- What happened in an execution is what happened in its first step and then in the others. -/
theorem news_cons {t : Step} (he : Executes b (t :: steps) b') (hb : Regular b) :
    news b b' = t.news ++ news t.after b' := by
  cases he with
  | cons performs rest =>
    exact Board.news_trans (performs.grows hb) (rest.grows (performs.regular hb))

/-- Whatever happened in an execution happened in one of its steps. -/
theorem exists_step (he : Executes b steps b') (hb : Regular b) {e : Event}
    (hm : e ∈ news b b') : ∃ t ∈ steps, e ∈ t.news := by
  induction he with
  | nil b =>
    rw [Board.news_self] at hm
    cases hm
  | cons performs rest ih =>
    rw [(Executes.cons performs rest).news_cons hb, List.mem_append] at hm
    rcases hm with hm | hm
    · exact ⟨_, List.mem_cons_self, hm⟩
    · obtain ⟨t, ht, hm⟩ := ih (performs.regular hb) hm
      exact ⟨t, List.mem_cons_of_mem _ ht, hm⟩

end Executes

end Switchboard
