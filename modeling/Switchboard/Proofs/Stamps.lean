import Switchboard.Proofs.Execution
import Switchboard.Proofs.Registration

/-!
# Times that snapshots carry

When a hub is published, the time is written into the leaves of its two reserved slots, and then all
leaves are captured. A slot that was not taken over shows the time. A leaf that took one over shows
it only if it holds what is written to it: a counter ignores the write, a meter is reset by it, and
a leaf that took over both slots shows what was written to it last, which is the date.

Hubs that several workers publish at the same time are stamped and captured in between. If no leaf
is in a slot of two of them, each of them still captures what was written to its own slots.

* `ChangesBy.layout`: publications leave tables and kinds of leaves as they are.
* `finishBy_carriesTime`: what the snapshots of a commit carry, in any order of its workers.
* `published_stamped`: which snapshots of an execution carry the time of their publication.
-/

namespace Switchboard

/-- The literal for a time in a reserved slot. -/
def Name.Reserved.stamp (time : Timestamp) : Name.Reserved → Literal
  | .instant => Board.instantOf time
  | .datetime => Board.datetimeOf time

/-- A plain cell shows what is written to it, any other leaf an integer. -/
theorem Leaf.values_write (x : Leaf) (v : Literal) (time : Timestamp) :
    (x.isCell = true ∧ (x.write v time).values = [v]) ∨
      (x.isCell = false ∧ ∃ n, (x.write v time).values = [Literal.integer n]) := by
  unfold Leaf.write Leaf.writeAll Leaf.isCell Leaf.sort
  cases hx : x.body with
  | scalar w => exact .inl ⟨rfl, rfl⟩
  | array ws => exact .inl ⟨rfl, rfl⟩
  | counter n => exact .inr ⟨rfl, n, by rw [Leaf.values, hx]⟩
  | meter m => exact .inr ⟨rfl, 0, rfl⟩

namespace Board

variable {A : Action → Prop} {E : Edit → Prop} {b b' : Board}

/-! ### What a posting shows in its reserved slots -/

/-- No integer is a time, and times in different slots differ. -/
theorem stamp_ne (time : Timestamp) (r : Name.Reserved) {v : Literal}
    (hv : v.datatype ≠ (r.stamp time).datatype) : [v] ≠ [r.stamp time] :=
  fun he => hv (congrArg Literal.datatype (List.head_eq_of_cons_eq he))

/-- **A leaf shows the time that is written to it exactly if it is a plain cell.** -/
theorem values_write_stamp (x : Leaf) (time : Timestamp) (r : Name.Reserved) :
    (x.write (r.stamp time) time).values = [r.stamp time] ↔ x.isCell = true := by
  rcases x.values_write (r.stamp time) time with ⟨hc, hv⟩ | ⟨hc, n, hv⟩ <;> rw [hv, hc]
  · exact iff_of_true rfl rfl
  · refine iff_of_false (stamp_ne time r ?_) nofun
    cases r <;> exact nofun

/-- A captured snapshot shows the leaves of the reserved slots, registered or not. -/
theorem get?_capture_slot {h : HubId} (hs : (b.hub h).table.IsSlotted) (time : Timestamp)
    (r : Name.Reserved) : (b.capture h time).get? r.predicate =
      some (b.leaf ((b.hub h).table.slot r)).values := by
  rw [capture]
  cases hg : (b.hub h).table.byPredicate.get? r.predicate with
  | some l => rw [LeafTable.get?_capture hg, hs r l hg]
  | none =>
    have ho : r ∈ (b.hub h).table.ownSlots := by
      rw [LeafTable.mem_ownSlots, Register.contains, hg]
      rfl
    rw [Snapshot.get?, Register.get?_eq_some_iff, LeafTable.entries_capture, List.mem_append]
    exact .inl (List.mem_map.2 ⟨r, ho, rfl⟩)

/-- The date is written last, so it stays exactly if the leaf is a plain cell. -/
theorem stamped_datetime (b : Board) (h : HubId) (time : Timestamp) :
    ((b.stamp h time).leaf ((b.hub h).table.slot .datetime)).values = [datetimeOf time] ↔
      (b.leaf ((b.hub h).table.slot .datetime)).isCell = true := by
  have hl : (b.hub h).table.datetime = (b.hub h).table.slot .datetime := rfl
  have ha := (Frame.writeLeaf b (b.hub h).table.instant [instantOf time] time).leaf
    ((b.hub h).table.slot .datetime)
  rw [leaf_stamp, if_pos hl]
  exact (values_write_stamp _ time .datetime).trans (Bool.eq_iff_iff.1 ha.isCell)

/-- The milliseconds stay exactly if the leaf is a plain cell and the date is not written to it. -/
theorem stamped_instant (b : Board) (h : HubId) (time : Timestamp) :
    ((b.stamp h time).leaf ((b.hub h).table.slot .instant)).values = [instantOf time] ↔
      (b.leaf ((b.hub h).table.slot .instant)).isCell = true ∧
        (b.hub h).table.slot .instant ≠ (b.hub h).table.slot .datetime := by
  have hl : (b.hub h).table.instant = (b.hub h).table.slot .instant := rfl
  rw [leaf_stamp]
  by_cases hs : (b.hub h).table.datetime = (b.hub h).table.slot .instant
  -- the date is written over the milliseconds
  · rw [if_pos hs]
    refine iff_of_false ?_ fun hc => hc.2 hs.symm
    rcases Leaf.values_write ((b.modifyLeaf (b.hub h).table.instant
      (·.write (instantOf time) time)).leaf ((b.hub h).table.slot .instant)) (datetimeOf time) time
      with ⟨-, hv⟩ | ⟨-, n, hv⟩ <;> rw [hv] <;> exact stamp_ne time .instant nofun
  · rw [if_neg hs, if_pos hl]
    exact (values_write_stamp _ time .instant).trans (and_iff_left fun he => hs he.symm).symm

/-! ### Publications of a run -/

/-- A slot is not taken over by publications, and its leaf stays of its kind. -/
theorem ChangesBy.layout (hc : ChangesBy A E b b') (hb : Sound b) (he : ¬ E .register) {h : HubId}
    (hh : b'.isHubHeld h = true) : b.isHubHeld h = true ∧ (b'.hub h).table = (b.hub h).table ∧
      ∀ r, (b'.leaf ((b.hub h).table.slot r)).isCell =
        (b.leaf ((b.hub h).table.slot r)).isCell := by
  induction hc with
  | refl => exact ⟨hh, rfl, fun _ => rfl⟩
  | @tail c d hs hc ih =>
    have hsound := ChangesBy.sound hs hb
    have hheld : c.isHubHeld h = true := by
      rcases hc.held hh with hh | ⟨hr, -⟩
      · exact hh
      · exact absurd hr he
    obtain ⟨hold, ht, hcell⟩ := ih hheld
    have ht' : (d.hub h).table = (c.hub h).table := by
      rcases hc.table (hsound.held h hheld) with ht | ⟨hr, -⟩
      · exact ht
      · exact absurd hr he
    refine ⟨hold, ht'.trans ht, fun r => ?_⟩
    have hlt := hsound.slot_lt h r
    rw [ht] at hlt
    rw [← hcell r, Leaf.isCell, Leaf.isCell, hc.sort hlt]

/-- An operation that publishes a hub registers nothing. -/
theorem not_register_of_published (hb : Sound b) {op : Op} {h : HubId} {s : Snapshot}
    {line : String} (he : .published h s line ∈ news b (b.step op)) : ¬ op.Edits .register := by
  intro hr
  have hj := events_of_journal_eq (step_onlyRegisters hb hr).journal
  rw [news_of_events (hj.trans (List.append_nil _).symm)] at he
  cases he

/-- A hub that publishes a snapshot was held before the operation, with the same leaves in its
slots, and the snapshot shows these leaves after they were stamped. -/
theorem step_published (hb : Sound b) {op : Op} {h : HubId} {s : Snapshot} {line : String}
    (he : .published h s line ∈ news b (b.step op)) : b.isHubHeld h = true ∧
      ∃ c : Board, (c.hub h).table = (b.hub h).table ∧
        (∀ r, (c.leaf ((b.hub h).table.slot r)).isCell =
          (b.leaf ((b.hub h).table.slot r)).isCell) ∧
        ∀ r, s.get? (Name.Reserved.predicate r) =
          some ((c.stamp h s.takenAt).leaf ((c.hub h).table.slot r)).values := by
  have hr := not_register_of_published hb he
  have hc := step_changesBy hb (plansWithin_true b) op.plansWithin_true
  obtain ⟨c, time, hcs, held, rfl, -⟩ := hc.of_published he
  obtain ⟨hold, ht, hcell⟩ := hcs.layout hb hr held
  have hslots : ((c.stamp h time).hub h).table.IsSlotted := (ChangesBy.sound hcs hb).slotted h
  exact ⟨hold, c, ht, hcell, fun r => get?_capture_slot hslots time r⟩

/-- What a snapshot of a hub tells of its time, by the leaves that are in the reserved slots. The
milliseconds stand in it exactly if the leaf in their slot is a plain cell that is not in the slot
of the date as well, the date exactly if the leaf in its slot is a plain cell. Whatever slot was not
taken over shows the time. -/
structure CarriesTime (b : Board) (h : HubId) (s : Snapshot) : Prop where
  instant : s.get? (Name.Reserved.predicate .instant) = some [instantOf s.takenAt] ↔
    (b.leaf (b.hub h).table.instant).isCell = true ∧
      (b.hub h).table.instant ≠ (b.hub h).table.datetime
  datetime : s.get? (Name.Reserved.predicate .datetime) = some [datetimeOf s.takenAt] ↔
    (b.leaf (b.hub h).table.datetime).isCell = true
  own : ∀ r : Name.Reserved, b.IsOwn h r → s.get? r.predicate = some [r.stamp s.takenAt]

/-- A slot that was not taken over holds a plain cell that is in no other slot. -/
theorem carriesTime_of (hp : Secluded b) {h : HubId} (held : b.isHubHeld h = true) {s : Snapshot}
    (instant : s.get? (Name.Reserved.predicate .instant) = some [instantOf s.takenAt] ↔
      (b.leaf (b.hub h).table.instant).isCell = true ∧
        (b.hub h).table.instant ≠ (b.hub h).table.datetime)
    (datetime : s.get? (Name.Reserved.predicate .datetime) = some [datetimeOf s.takenAt] ↔
      (b.leaf (b.hub h).table.datetime).isCell = true) : b.CarriesTime h s := by
  have hown : ∀ r, b.IsOwn h r → (b.leaf ((b.hub h).table.slot r)).isCell = true := by
    intro r ho
    rw [Leaf.isCell, hp.scalar h r held ho]
    rfl
  refine ⟨instant, datetime, fun r ho => ?_⟩
  cases r with
  | instant =>
    refine instant.2 ⟨hown _ ho, fun hs => ?_⟩
    cases (hp.apart h h .instant .datetime held held ho hs.symm).2
  | datetime => exact datetime.2 (hown _ ho)

theorem step_carriesTime (hb : Sound b) (hp : Secluded b) {op : Op} {h : HubId} {s : Snapshot}
    {line : String} (he : .published h s line ∈ news b (b.step op)) : b.CarriesTime h s := by
  obtain ⟨held, c, ht, hcell, hshown⟩ := step_published hb he
  refine carriesTime_of hp held ?_ ?_
  · rw [hshown, Option.some_inj, stamped_instant, ht]
    exact and_congr_left' (Bool.eq_iff_iff.1 (hcell .instant))
  · rw [hshown, Option.some_inj, stamped_datetime, ht]
    exact Bool.eq_iff_iff.1 (hcell .datetime)

/-! ### Commits by several workers -/

section Commit

variable {start : Board} {h k : HubId} {time : Timestamp} {st : Stage}

/-- What the slots of a hub hold on the way to its publication, by the leaves that are in them, and
then what the snapshot that was captured of them tells of its time. -/
def SlotsHold (start : Board) (h : HubId) (time : Timestamp) (b : Board) : Stage → Prop
  | .instant => (b.leaf (start.hub h).table.instant).values = [instantOf time] ↔
      (start.leaf (start.hub h).table.instant).isCell = true
  | .stamped =>
    ((b.leaf (start.hub h).table.instant).values = [instantOf time] ↔
      (start.leaf (start.hub h).table.instant).isCell = true ∧
        (start.hub h).table.instant ≠ (start.hub h).table.datetime) ∧
    ((b.leaf (start.hub h).table.datetime).values = [datetimeOf time] ↔
      (start.leaf (start.hub h).table.datetime).isCell = true)
  | .captured s _ | .logged s _ => start.CarriesTime h s
  | _ => True

/-- What another hub does to leaves that are in no slot of its own leaves the slots as they are. -/
theorem SlotsHold.of_values (hs : SlotsHold start h time b st)
    (hv : ∀ r, (b'.leaf ((start.hub h).table.slot r)).values =
      (b.leaf ((start.hub h).table.slot r)).values) : SlotsHold start h time b' st := by
  have hi : (b'.leaf (start.hub h).table.instant).values =
      (b.leaf (start.hub h).table.instant).values := hv .instant
  have hd : (b'.leaf (start.hub h).table.datetime).values =
      (b.leaf (start.hub h).table.datetime).values := hv .datetime
  cases st with
  | instant =>
    rw [SlotsHold, hi]
    exact hs
  | stamped =>
    rw [SlotsHold, hi, hd]
    exact hs
  | _ => exact hs

/-- **The slots of a hub hold in each stage what was written to them.** -/
theorem SlotsHold.step (hb : Sound start) (hp : Secluded start) (held : start.isHubHeld h = true)
    (hu : Underway start h b st) (hs : SlotsHold start h time b st) :
    SlotsHold start h time (b.publishStep h time st).1 (b.publishStep h time st).2 := by
  have ht := (hu.frame.hub h).table
  have hcell := fun l => Bool.eq_iff_iff.1 (hu.frame.leaf l).isCell
  cases st with
  | waiting =>
    have hl : (start.hub h).table.slot .instant = (start.hub h).table.instant := rfl
    show (Leaf.values (Board.leaf (b.modifyLeaf _ _) _) = _) ↔ _
    rw [ht, leaf_modifyLeaf, if_pos hl]
    exact (values_write_stamp _ time .instant).trans (hcell _)
  | instant =>
    have hl : (start.hub h).table.slot .datetime = (start.hub h).table.datetime := rfl
    refine ⟨?_, ?_⟩ <;> show (Leaf.values (Board.leaf (b.modifyLeaf _ _) _) = _) ↔ _ <;>
      rw [ht, leaf_modifyLeaf]
    · change (b.leaf (start.hub h).table.instant).values = _ ↔ _ at hs
      by_cases he : (start.hub h).table.slot .datetime = (start.hub h).table.instant
      -- the date is written over the milliseconds
      · rw [if_pos he]
        refine iff_of_false ?_ fun hc => hc.2 he.symm
        rcases Leaf.values_write (b.leaf ((start.hub h).table.slot .datetime))
          (datetimeOf time) time
          with ⟨-, hv⟩ | ⟨-, n, hv⟩ <;> rw [hv] <;> exact stamp_ne time .instant nofun
      · rw [if_neg he]
        exact hs.trans (and_iff_left fun hi => he hi.symm).symm
    · rw [if_pos hl]
      exact (values_write_stamp _ time .datetime).trans (hcell _)
  | stamped =>
    have hslots : (b.hub h).table.IsSlotted := by
      rw [ht]
      exact hb.slotted h
    have hget := get?_capture_slot hslots time
    refine carriesTime_of hp held ?_ ?_ <;> rw [hget, Option.some_inj, ht]
    · exact hs.1
    · exact hs.2
  | captured s line => exact hs
  | logged s line => trivial
  | telling left gone => cases left <;> trivial
  | done => trivial

/-- A hub on the way to its publication: what its slots hold, and what it has published. -/
structure Stamped (start : Board) (h : HubId) (time : Timestamp) (b : Board) (st : Stage) :
    Prop where
  slots : SlotsHold start h time b st
  published : ∃ es, b.events = start.events ++ es ∧
    ∀ s line, .published h s line ∈ es → start.CarriesTime h s

theorem Stamped.own (hb : Sound start) (hp : Secluded start) (held : start.isHubHeld h = true)
    (hu : Underway start h b st) (hs : Stamped start h time b st) :
    Stamped start h time (b.publishStep h time st).1 (b.publishStep h time st).2 := by
  obtain ⟨es, hes, hpub⟩ := hs.published
  refine ⟨hs.slots.step hb hp held hu, es ++ b.stepEvents h st, ?_, fun s line hm => ?_⟩
  · rw [events_publishStep hb.meter hu, hes, List.append_assoc]
  · rcases List.mem_append.1 hm with hm | hm
    · exact hpub s line hm
    -- the snapshot is the one that was captured
    · obtain ⟨-, rfl⟩ := published_stepEvents hm
      exact hs.slots

theorem Stamped.other (hb : Sound start) (hne : k ≠ h)
    (hslots : ∀ r, (start.hub h).table.isReserved ((start.hub k).table.slot r) = false)
    {r : Stage} (hu : Underway start h b r) (hs : Stamped start k time b st) :
    Stamped start k time (b.publishStep h time r).1 st := by
  obtain ⟨es, hes, hpub⟩ := hs.published
  refine ⟨hs.slots.of_values fun q => ?_, es ++ b.stepEvents h r, ?_, fun s line hm => ?_⟩
  -- the slots of a hub are in no slot of another one
  · have hface := (within_publishStep hb.meter hu time).face ((start.hub k).table.slot q)
      fun j hj => by rw [List.mem_singleton.1 hj]; exact hslots q
    rw [← Leaf.values_face, hface, Leaf.values_face]
  · rw [events_publishStep hb.meter hu, hes, List.append_assoc]
  · rcases List.mem_append.1 hm with hm | hm
    · exact hpub s line hm
    · exact absurd (published_stepEvents hm).1 hne

/-- **What the snapshots of a hub carry** that a commit publishes, in any order of its workers, if
the consumers of the touched hubs only observe and no other one of them has a leaf of the slots in a
slot of its own. -/
theorem finishBy_carriesTime (hb : Regular b) {tx : Transaction} (ht : b.transaction = some tx)
    (ho : b.OnlyObserved tx.hubs) (ha : b.SlotsApart h tx.hubs) {workers : Nat}
    {schedule : List Nat} {r : Board × Nat} (hr : b.finishBy workers schedule = some r)
    {s : Snapshot} {line : String} (he : .published h s line ∈ news b r.1) : b.CarriesTime h s := by
  have held : ∀ k ∈ tx.hubs, b.isHubHeld k = true := fun k hk => isHubHeld_of_touched ht hk
  obtain ⟨c, rfl, hw, hall⟩ := finishBy_each
    (P := fun k c st => k = h → Stamped b k tx.openedAt c st)
    hb.sound ht (hb.touched.nodup ht) ho
    (fun k _ _ => ⟨trivial, [], (List.append_nil _).symm, nofun⟩)
    (fun k hk c st hu hs hkh => (hs hkh).own hb.sound hb.secluded (held k hk) hu)
    (fun j hj k hk hne c q st hu _ hs hkh => (hs hkh).other hb.sound hne
      (hkh ▸ ha.isReserved hj fun hjh => hne (hkh.trans hjh.symm)) hu) hr
  -- whatever was published is of one of the hubs
  obtain ⟨fs, hfs, hof, -⟩ := hw.events
  have hnews : news b { c with transaction := none } = fs := news_of_events hfs
  rw [hnews] at he
  obtain ⟨k, hk, hke⟩ := hof _ he
  obtain rfl : h = k := Option.some.inj hke
  obtain ⟨es, hes, hpub⟩ := (hall h hk rfl).published
  refine hpub s line ?_
  rwa [List.append_cancel_left (hes.symm.trans hfs)]

end Commit

/-! ### Executions -/

/-- **Which snapshots of a hub carry the time of their publication**, in every execution, with any
number of workers and in every order of their steps. Where several workers share a commit, the
consumers of the touched hubs only observe, and no other touched hub has a leaf of the slots in a
slot of its own. Each publication of the execution is made in one of its steps, and what its
snapshot tells of its time is settled by the leaves in the slots of the hub before that step. -/
theorem published_stamped (settings : Settings) (wall : Timestamp) {disk : Disk}
    (hd : disk.Sound) {steps : List Step} {b' : Board}
    (he : Executes (start settings wall disk) steps b') (h : HubId)
    (ho : ∀ t ∈ steps, t.op = .finish → t.before.OnlyObserved t.before.sharedHubs)
    (ha : ∀ t ∈ steps, t.op = .finish → t.before.SlotsApart h t.before.sharedHubs) :
    (∀ s line, Event.published h s line ∈ b'.events →
      ∃ t ∈ steps, Event.published h s line ∈ t.news) ∧
    ∀ t ∈ steps, ∀ s line, Event.published h s line ∈ t.news → t.before.CarriesTime h s := by
  have hb := regular_start settings wall hd
  refine ⟨fun s line hm => ?_, fun t ht s line hm => ?_⟩
  · rw [← news_start settings wall disk] at hm
    exact he.exists_step hb hm
  · obtain ⟨hregular, hperforms⟩ := (he.regular hb).2 t ht
    rcases performs_cases hregular.sound hperforms with hs |
      ⟨tx, schedule, r, hop, htx, hhubs, hr, hs⟩
    · rw [Step.news, hs] at hm
      exact step_carriesTime hregular.sound hregular.secluded hm
    · rw [Step.news, hs] at hm
      exact finishBy_carriesTime hregular htx (hhubs ▸ ho t ht hop) (hhubs ▸ ha t ht hop) hr hm

/-- A triple registers the counter of open connections under the predicate of the milliseconds of a
hub. -/
def slotTaken : List Op :=
  [.openTransaction .triple, .classify (Name.hubName "r") (Name.Reserved.predicate .instant)
    (.iri Name.connectionsLeaf), .finish]

/-- The hub is published alone, and then touched in one transaction with another hub. -/
def bothTouched : List Op :=
  slotTaken ++ .update ⟨1⟩ default ::
    [.openHub (Name.hubName "s"), .openTransaction .batch, .touch ⟨1⟩, .touch ⟨2⟩]

/-- The board of two workers on which these operations are run. -/
def twoWorkers : Board := start { givenWorkers := 2, cores := 2 } default {}

/-- An order of the steps of the two workers. -/
def slotTurns : List Nat := [0, 1, 0, 1, 1, 1, 1, 1, 0, 0, 0, 0]

/-- The snapshot shows the counter in the place of the milliseconds, when the hub is published alone
and when two workers publish both hubs at the same time. The other hub shows the time. -/
theorem published_stamped_slotTaken :
    (twoWorkers.run bothTouched).sharedHubs = [⟨1⟩, ⟨2⟩] ∧
    (∃ s line, Event.published ⟨1⟩ s line ∈
        news (twoWorkers.run slotTaken) ((twoWorkers.run slotTaken).step (.update ⟨1⟩ default)) ∧
      s.get? (Name.Reserved.predicate .instant) = some [.integer 0] ∧
      (twoWorkers.run slotTaken).CarriesTime ⟨1⟩ s) ∧
    ∃ r, (twoWorkers.run bothTouched).finishBy 2 slotTurns = some r ∧
      (∃ s line, Event.published ⟨1⟩ s line ∈ news (twoWorkers.run bothTouched) r.1 ∧
        s.get? (Name.Reserved.predicate .instant) = some [.integer 0] ∧
        (twoWorkers.run bothTouched).CarriesTime ⟨1⟩ s) ∧
      ∃ s line, Event.published ⟨2⟩ s line ∈ news (twoWorkers.run bothTouched) r.1 ∧
        s.get? (Name.Reserved.predicate .instant) = some [instantOf s.takenAt] ∧
        (twoWorkers.run bothTouched).CarriesTime ⟨2⟩ s := by
  have hb : Sound twoWorkers := sound_start _ _ _ Disk.sound_empty
  obtain ⟨r, hr⟩ : ∃ r, (twoWorkers.run bothTouched).finishBy 2 slotTurns = some r :=
    Option.isSome_iff_exists.1 (by decide +kernel)
  have hr1 : r.1 = (((twoWorkers.run bothTouched).finishBy 2 slotTurns).getD default).1 := by
    rw [hr]
    rfl
  have hfinish : (twoWorkers.run bothTouched).Performs .finish r.1 := by
    refine .commit slotTurns r ?_
    rw [show (twoWorkers.run bothTouched).settings.workers = 2 by decide +kernel, hr]
  have he : Executes twoWorkers
      (twoWorkers.steps bothTouched ++ [⟨twoWorkers.run bothTouched, .finish, r.1⟩]) r.1 :=
    (executes_run hb bothTouched).append (.cons hfinish (.nil r.1))
  have hserial : ∀ t ∈ twoWorkers.steps bothTouched,
      t.op = .finish → t.before.sharedHubs = [] := by decide +kernel
  have ho : ∀ t ∈ twoWorkers.steps bothTouched ++ [⟨twoWorkers.run bothTouched, .finish, r.1⟩],
      t.op = .finish → t.before.OnlyObserved t.before.sharedHubs := by
    refine List.forall_mem_append.2 ⟨fun t ht hop => ?_, List.forall_mem_singleton.2 fun _ => ?_⟩
    · rw [hserial t ht hop]
      exact nofun
    · show (twoWorkers.run bothTouched).OnlyObserved (twoWorkers.run bothTouched).sharedHubs
      decide +kernel
  have ha : ∀ h, h = ⟨1⟩ ∨ h = ⟨2⟩ → ∀ t ∈ twoWorkers.steps bothTouched ++
      [⟨twoWorkers.run bothTouched, .finish, r.1⟩],
      t.op = .finish → t.before.SlotsApart h t.before.sharedHubs := by
    intro h hh
    refine List.forall_mem_append.2 ⟨fun t ht hop => ?_, List.forall_mem_singleton.2 fun _ => ?_⟩
    · rw [hserial t ht hop]
      exact nofun
    · show (twoWorkers.run bothTouched).SlotsApart h (twoWorkers.run bothTouched).sharedHubs
      rcases hh with rfl | rfl <;> decide +kernel
  have hall := fun h hh => (published_stamped _ _ Disk.sound_empty he h ho (ha h hh)).2
  have hlast : ∀ h, h = ⟨1⟩ ∨ h = ⟨2⟩ → ∀ s line,
      Event.published h s line ∈ news (twoWorkers.run bothTouched) r.1 →
      (twoWorkers.run bothTouched).CarriesTime h s :=
    fun h hh => hall h hh _ (List.mem_append_right _ List.mem_cons_self)
  have hmem := List.mem_append_left [⟨twoWorkers.run bothTouched, .finish, r.1⟩]
    (mem_steps twoWorkers slotTaken (.update ⟨1⟩ default)
      [.openHub (Name.hubName "s"), .openTransaction .batch, .touch ⟨1⟩, .touch ⟨2⟩])
  obtain ⟨⟨s0, line0⟩, hm0, hs0⟩ : ∃ e ∈ published ⟨1⟩ (news (twoWorkers.run slotTaken)
      ((twoWorkers.run slotTaken).step (.update ⟨1⟩ default))),
      e.1.get? (Name.Reserved.predicate .instant) = some [.integer 0] := by decide +kernel
  obtain ⟨⟨s1, line1⟩, hm1, hs1⟩ : ∃ e ∈ published ⟨1⟩ (news (twoWorkers.run bothTouched) r.1),
      e.1.get? (Name.Reserved.predicate .instant) = some [.integer 0] := by
    rw [hr1]
    decide +kernel
  obtain ⟨⟨s2, line2⟩, hm2, hs2⟩ : ∃ e ∈ published ⟨2⟩ (news (twoWorkers.run bothTouched) r.1),
      e.1.get? (Name.Reserved.predicate .instant) = some [instantOf e.1.takenAt] := by
    rw [hr1]
    decide +kernel
  have h0 := hall ⟨1⟩ (.inl rfl) _ hmem s0 line0 (mem_published.1 hm0)
  have h1 := hlast ⟨1⟩ (.inl rfl) s1 line1 (mem_published.1 hm1)
  have h2 := hlast ⟨2⟩ (.inr rfl) s2 line2 (mem_published.1 hm2)
  exact ⟨by decide +kernel, ⟨s0, line0, mem_published.1 hm0, hs0, h0⟩, r, hr,
    ⟨s1, line1, mem_published.1 hm1, hs1, h1⟩, s2, line2, mem_published.1 hm2, hs2, h2⟩

end Board

end Switchboard
