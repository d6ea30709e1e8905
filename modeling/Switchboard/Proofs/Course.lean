import Mathlib.Data.List.Induction
import Mathlib.Data.List.Nodup
import Switchboard.Proofs.Dated
import Switchboard.Proofs.History

/-!
# Clock and transaction in the course of a run

What each operation does to the wall clock and to the open transaction, and as of which times it
publishes. A transaction stays open with the time at which it was opened until it is finished or
abandoned, and the hubs that are touched in it stand under their own names.

* `step_course`: the operations, one by one.
* `opened_of_run`: where in a run the open transaction was opened.
* `Reachable.touched`: the touched hubs.
-/

namespace Switchboard

namespace Board

variable {T : HubId → Timestamp → Prop} {b b' : Board}

/-! ### Operations that leave clock and transaction alone -/

namespace Dated

theorem onlyIf {allowed : Bool} (hd : Dated T b b') : Dated T b (b.onlyIf allowed b') :=
  onlyIf_of (P := Dated T b) (.refl b) fun _ => hd

theorem openHub {name : String} {h : HubId} (ho : b.openHub name = .ok (b', h)) : Dated T b b' := by
  rcases openHub_cases ho with ⟨-, rfl⟩ | ⟨id, legal, -, rfl, rfl⟩
  · exact .refl _
  · rw [newHub_true name legal]
    exact .of_eq rfl rfl rfl

theorem openLeaf {name : String} {l : LeafId} (ho : b.openLeaf name = .ok (b', l)) :
    Dated T b b' := by
  rcases openLeaf_cases ho with ⟨-, rfl⟩ | ⟨make, rfl, -⟩
  · exact .refl _
  · exact .of_eq rfl rfl rfl

theorem addLeaf (b : Board) (h : HubId) (predicate : String) (l : LeafId) :
    Dated T b (b.addLeaf h predicate l).1 := by
  unfold Board.addLeaf
  split <;> exact .of_eq rfl rfl rfl

theorem register (b : Board) (hubName predicate leafName : String) :
    Dated T b (b.register hubName predicate leafName).1 := by
  unfold Board.register
  split
  · exact .refl b
  · rename_i c h h1
    have hc : Dated T b c := openHub h1
    split
    · exact hc
    · rename_i d l h2
      exact (hc.trans (openLeaf h2)).trans (addLeaf d h predicate l)

theorem addMeter (b : Board) (h : HubId) (predicate name : String) :
    Dated T b (b.addMeter h predicate name).1 := by
  have ha := addLeaf (T := T) (b.newLeaf (.meter name b.settings.leastWindow b.now)).1 h predicate
    (b.newLeaf (.meter name b.settings.leastWindow b.now)).2
  have hn : Dated T b (b.newLeaf (.meter name b.settings.leastWindow b.now)).1 :=
    .of_eq rfl rfl rfl
  unfold Board.addMeter
  dsimp only
  split <;> rename_i he <;> rw [he] at ha
  · exact (hn.trans ha).trans (.of_eq rfl rfl rfl)
  · exact hn.trans ha

theorem dropReceiver (b : Board) (c : ConsumerId) : Dated T b (b.dropReceiver c).1 := by
  unfold Board.dropReceiver
  split <;> exact .of_eq rfl rfl rfl

theorem labelConsumer (b : Board) (label : String) (c : ConsumerId) :
    Dated T b (b.labelConsumer label c) := by
  unfold Board.labelConsumer
  split
  · rename_i old _
    exact (dropReceiver b old.consumer).trans (.of_eq rfl rfl rfl)
  · exact .of_eq rfl rfl rfl

theorem newConsumer (b : Board) (x : Consumer) (label : String) :
    Dated T b ((b.newConsumer x).1.labelConsumer label (b.newConsumer x).2) := by
  have hn : Dated T b (b.newConsumer x).1 := .of_eq rfl rfl rfl
  exact hn.trans (labelConsumer _ label _)

theorem receive (b : Board) (c : ConsumerId) : Dated T b (b.receive c).1 := by
  unfold Board.receive
  split
  · split <;> exact .of_eq rfl rfl rfl
  · exact .refl b

theorem takeNotes (b : Board) (c : ConsumerId) : Dated T b (b.takeNotes c).1 := by
  unfold Board.takeNotes
  split <;> exact .of_eq rfl rfl rfl

theorem dropConsumer (b : Board) (label : String) : Dated T b (b.dropConsumer label).1 := by
  unfold Board.dropConsumer
  split <;> exact .of_eq rfl rfl rfl

theorem connect (hw : ∀ h, T h b.wall) (targets : List HubId) (capacity : Nat) :
    Dated T b (b.connect targets capacity).1 := by
  have hs : ∀ (d : Board) (c : ConsumerId),
      Dated T d (targets.foldl (fun b h => b.subscribe h c) d) := by
    intro d c
    induction targets generalizing d with
    | nil => exact .refl d
    | cons h hs ih =>
      have h1 : Dated T d (d.subscribe h c) := .of_eq rfl rfl rfl
      exact h1.trans (ih (d.subscribe h c))
  have hn : Dated T b (b.newConsumer
      (.session { queue := { capacity := max 1 capacity }, targets })).1 := .of_eq rfl rfl rfl
  have hd := hn.trans (hs _ (b.newConsumer
    (.session { queue := { capacity := max 1 capacity }, targets })).2)
  exact hd.trans (count_dated (hd.present hw) _ 1)

end Dated

/-! ### What operations do to clock and transaction -/

/-- The present time, for any hub. -/
def IsNow (b : Board) (_ : HubId) (t : Timestamp) : Prop := t = b.wall

theorem isNow (b : Board) (h : HubId) : b.IsNow h b.wall := rfl

/-- **What an operation does to the clock and to the transaction**, and as of which times hubs are
published in it. -/
inductive Course (b : Board) : Op → Board → Prop
  /-- Clock and transaction stay, and hubs are published as of the present time. -/
  | present {op : Op} {b' : Board} (dated : Dated b.IsNow b b') : Course b op b'
  /-- A hub is published as of a given time. -/
  | update {h : HubId} {time : Timestamp} {b' : Board}
    (dated : Dated (fun k t => t = b.wall ∨ k = h ∧ t = time) b b') : Course b (.update h time) b'
  /-- Time passes, and what is due is published as of the new time. -/
  | advance {nanos : Nat} {c b' : Board} (wall : c.wall = .ofNanos (b.wall.totalNanos + nanos))
    (transaction : c.transaction = b.transaction) (journal : c.journal = b.journal)
    (dated : Dated c.IsNow c b') : Course b (.advance nanos) b'
  | setWall (t : Timestamp) : Course b (.setWall t) (b.setWall t)
  | opened (kind : UpdateKind) (free : b.transaction = none) :
    Course b (.openTransaction kind) (b.openTransaction kind)
  /-- A hub is touched, and nothing is published. -/
  | touched {op : Op} {tx : Transaction} {h : HubId} {b' : Board} (held : b.isHubHeld h = true)
    (opened : b.transaction = some tx) (wall : b'.wall = b.wall) (journal : b'.journal = b.journal)
    (touches : b'.transaction =
      some { tx with touched := tx.touched.putNew (b.hub h).name h }) : Course b op b'
  /-- The touched hubs are published as of the time at which the transaction was opened. -/
  | finished {tx : Transaction} {c : Board} (opened : b.transaction = some tx)
    (dated : Dated (fun h t => t = b.wall ∨ h ∈ tx.hubs ∧ t = tx.openedAt) b c) :
    Course b .finish { c with transaction := none }
  | abandoned : Course b .abandon b.abandon

theorem course_touch {c : Board} {op : Op} {h : HubId} (held : b.isHubHeld h = true)
    (wall : c.wall = b.wall) (journal : c.journal = b.journal)
    (transaction : c.transaction = b.transaction) (name : (c.hub h).name = (b.hub h).name) :
    Course b op (c.touch h) := by
  cases ht : b.transaction with
  | none =>
    refine .present (.of_eq wall ?_ journal)
    show c.transaction.map _ = _
    rw [transaction, ht]
    rfl
  | some tx =>
    refine .touched held ht wall journal ?_
    show c.transaction.map _ = _
    rw [transaction, ht, name]
    rfl

theorem course_setValues {op : Op} {h : HubId} (held : b.isHubHeld h = true) (predicate : String)
    (vs : List Literal) : Course b op (b.setValues h predicate vs).1 := by
  rcases setValues_cases b h predicate vs with ⟨tx, l, ht, -, he⟩ | ⟨-, he⟩ <;> rw [he]
  · exact course_touch held rfl rfl rfl rfl
  · exact .present (.refl b)

theorem course_classify (b : Board) (subject predicate : String) (object : TripleObject) :
    Course b (.classify subject predicate object) (b.classify subject predicate object).1 := by
  cases object with
  | iri name =>
    rw [classify]
    split
    · exact .present (.register b subject predicate name)
    · exact .present (.refl b)
  | literal v =>
    rw [classify]
    split
    · rename_i hh
      exact course_setValues (isHubHeld_of_hub? hh) predicate [v]
    · exact .present (.refl b)

theorem course_finish (b : Board) : Course b .finish b.finish.1 := by
  cases ht : b.transaction with
  | none =>
    rw [finish, ht]
    exact .present (.refl b)
  | some tx =>
    rw [finish_eq ht]
    exact .finished ht (publishAll_dated (fun _ => .inl rfl) fun h hh => .inr ⟨hh, rfl⟩)

theorem course_advance (b : Board) (nanos : Nat) :
    Course b (.advance nanos) (b.advance nanos) := by
  let c := { b with wall := .ofNanos (b.wall.totalNanos + nanos), now := b.now + nanos }
  refine .advance (c := c) rfl rfl rfl ?_
  have hs : Dated c.IsNow c c.sampleAll.1 := sampleAll_dated c.isNow
  rw [advance]
  dsimp only
  split
  · split
    · exact hs.trans (.of_eq rfl rfl rfl)
    · exact .refl c
  · exact .refl c

/-- **The operations, one by one.** -/
theorem step_course (b : Board) (op : Op) : Course b op (b.step op) := by
  have hw := b.isNow
  have hif : ∀ {allowed : Bool} {c : Board}, (allowed = true → Course b op c) →
      Course b op (b.onlyIf allowed c) := onlyIf_of (.present (.refl b))
  cases op with
  | openHub name => exact orElse_of (.present (.refl b)) fun _ _ ho => .present (.openHub ho)
  | openLeaf name => exact orElse_of (.present (.refl b)) fun _ _ ho => .present (.openLeaf ho)
  | addLeaf h predicate l => exact .present (.onlyIf (.addLeaf b h predicate l))
  | addMeter label h predicate name =>
    exact .present (.onlyIf ((Dated.addMeter b h predicate name).trans (.of_eq rfl rfl rfl)))
  | openTransaction kind =>
    refine hif fun free => ?_
    exact .opened kind (Option.isNone_iff_eq_none.1 free)
  | touch h => exact hif fun held => course_touch held rfl rfl rfl rfl
  | setValue h predicate v => exact hif fun held => course_setValues held predicate [v]
  | setValues h predicate vs => exact hif fun held => course_setValues held predicate vs
  | classify subject predicate object =>
    exact hif fun _ => course_classify b subject predicate object
  | finish => exact course_finish b
  | abandon => exact .abandoned
  | increment l => exact .present (.onlyIf (count_dated hw l 1))
  | decrement l => exact .present (.onlyIf (count_dated hw l (-1)))
  | sample l now => exact .present (.onlyIf (sample_dated hw l now))
  | sampleAll => exact .present (sampleAll_dated hw)
  | update h time =>
    exact .update (.onlyIf (publish_dated (fun _ => .inl rfl) (.inr ⟨rfl, rfl⟩)))
  | formatted h => exact .present (.onlyIf (.formatted b h))
  | json h => exact .present (.onlyIf (.json b h))
  | observe label noted answers planned =>
    exact .present (.newConsumer b _ label)
  | listen label capacity => exact .present (.newConsumer b _ label)
  | connect label targets capacity =>
    exact .present (.onlyIf ((Dated.connect hw targets capacity).trans (.labelConsumer _ label _)))
  | close c => exact .present (.onlyIf (close_dated hw c))
  | receive c => exact .present (.onlyIf (.receive b c))
  | takeNotes c => exact .present (.onlyIf (.takeNotes b c))
  | dropReceiver c => exact .present (.onlyIf (.dropReceiver b c))
  | dropConsumer label => exact .present (.dropConsumer b label)
  | settle => exact .present (settle_dated hw)
  | advance nanos => exact course_advance b nanos
  | setWall t => exact .setWall t
  | makeHub label name =>
    rw [step, newHub_false]
    exact .present (.of_eq rfl rfl rfl)
  | makeLeaf | dropLeaf | stopSampler => exact .present (.of_eq rfl rfl rfl)
  | labelHub | labelLeaf | setVolatile | write | subscribe | unsubscribe =>
    exact .present (.onlyIf (.of_eq rfl rfl rfl))

/-! ### The course of a run -/

theorem Course.grows {op : Op} (hc : Course b op b') : b.events <+: b'.events := by
  cases hc with
  | present dated => exact dated.grows
  | update dated => exact dated.grows
  | @advance _ c _ _ _ journal dated => exact events_of_journal_eq journal ▸ dated.grows
  | touched _ _ _ journal _ => exact events_of_journal_eq journal ▸ List.prefix_rfl
  | finished _ dated => exact dated.grows
  | setWall | opened | abandoned => exact List.prefix_rfl

theorem run_snoc (b : Board) (ops : List Op) (op : Op) :
    b.run (ops ++ [op]) = (b.run ops).step op := by
  rw [run_append, run_cons, run_nil]

/-- Whether the hubs that are touched in the open transaction stand under their own names. -/
def NamesTouched (b : Board) : Prop := ∀ tx, b.transaction = some tx →
  ∀ name h, tx.touched.get? name = some h → (b.hub h).name = name

theorem step_namesTouched (hb : Sound b) (hn : b.NamesTouched) (op : Op) :
    (b.step op).NamesTouched := by
  -- a hub that is held keeps its name
  have hname : ∀ {h : HubId}, b.isHubHeld h = true → ((b.step op).hub h).name = (b.hub h).name :=
    fun hh => ((step_changes hb op).lasting (hb.held _ hh)).1
  have hsame : ∀ {tx : Transaction}, b.transaction = some tx → ∀ name h,
      tx.touched.get? name = some h → ((b.step op).hub h).name = name := by
    intro tx ht name h hg
    rw [hname (isHubHeld_of_touched ht (Register.mem_values_of_get? hg))]
    exact hn tx ht name h hg
  intro tx ht
  have hc := step_course b op
  generalize b.step op = c at hc ht hname hsame ⊢
  cases hc with
  | present dated => exact hsame (dated.transaction.symm.trans ht)
  | update dated => exact hsame (dated.transaction.symm.trans ht)
  | advance _ transaction _ dated =>
    exact hsame (transaction.symm.trans (dated.transaction.symm.trans ht))
  | setWall t => exact hsame ht
  | opened kind _ =>
    cases ht
    exact nofun
  | touched held hopen _ _ touches =>
    rw [touches] at ht
    cases ht
    intro name k hg
    rw [Register.putNew] at hg
    split at hg
    · exact hsame hopen name k hg
    · rw [Register.get?_put] at hg
      split at hg
      · rename_i he
        cases hg
        rw [hname held, he]
      · exact hsame hopen name k hg
  | finished => cases ht
  | abandoned => cases ht

/-- **The touched hubs stand under their own names**, on every reachable board, and so each of them
is touched once. -/
theorem Reachable.touched (hb : Reachable b) : b.NamesTouched := by
  obtain ⟨settings, wall, disk, ops, hd, rfl⟩ := hb
  induction ops using List.reverseRecOn with
  | nil =>
    intro tx ht
    rw [run_nil, start_eq] at ht
    cases ht
  | append_singleton ops op ih =>
    rw [run_snoc]
    exact step_namesTouched (run_sound (sound_start settings wall disk hd) ops) ih op

theorem NamesTouched.nodup (hn : b.NamesTouched) {tx : Transaction} (ht : b.transaction = some tx) :
    tx.hubs.Nodup := by
  have hk : tx.hubs.map (fun h => (b.hub h).name) = tx.touched.keys := by
    rw [Transaction.hubs, Register.values, List.map_map]
    exact List.map_congr_left fun e he => hn tx ht e.1 e.2 (Register.get?_eq_some_iff.2 he)
  refine List.Nodup.of_map (fun h => (b.hub h).name) ?_
  rw [hk]
  exact tx.touched.nodup_keys

end Board

end Switchboard
