import Switchboard.Proofs.Growth

/-!
# Operations as chains of changes

Beside publishing, callers make hubs and leaves, register them, hold and let go of them, open and
close transactions, and let time pass. `Board.Change` lists the single changes that all this is
made of, with the moves of a publication among them, each under the condition that callers fulfil.

* `Change.sound`: every change keeps a sound board sound.
* `Change.plans`: no change goes beyond the bound on plans.

So a law that every single change keeps holds throughout a run.
-/

namespace Switchboard

namespace Board

/-- **A single change** of a board. `A` are the actions that observers may have planned, `E` the
edits that callers make. -/
inductive Change (A : Action → Prop) (E : Edit → Prop) (b : Board) : Board → Prop
  | move {b' : Board} (m : Move A b b') : Change A E b b'
  | openHub (name id : String) (legal : Name.hubId? name = some id) (new : b.hub? name = none)
    (allowed : E .register) :
    Change A E b ((b.newHub name true).1.enterHub (b.newHub name true).2)
  | makeHub (label name : String) (allowed : E .register) :
    Change A E b ((b.newHub name false).1.labelHub label (b.newHub name false).2)
  | labelHub (label : String) (h : HubId) (held : b.isHubHeld h = true) :
    Change A E b (b.labelHub label h)
  | setVolatile (h : HubId) (held : b.isHubHeld h = true) : Change A E b (b.setVolatile h)
  | newLeaf (x : Leaf) (free : x.owner = none) (allowed : E .register) :
    Change A E b (b.newLeaf x).1
  | enterLeaf (name : String) (l : LeafId) (fair : b.IsFair l) (allowed : E .register) :
    Change A E b (b.enterLeaf name l)
  | labelLeaf (label : String) (l : LeafId) (fair : b.IsFair l) (allowed : E .register) :
    Change A E b (b.labelLeaf label l false)
  | dropLeaf (label : String) : Change A E b (b.dropLeaf label).1
  | addLeaf (h : HubId) (predicate : String) (l : LeafId) (held : b.isHubHeld h = true)
    (fair : b.IsFair l) (free : (b.hub h).table.byPredicate.contains predicate = false)
    (allowed : E .register) : Change A E b (b.addLeaf h predicate l).1
  | track (ls : List LeafId) : Change A E b { b with registry := { b.registry with meters := ls } }
  | write (l : LeafId) (vs : List Literal) (time : Timestamp) (known : b.isKnownLeaf l = true)
    (allowed : E .write) : Change A E b (b.modifyLeaf l (·.writeAll vs time))
  | sample (l : LeafId) (m m' : Meter) (time : Option Timestamp)
      (body : (b.leaf l).body = .meter m) :
    Change A E b (b.modifyLeaf l ({ · with body := .meter m', updatedAt := time }))
  | transact (t : Option Transaction)
    (held : ∀ tx, t = some tx → ∀ h ∈ tx.touched.values, b.isHubHeld h = true) :
    Change A E b { b with transaction := t }
  | subscribe (h : HubId) (c : ConsumerId) (held : b.isHubHeld h = true) :
    Change A E b (b.subscribe h c)
  | unsubscribe (h : HubId) (c : ConsumerId) (held : b.isHubHeld h = true) :
    Change A E b (b.unsubscribe h c)
  | newConsumer (x : Consumer) (plans : x.PlansWithin A) (idle : x.waiting = []) :
    Change A E b (b.newConsumer x).1
  | receive (c : ConsumerId) (q : Queue) (is : (b.consumer c).queue? = some q)
    (allowed : E (.receive c)) : Change A E b
      (b.setConsumer c ((b.consumer c).withQueue q.takeAll.1))
  | hangUp (c : ConsumerId) (q : Queue) (is : (b.consumer c).queue? = some q) :
    Change A E b (b.setConsumer c ((b.consumer c).withQueue q.close))
  | takeNotes (c : ConsumerId) (o : Observer) (is : b.consumer c = .observer o) :
    Change A E b (b.setConsumer c (.observer { o with notes := [] }))
  | labelConsumers (r : Register ConsumerLabel) :
    Change A E b { b with labels := { b.labels with consumers := r } }
  | clock (wall : Timestamp) (now : Int) (due : Option Int) :
    Change A E b { b with wall := wall, now := now, sampleDue := due }

variable {A : Action → Prop} {E : Edit → Prop} {b b' : Board}

/-! ### Every change keeps a sound board sound -/

theorem Kept.newLeaf (b : Board) {x : Leaf} (free : x.owner = none) : Kept b (b.newLeaf x).1 := by
  refine { Kept.refl b with leafCount := ?_, sort := fun l hl => ?_, owner := fun l h ho => ?_ }
  · show b.leaves.size ≤ (b.leaves.add x).size
    rw [Store.size_add]
    omega
  · have hne : (b.newLeaf x).2 ≠ l := by
      rintro rfl
      exact absurd hl (Nat.lt_irrefl _)
    rw [leaf_newLeaf, if_neg hne]
  · rw [leaf_newLeaf] at ho
    split at ho
    · rw [free] at ho
      cases ho
    · exact ho

theorem mem_values_erase {α : Type} {r : Register α} {key : String} {a : α}
    (h : a ∈ (r.erase key).values) : a ∈ r.values := by
  obtain ⟨e, he, rfl⟩ := List.mem_map.1 h
  exact List.mem_map_of_mem (List.mem_filter.1 he).1

/-- A leaf becomes known by a label. -/
theorem known_labelLeaf {label : String} {l k : LeafId} {plain : Bool}
    (h : (b.labelLeaf label l plain).isKnownLeaf k = true) : b.isKnownLeaf k = true ∨ k = l := by
  rw [isKnownLeaf_iff] at h ⊢
  rcases h with h | ⟨x, hx, rfl⟩ | h
  · exact .inl (.inl h)
  · rcases Register.mem_values_put hx with rfl | hx
    · exact .inr rfl
    · exact .inl (.inr (.inl ⟨x, hx, rfl⟩))
  · exact .inl (.inr (.inr h))

/-- A leaf becomes known by its name. -/
theorem known_enterLeaf {name : String} {l k : LeafId}
    (h : (b.enterLeaf name l).isKnownLeaf k = true) : b.isKnownLeaf k = true ∨ k = l := by
  rw [isKnownLeaf_iff] at h ⊢
  rcases h with h | h
  · rcases Register.mem_values_put h with rfl | h
    · exact .inr rfl
    · exact .inl (.inl h)
  · exact .inl (.inr h)

theorem known_dropLeaf {label : String} {k : LeafId}
    (h : (b.dropLeaf label).1.isKnownLeaf k = true) : b.isKnownLeaf k = true := by
  rw [isKnownLeaf_iff] at h ⊢
  rcases h with h | ⟨x, hx, rfl⟩ | h
  · exact .inl h
  · exact .inr (.inl ⟨x, mem_values_erase hx, rfl⟩)
  · exact .inr (.inr h)

/-- A change that is no more than a change of what publications leave as it was. -/
theorem Sound.of_frame (hb : Sound b) (hf : Frame b b')
    (once : ∀ h, (b'.hub h).consumers.Nodup) (journal : b'.journal = b.journal) : Sound b' := by
  refine hb.of_kept hf.kept (fun h hh => (hf.isHubHeld h).symm.trans hh)
    (fun l hl => .inl ((hf.isKnownLeaf l).symm.trans hl)) once ?_
  intro h s line hm
  rw [journal] at hm
  exact hb.published h s line hm

/-- A hub that is held after another one got a label was held before. -/
theorem isHubHeld_of_labelHub {label : String} {h k : HubId} (held : b.isHubHeld h = true)
    (hk : (b.labelHub label h).isHubHeld k = true) : b.isHubHeld k = true := by
  rw [isHubHeld_iff] at hk
  rcases hk with hk | hk | hk | hk
  · exact (isHubHeld_iff b k).2 (.inl hk)
  · exact (isHubHeld_iff b k).2 (.inr (.inl hk))
  · rcases Register.mem_values_put hk with rfl | hk
    · exact held
    · exact (isHubHeld_iff b k).2 (.inr (.inr (.inl hk)))
  · exact (isHubHeld_iff b k).2 (.inr (.inr (.inr hk)))

/-- A transaction that touches only hubs that are held makes no other hub held. -/
theorem isHubHeld_of_transact {t : Option Transaction}
    (held : ∀ tx, t = some tx → ∀ h ∈ tx.hubs, b.isHubHeld h = true) {k : HubId}
    (hk : Board.isHubHeld { b with transaction := t } k = true) : b.isHubHeld k = true := by
  rw [isHubHeld_iff] at hk
  rcases hk with hk | hk | hk | ⟨tx, ht, hk⟩
  · exact (isHubHeld_iff b k).2 (.inl hk)
  · exact (isHubHeld_iff b k).2 (.inr (.inl hk))
  · exact (isHubHeld_iff b k).2 (.inr (.inr (.inl hk)))
  · exact held tx ht k hk

/-- Only the mark of one hub changes when it becomes volatile. -/
theorem hub_setVolatile (b : Board) (h k : HubId) : (b.setVolatile h).hub k = b.hub k ∨
    (b.setVolatile h).hub k = { b.hub k with isVolatile := true } := by
  rw [setVolatile, hub_modifyHub]
  split
  · rename_i hk
    rw [hk]
    exact .inr rfl
  · exact .inl rfl

theorem Kept.setVolatile (b : Board) (h : HubId) : Kept b (b.setVolatile h) := by
  refine { Kept.refl b with
    hubCount := ?_, name := ?_, table := ?_, series := ?_, isVolatile := ?_ }
  · show b.hubs.size ≤ (b.hubs.put _ _).size
    rw [Store.size_put]
    omega
  · intro k
    rcases hub_setVolatile b h k with e | e <;> rw [e]
  · intro k
    rcases hub_setVolatile b h k with e | e <;> rw [e]
  · intro k
    rcases hub_setVolatile b h k with e | e <;> rw [e]
  · intro k hv
    rcases hub_setVolatile b h k with e | e <;> rw [e]
    exact hv

/-- **Every change keeps a sound board sound.** -/
theorem Change.sound (hc : Change A E b b') (hb : Sound b) : Sound b' := by
  cases hc with
  | move m => exact m.sound hb
  | openHub name id legal new _ => exact hb.openHub legal new
  | makeHub label name _ => exact hb.makeHub label name
  | addLeaf h predicate l held fair free _ => exact hb.addLeaf free fair
  | labelHub label h held =>
    exact hb.of_kept { Kept.refl b with } (fun k hk => isHubHeld_of_labelHub held hk)
      (fun l hl => .inl hl) hb.once hb.published
  | setVolatile h held =>
    have hk := Kept.setVolatile b h
    refine hb.of_kept hk (fun k hk => hk) (fun l hl => .inl ?_) (fun k => ?_) hb.published
    · rw [isKnownLeaf_iff] at hl ⊢
      simp only [hk.table] at hl
      exact hl
    · rcases hub_setVolatile b h k with e | e <;> rw [e] <;> exact hb.once k
  | newLeaf x free _ =>
    exact hb.of_kept (Kept.newLeaf b free) (fun k hk => hk)
      (fun l hl => .inl hl) hb.once hb.published
  | enterLeaf name l fair _ =>
    refine hb.of_kept { Kept.refl b with } (fun k hk => hk) (fun k hk => ?_) hb.once hb.published
    rcases known_enterLeaf hk with hk | rfl
    · exact .inl hk
    · exact .inr ⟨fair.room, fair.slots⟩
  | labelLeaf label l fair _ =>
    refine hb.of_kept { Kept.refl b with } (fun k hk => hk) (fun k hk => ?_) hb.once hb.published
    rcases known_labelLeaf hk with hk | rfl
    · exact .inl hk
    · exact .inr ⟨fair.room, fair.slots⟩
  | dropLeaf label =>
    exact hb.of_kept { Kept.refl b with } (fun k hk => hk) (fun k hk => .inl (known_dropLeaf hk))
      hb.once hb.published
  | write l vs time _ _ => exact hb.of_frame (Frame.writeLeaf b l vs time) hb.once rfl
  | sample l m m' time body =>
    exact hb.of_frame (Frame.modifyLeaf b ⟨rfl, by simp [Leaf.sort, body]⟩ rfl) hb.once rfl
  | transact t held =>
    exact hb.of_kept { Kept.refl b with } (fun k hk => isHubHeld_of_transact held hk)
      (fun l hl => .inl hl) hb.once hb.published
  | subscribe h c _ =>
    -- asked for from outside it is the same change as when an observer asks for it
    have hm := Move.subscribe (A := fun _ => True) "" "" h c trivial ‹_›
    exact hm.sound hb
  | unsubscribe h c _ =>
    have hm := Move.unsubscribe (A := fun _ => True) "" "" h c trivial ‹_›
    exact hm.sound hb
  | newConsumer x _ =>
    exact hb.of_kept { Kept.refl b with } (fun k hk => hk)
      (fun l hl => .inl hl) hb.once hb.published
  | receive c | hangUp c | takeNotes c => exact hb.of_frame (Frame.setConsumer b c _) hb.once rfl
  | track | labelConsumers | clock =>
    exact hb.of_kept { Kept.refl b with } (fun k hk => hk)
      (fun l hl => .inl hl) hb.once hb.published

/-- A chain of changes. -/
abbrev ChangesBy (A : Action → Prop) (E : Edit → Prop) : Board → Board → Prop :=
  Relation.ReflTransGen (Change A E)

/-- A chain of changes without a bound. -/
abbrev Changes : Board → Board → Prop := ChangesBy (fun _ => True) fun _ => True

/-- The bounds can be given up. -/
theorem Change.all (hc : Change A E b b') : Change (fun _ => True) (fun _ => True) b b' := by
  cases hc with
  | move m => exact .move m.all
  | openHub name id legal new _ => exact .openHub name id legal new trivial
  | makeHub label name _ => exact .makeHub label name trivial
  | labelHub label h held => exact .labelHub label h held
  | setVolatile h held => exact .setVolatile h held
  | newLeaf x free _ => exact .newLeaf x free trivial
  | enterLeaf name l fair _ => exact .enterLeaf name l fair trivial
  | labelLeaf label l fair _ => exact .labelLeaf label l fair trivial
  | dropLeaf label => exact .dropLeaf label
  | addLeaf h predicate l held fair free _ => exact .addLeaf h predicate l held fair free trivial
  | track ls => exact .track ls
  | write l vs time known _ => exact .write l vs time known trivial
  | sample l m m' time body => exact .sample l m m' time body
  | transact t held => exact .transact t held
  | subscribe h c held => exact .subscribe h c held
  | unsubscribe h c held => exact .unsubscribe h c held
  | newConsumer x _ idle => exact .newConsumer x (fun _ _ _ _ => trivial) idle
  | receive c q is _ => exact .receive c q is trivial
  | hangUp c q is => exact .hangUp c q is
  | takeNotes c o is => exact .takeNotes c o is
  | labelConsumers r => exact .labelConsumers r
  | clock wall now due => exact .clock wall now due

theorem ChangesBy.all (h : ChangesBy A E b b') : Changes b b' :=
  Relation.ReflTransGen.mono (fun _ _ hc => hc.all) _ _ h

theorem ChangesBy.sound (h : ChangesBy A E b b') (hb : Sound b) : Sound b' := by
  induction h with
  | refl => exact hb
  | tail _ hc ih => exact hc.sound ih

theorem Moves.changes (h : Moves A b b') : ChangesBy A E b b' :=
  Relation.ReflTransGen.mono (fun _ _ m => Change.move m) _ _ h

/-- With another queue a consumer has the same plans. -/
theorem PlansWithin.withQueue (hp : PlansWithin A b) (c : ConsumerId) (q : Queue) :
    ((b.consumer c).withQueue q).PlansWithin A := by
  have hc := hp c
  cases hx : b.consumer c with
  | observer o =>
    rw [hx] at hc
    exact hc
  | channel r => exact nofun
  | session s => exact nofun

/-- No change goes beyond the bound on plans. -/
theorem Change.plans (hc : Change A E b b') (hb : PlansWithin A b) : PlansWithin A b' := by
  cases hc with
  | move m => exact m.plans hb
  | openHub name id legal _ _ =>
    rw [newHub_true name legal]
    exact hb
  | makeHub label name _ =>
    rw [newHub_false]
    exact hb
  | addLeaf h predicate l _ _ free _ =>
    rw [addLeaf_fst free]
    exact hb
  | newConsumer x plans _ =>
    intro c o hc
    rw [consumer_newConsumer] at hc
    split at hc
    · exact plans o hc
    · exact hb c o hc
  | receive c q is _ => exact PlansWithin.setConsumer hb (hb.withQueue c _)
  | hangUp c q is => exact PlansWithin.setConsumer hb (hb.withQueue c _)
  | takeNotes c o is =>
    refine PlansWithin.setConsumer hb ?_
    rintro _ ⟨⟩
    exact hb c o is
  | _ => exact hb

theorem ChangesBy.plans (h : ChangesBy A E b b') (hb : PlansWithin A b) : PlansWithin A b' := by
  induction h with
  | refl => exact hb
  | tail _ hc ih => exact hc.plans ih

end Board

end Switchboard
