import Switchboard.Proofs.News

/-!
# Reserved slots

A hub makes the leaves of its two reserved slots for itself, and nobody else gets at them. Only a leaf
that is registered under the predicate of a slot takes it over. So a slot whose predicate is not
registered always holds a scalar, which is in no other slot.

* `Change.table`, `Change.slot`: what a change can do to the leaves of a hub.
* `Reachable.secluded`: the slots that were not taken over, on every reachable board.
-/

namespace Switchboard

namespace Board

variable {A : Action → Prop} {E : Edit → Prop} {b b' : Board}

/-! ### What a change can do to leaves and slots -/

/-- A leaf stays of its kind. -/
theorem Change.sort (hc : Change A E b b') {l : LeafId} (hl : l.index < b.leaves.size) :
    (b'.leaf l).sort = (b.leaf l).sort := by
  cases hc with
  | move m => exact (m.frame.leaf l).sort
  | openHub name id legal _ _ =>
    rw [newHub_true name legal]
    exact congrArg Leaf.sort (leaf_addHub_of_lt name (b.disk.openFile id).1
      (some ⟨name, id, (b.disk.openFile id).2⟩) hl)
  | makeHub label name _ =>
    rw [newHub_false]
    exact congrArg Leaf.sort (leaf_addHub_of_lt name b.disk none hl)
  | newLeaf x free _ => exact (Kept.newLeaf b free).sort l hl
  | addLeaf h predicate k _ _ free _ => exact sort_addLeaf free l
  | write k vs time _ _ => exact ((Frame.writeLeaf b k vs time).leaf l).sort
  | sample k m m' time body =>
    exact ((Frame.modifyLeaf b (f := ({ · with body := .meter m', updatedAt := time }))
      ⟨rfl, by simp [Leaf.sort, body]⟩ rfl).leaf l).sort
  | _ => rfl

/-- **A hub keeps its leaves, or gets one more**, under a predicate that was free. -/
theorem Change.table (hc : Change A E b b') {h : HubId} (hh : h.index < b.hubs.size) :
    (b'.hub h).table = (b.hub h).table ∨ E .register ∧ ∃ predicate l, b.IsFair l ∧
      (b.hub h).table.byPredicate.contains predicate = false ∧
      (b'.hub h).table = (b.hub h).table.add predicate l := by
  have hmodify : ∀ {k : HubId} {f : Hub → Hub}, (f (b.hub k)).table = (b.hub k).table →
      ((b.modifyHub k f).hub h).table = (b.hub h).table := by
    intro k f hf
    rw [hub_modifyHub]
    split
    · rename_i hk
      rw [← hk, hf]
    · rfl
  cases hc with
  | move m => exact .inl (m.frame.hub h).table
  | openHub name id _ _ _ => exact .inl (congrArg Hub.table (hub_newHub_of_lt name true hh))
  | makeHub label name _ => exact .inl (congrArg Hub.table (hub_newHub_of_lt name false hh))
  | addLeaf k predicate l _ fair free allowed =>
    by_cases hk : k = h
    · subst hk
      refine .inr ⟨allowed, predicate, l, fair, free, ?_⟩
      rw [hub_addLeaf free, if_pos rfl]
    · rw [hub_addLeaf free, if_neg hk]
      exact .inl rfl
  | setVolatile k _ => exact .inl (hmodify rfl)
  | subscribe k c _ =>
    refine .inl (hmodify ?_)
    unfold Hub.subscribe
    split <;> rfl
  | unsubscribe k c _ => exact .inl (hmodify rfl)
  | _ => exact .inl rfl

/-- **A reserved slot keeps its leaf, or is taken over** by a leaf that is registered for it. -/
theorem Change.slot (hc : Change A E b b') {h : HubId} (hh : h.index < b.hubs.size)
    (r : Name.Reserved) :
    ((b'.hub h).table.slot r = (b.hub h).table.slot r ∧
      ((b'.hub h).table.byPredicate.contains r.predicate = false →
        (b.hub h).table.byPredicate.contains r.predicate = false)) ∨
    ((b'.hub h).table.byPredicate.contains r.predicate = true ∧
      b.IsFair ((b'.hub h).table.slot r)) := by
  rcases hc.table hh with ht | ⟨-, predicate, l, fair, -, ht⟩
  · rw [ht]
    exact .inl ⟨rfl, id⟩
  · rw [ht, LeafTable.slot_add, LeafTable.byPredicate_add, Register.contains, Register.get?_put]
    by_cases hp : predicate = r.predicate
    · rw [if_pos hp, if_pos hp]
      exact .inr ⟨rfl, fair⟩
    · rw [if_neg hp, if_neg hp]
      exact .inl ⟨rfl, id⟩

/-- A hub that was just made: its slots hold two new scalars. -/
structure Arrives (b b' : Board) (h : HubId) : Prop where
  fresh : h = ⟨b.hubs.size⟩
  table : (b'.hub h).table = { instant := ⟨b.leaves.size⟩, datetime := ⟨b.leaves.size + 1⟩ }
  scalar : ∀ r, (b'.leaf ((b'.hub h).table.slot r)).sort = .scalar

theorem arrives_addHub (name : String) (disk : Disk) (series : Option TimeSeries)
    (hh : b'.hubs = (b.addHub name disk series).hubs)
    (hl : b'.leaves = (b.addHub name disk series).leaves) : Arrives b b' ⟨b.hubs.size⟩ := by
  have ht : (b'.hub ⟨b.hubs.size⟩).table =
      { instant := ⟨b.leaves.size⟩, datetime := ⟨b.leaves.size + 1⟩ } := by
    have he : b'.hub ⟨b.hubs.size⟩ = (b.addHub name disk series).hub ⟨b.hubs.size⟩ := by
      rw [hub, hh]
      rfl
    rw [he, hub_addHub, if_pos rfl]
  refine ⟨rfl, ht, fun r => ?_⟩
  have he : ∀ l, b'.leaf l = (b.addHub name disk series).leaf l := by
    intro l
    rw [leaf, hl]
    rfl
  rw [ht, he, leaf_addHub]
  cases r with
  | instant =>
    show (if b.leaves.size + 1 = b.leaves.size then _ else if b.leaves.size = b.leaves.size then _
      else _ : Leaf).sort = _
    rw [if_neg (Nat.succ_ne_self _), if_pos rfl]
    rfl
  | datetime =>
    show (if b.leaves.size + 1 = b.leaves.size + 1 then _ else _ : Leaf).sort = _
    rw [if_pos rfl]
    rfl

/-- A hub is held if a registry, a label or the open transaction holds it. If all three hold no more
than before, it was held before. -/
theorem isHubHeld_or {Q : Prop} {h : HubId} (hh : b'.isHubHeld h = true)
    (system : b'.registry.system = b.registry.system)
    (hubs : h ∈ b'.registry.hubs.values → b.isHubHeld h = true ∨ Q)
    (labels : h ∈ b'.labels.hubs.values → b.isHubHeld h = true ∨ Q)
    (transaction : ∀ tx, b'.transaction = some tx → h ∈ tx.touched.values →
      b.isHubHeld h = true ∨ Q) : b.isHubHeld h = true ∨ Q := by
  rw [isHubHeld_iff, system] at hh
  rcases hh with hh | hh | hh | ⟨tx, ht, hh⟩
  · exact .inl ((isHubHeld_iff b h).2 (.inl hh))
  · exact hubs hh
  · exact labels hh
  · exact transaction tx ht hh

/-- A hub that is held was held before, or was just made. -/
theorem Change.held (hc : Change A E b b') {h : HubId} (hh : b'.isHubHeld h = true) :
    b.isHubHeld h = true ∨ E .register ∧ Arrives b b' h := by
  have registered : h ∈ b.registry.hubs.values → b.isHubHeld h = true :=
    fun hm => (isHubHeld_iff b h).2 (.inr (.inl hm))
  have labelled : h ∈ b.labels.hubs.values → b.isHubHeld h = true :=
    fun hm => (isHubHeld_iff b h).2 (.inr (.inr (.inl hm)))
  have touched : ∀ tx, b.transaction = some tx → h ∈ tx.touched.values → b.isHubHeld h = true :=
    fun tx ht hm => isHubHeld_of_touched ht hm
  cases hc with
  | move m => exact .inl ((m.frame.isHubHeld h).symm.trans hh)
  | openHub name id legal new allowed =>
    refine isHubHeld_or hh rfl (fun hm => ?_) (fun hm => .inl (labelled hm))
      fun tx ht hm => .inl (touched tx ht hm)
    rw [registry_openHub legal new] at hm
    rcases Register.mem_values_put hm with rfl | hm
    · refine .inr ⟨allowed, arrives_addHub name (b.disk.openFile id).1
        (some ⟨name, id, (b.disk.openFile id).2⟩) ?_ ?_⟩
      all_goals rw [newHub_true name legal]; rfl
    · exact .inl (registered hm)
  | makeHub label name allowed =>
    rw [newHub_false] at hh ⊢
    refine isHubHeld_or hh rfl (fun hm => .inl (registered hm)) (fun hm => ?_)
      fun tx ht hm => .inl (touched tx ht hm)
    rcases Register.mem_values_put hm with rfl | hm
    · exact .inr ⟨allowed, arrives_addHub name b.disk none rfl rfl⟩
    · exact .inl (labelled hm)
  | labelHub label k held =>
    refine isHubHeld_or hh rfl (fun hm => .inl (registered hm)) (fun hm => ?_)
      fun tx ht hm => .inl (touched tx ht hm)
    rcases Register.mem_values_put hm with rfl | hm
    · exact .inl held
    · exact .inl (labelled hm)
  | addLeaf k predicate l _ _ free _ =>
    rw [isHubHeld_addLeaf free] at hh
    exact .inl hh
  | transact t held =>
    exact isHubHeld_or hh rfl (fun hm => .inl (registered hm)) (fun hm => .inl (labelled hm))
      fun tx ht hm => .inl (held tx ht h hm)
  | _ =>
    exact isHubHeld_or hh rfl (fun hm => .inl (registered hm)) (fun hm => .inl (labelled hm))
      fun tx ht hm => .inl (touched tx ht hm)

/-! ### Slots that were not taken over -/

/-- Whether the slot of a hub still holds the leaf that the hub made for it. -/
def IsOwn (b : Board) (h : HubId) (r : Name.Reserved) : Prop :=
  (b.hub h).table.byPredicate.contains r.predicate = false

instance (b : Board) (h : HubId) (r : Name.Reserved) : Decidable (b.IsOwn h r) :=
  inferInstanceAs (Decidable (_ = _))

/-- Callers do not get at the leaf of a slot that was not taken over. -/
theorem IsOwn.not_isFair {h : HubId} {r : Name.Reserved} (ho : b.IsOwn h r) {l : LeafId}
    (hl : (b.hub h).table.slot r = l) : ¬ b.IsFair l := by
  intro hf
  have hg := hf.slots h r hl
  rw [IsOwn, Register.contains, hg] at ho
  cases ho

/-- **The slots of held hubs that were not taken over** hold scalars, each its own. -/
structure Secluded (b : Board) : Prop where
  scalar : ∀ h r, b.isHubHeld h = true → b.IsOwn h r →
    (b.leaf ((b.hub h).table.slot r)).sort = .scalar
  apart : ∀ h k r q, b.isHubHeld h = true → b.isHubHeld k = true → b.IsOwn h r →
    (b.hub k).table.slot q = (b.hub h).table.slot r → k = h ∧ q = r

theorem Sound.slot_lt (hb : Sound b) (h : HubId) (r : Name.Reserved) :
    ((b.hub h).table.slot r).index < b.leaves.size :=
  hb.rooms h _ ((LeafTable.mem_leaves_iff _ _).2 (.inl ⟨r, rfl⟩))

/-- The slots of a new hub hold the two leaves that were made with it. -/
theorem Arrives.slot_index {h : HubId} (hn : Arrives b b' h) (r : Name.Reserved) :
    ((b'.hub h).table.slot r).index = b.leaves.size + (if r = .instant then 0 else 1) := by
  rw [hn.table]
  cases r <;> rfl

/-- A slot of a hub that was there before holds a leaf that was there before. -/
theorem Change.slot_lt (hc : Change A E b b') (hb : Sound b) {h : HubId}
    (hh : b.isHubHeld h = true) (r : Name.Reserved) :
    ((b'.hub h).table.slot r).index < b.leaves.size := by
  rcases hc.slot (hb.held h hh) r with ⟨hs, -⟩ | ⟨-, hf⟩
  · rw [hs]
    exact hb.slot_lt h r
  · exact hf.room

/-- A slot that is not taken over was not taken over before, and holds the same leaf. -/
theorem Change.isOwn (hc : Change A E b b') (hb : Sound b) {h : HubId} (hh : b.isHubHeld h = true)
    {r : Name.Reserved} (ho : b'.IsOwn h r) :
    b.IsOwn h r ∧ (b'.hub h).table.slot r = (b.hub h).table.slot r := by
  rcases hc.slot (hb.held h hh) r with ⟨hs, hold⟩ | ⟨hnew, -⟩
  · exact ⟨hold ho, hs⟩
  · rw [IsOwn, hnew] at ho
    cases ho

/-- **Every change keeps the slots secluded.** -/
theorem Change.secluded (hc : Change A E b b') (hb : Sound b) (hp : Secluded b) : Secluded b' := by
  constructor
  case scalar =>
    intro h r hh ho
    rcases hc.held hh with hh | ⟨-, hn⟩
    · obtain ⟨ho, hs⟩ := hc.isOwn hb hh ho
      rw [hs, hc.sort (hb.slot_lt h r)]
      exact hp.scalar h r hh ho
    · exact hn.scalar r
  case apart =>
    intro h k r q hh hk ho he
    rcases hc.held hh with hh | ⟨-, hn⟩ <;> rcases hc.held hk with hk | ⟨-, hm⟩
    · obtain ⟨ho, hs⟩ := hc.isOwn hb hh ho
      rw [hs] at he
      rcases hc.slot (hb.held k hk) q with ⟨hsame, -⟩ | ⟨-, hf⟩
      · exact hp.apart h k r q hh hk ho (hsame.symm.trans he)
      -- a leaf that takes over a slot is none that a hub made for itself
      · exact absurd hf (ho.not_isFair he.symm)
    · have h1 := hm.slot_index q
      have h2 := hc.slot_lt hb hh r
      rw [he] at h1
      omega
    · have h1 := hn.slot_index r
      have h2 := hc.slot_lt hb hk q
      rw [he] at h2
      omega
    · have h1 := hn.slot_index r
      have h2 := hm.slot_index q
      rw [he, h1] at h2
      refine ⟨hm.fresh.trans hn.fresh.symm, ?_⟩
      cases q <;> cases r <;> first | rfl | simp at h2

theorem ChangesBy.secluded (hc : ChangesBy A E b b') (hb : Sound b) (hp : Secluded b) :
    Secluded b' := by
  induction hc with
  | refl => exact hp
  | tail hs hc ih => exact hc.secluded (ChangesBy.sound hs hb) ih

theorem secluded_start (settings : Settings) (wall : Timestamp) (disk : Disk) :
    Secluded (start settings wall disk) := by
  have hslot : ∀ r : Name.Reserved, ((start settings wall disk).hub ⟨0⟩).table.slot r =
      if r = .instant then ⟨0⟩ else ⟨1⟩ := by
    intro r
    rw [hub_start, if_pos rfl, systemHub, LeafTable.slot_add, LeafTable.slot_add]
    cases r <;> decide
  constructor
  case scalar =>
    intro h r hh _
    rw [isHubHeld_start settings wall disk hh, hslot, start_eq]
    cases r <;> rfl
  case apart =>
    intro h k r q hh hk _ he
    obtain rfl := isHubHeld_start settings wall disk hh
    obtain rfl := isHubHeld_start settings wall disk hk
    rw [hslot, hslot] at he
    refine ⟨rfl, ?_⟩
    cases q <;> cases r <;> first | rfl | cases he

/-- **The slots that were not taken over are secluded**, on every reachable board. -/
theorem Reachable.secluded (hb : Reachable b) : Secluded b := by
  obtain ⟨settings, wall, disk, ops, hd, rfl⟩ := hb
  have hstart := sound_start settings wall disk hd
  exact (run_changes hstart ops).secluded hstart (secluded_start settings wall disk)

end Board

end Switchboard
