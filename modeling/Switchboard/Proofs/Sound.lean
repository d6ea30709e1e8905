import Mathlib.Data.List.GetD
import Switchboard.Proofs.Move

/-!
# Sound boards

What holds of a board at all times: names lead to the hubs that carry them, everything that is
held or registered exists, the leaves that hubs make for their reserved slots stay out of reach,
a consumer subscribes once, and every series is that of a registered hub.

* `Board.Sound`: the invariant.
* `Move.sound`: publications keep it.
-/

namespace Switchboard

namespace Board

/-- A leaf that callers may get at. If it is in a reserved slot of a hub, it is so because it was
registered there: it is not a leaf that the hub made for itself. -/
structure IsFair (b : Board) (l : LeafId) : Prop where
  room : l.index < b.leaves.size
  slots : ∀ h r, (b.hub h).table.slot r = l →
    (b.hub h).table.byPredicate.get? r.predicate = some l

/-- The series of a hub: the hub is registered, the series goes by its id, and so does the file. -/
structure HasSeries (b : Board) (h : HubId) (s : TimeSeries) : Prop where
  registered : b.registry.hubs.get? (b.hub h).name = some h
  id : Name.hubId? (b.hub h).name = some s.id
  file : ∀ f, s.file = some f → b.disk.names.get? s.id = some f

/-- **What holds of a board at all times.** -/
structure Sound (b : Board) : Prop where
  named : ∀ name h, b.registry.hubs.get? name = some h → (b.hub h).name = name
  held : ∀ h, b.isHubHeld h = true → h.index < b.hubs.size
  rooms : ∀ h, ∀ l ∈ (b.hub h).table.leaves, l.index < b.leaves.size
  fair : ∀ l, b.isKnownLeaf l = true → b.IsFair l
  slotted : ∀ h (r : Name.Reserved) l, (b.hub h).table.byPredicate.get? r.predicate = some l →
    (b.hub h).table.slot r = l
  owned : ∀ l h, (b.leaf l).owner = some h → l ∈ (b.hub h).table.byPredicate.values
  once : ∀ h, (b.hub h).consumers.Nodup
  connections : b.registry.connections.index < b.leaves.size
  counter : (b.leaf b.registry.connections).sort = .counter
  sendMeter : b.registry.sendMeter.index < b.leaves.size
  meter : (b.leaf b.registry.sendMeter).sort = .meter
  system : b.registry.hubs.get? (Name.hubName Name.systemId) = some b.registry.system
  live : (b.hub b.registry.system).isVolatile = true
  series : ∀ h s, (b.hub h).series = some s → b.HasSeries h s
  disk : b.disk.Sound
  published : ∀ h s line, Event.published h s line ∈ b.journal → h.index < b.hubs.size

variable {b b' : Board}

/-! ### Known leaves -/

theorem any_hubs_iff (b : Board) (l : LeafId) :
    (b.hubs.cells.any fun x => x.table.byPredicate.values.contains l) = true ↔
      ∃ h, l ∈ (b.hub h).table.byPredicate.values := by
  rw [List.any_eq_true]
  constructor
  · rintro ⟨x, hx, hl⟩
    obtain ⟨i, hi, rfl⟩ := List.mem_iff_getElem.1 hx
    refine ⟨⟨i⟩, ?_⟩
    show l ∈ (b.hubs.cells.getD i default).table.byPredicate.values
    rw [List.getD_eq_getElem _ _ hi]
    exact List.contains_iff_mem.1 hl
  · rintro ⟨⟨i⟩, hl⟩
    have hg : l ∈ (b.hubs.cells.getD i default).table.byPredicate.values := hl
    by_cases hi : i < b.hubs.cells.length
    · rw [List.getD_eq_getElem _ _ hi] at hg
      exact ⟨_, List.getElem_mem hi, List.contains_iff_mem.2 hg⟩
    · rw [List.getD_eq_default _ _ (Nat.not_lt.1 hi)] at hg
      cases hg

theorem isKnownLeaf_iff (b : Board) (l : LeafId) : b.isKnownLeaf l = true ↔
    l ∈ b.registry.leaves.values ∨ (∃ x ∈ b.labels.leaves.values, x.leaf = l) ∨
      ∃ h, l ∈ (b.hub h).table.byPredicate.values := by
  rw [isKnownLeaf, Bool.or_eq_true, Bool.or_eq_true, any_hubs_iff, List.contains_iff_mem,
    List.any_eq_true, or_assoc]
  simp only [decide_eq_true_eq]

/-- A registered leaf is known. -/
theorem isKnownLeaf_of_get? {h : HubId} {predicate : String} {l : LeafId}
    (hl : (b.hub h).table.byPredicate.get? predicate = some l) : b.isKnownLeaf l = true :=
  (isKnownLeaf_iff b l).2 (.inr (.inr ⟨h, Register.mem_values_of_get? hl⟩))

theorem isHubHeld_iff (b : Board) (h : HubId) : b.isHubHeld h = true ↔
    h = b.registry.system ∨ h ∈ b.registry.hubs.values ∨ h ∈ b.labels.hubs.values ∨
      ∃ tx, b.transaction = some tx ∧ h ∈ tx.touched.values := by
  rw [isHubHeld, Bool.or_eq_true, Bool.or_eq_true, Bool.or_eq_true, or_assoc, or_assoc,
    decide_eq_true_eq, List.contains_iff_mem, List.contains_iff_mem, Option.any_eq_true_iff_get]
  simp only [List.contains_iff_mem]
  refine or_congr_right (or_congr_right (or_congr_right ?_))
  cases b.transaction <;> simp

/-- No two hubs have series of one id. -/
theorem Sound.series_apart (hb : Sound b) {h k : HubId} {s t : TimeSeries}
    (hs : (b.hub h).series = some s) (ht : (b.hub k).series = some t) (hid : s.id = t.id) :
    h = k := by
  have hs' := hb.series h s hs
  have ht' := hb.series k t ht
  -- an id tells the name of its hub, and one hub is registered under a name
  have hname : (b.hub h).name = (b.hub k).name := by
    rw [(Name.hubId?_eq_some.1 hs'.id).1, (Name.hubId?_eq_some.1 ht'.id).1, hid]
  have hr := hs'.registered
  rw [hname, ht'.registered] at hr
  exact (Option.some.inj hr).symm

/-- **No two hubs log to one file.** -/
theorem Sound.files_apart (hb : Sound b) {h k : HubId} {f : FileId}
    (hh : (b.hub h).file? = some f) (hk : (b.hub k).file? = some f) : h = k := by
  obtain ⟨s, hs, hf⟩ := Option.bind_eq_some_iff.1 hh
  obtain ⟨t, ht, hg⟩ := Option.bind_eq_some_iff.1 hk
  -- one file has one name, so both series have one id
  exact hb.series_apart hs ht
    (hb.disk.apart _ _ f ((hb.series h s hs).file f hf) ((hb.series k t ht).file f hg))

/-! ### Changes that keep boards sound -/

/-- What is kept by every change that neither makes a hub nor registers a leaf. -/
structure Kept (b b' : Board) : Prop where
  hubs : b'.registry.hubs = b.registry.hubs
  system : b'.registry.system = b.registry.system
  connections : b'.registry.connections = b.registry.connections
  sendMeter : b'.registry.sendMeter = b.registry.sendMeter
  hubCount : b.hubs.size ≤ b'.hubs.size
  leafCount : b.leaves.size ≤ b'.leaves.size
  name : ∀ h, (b'.hub h).name = (b.hub h).name
  table : ∀ h, (b'.hub h).table = (b.hub h).table
  series : ∀ h, (b'.hub h).series = (b.hub h).series
  isVolatile : ∀ h, (b.hub h).isVolatile = true → (b'.hub h).isVolatile = true
  sort : ∀ l, l.index < b.leaves.size → (b'.leaf l).sort = (b.leaf l).sort
  owner : ∀ l h, (b'.leaf l).owner = some h → (b.leaf l).owner = some h
  disk : Disk.Alike b.disk b'.disk

protected theorem Kept.refl (b : Board) : Kept b b where
  hubs := rfl
  system := rfl
  connections := rfl
  sendMeter := rfl
  hubCount := Nat.le_refl _
  leafCount := Nat.le_refl _
  name _ := rfl
  table _ := rfl
  series _ := rfl
  isVolatile _ h := h
  sort _ _ := rfl
  owner _ _ h := h
  disk := ⟨rfl, rfl, Nat.le_refl _⟩

theorem Frame.kept (hf : Frame b b') : Kept b b' where
  hubs := by rw [hf.registry]
  system := by rw [hf.registry]
  connections := by rw [hf.registry]
  sendMeter := by rw [hf.registry]
  hubCount := hf.hubCount
  leafCount := hf.leafCount
  name h := (hf.hub h).name
  table h := (hf.hub h).table
  series h := (hf.hub h).series
  isVolatile h hv := (hf.hub h).isVolatile.trans hv
  sort l _ := (hf.leaf l).sort
  owner l h ho := (hf.owner l).symm.trans ho
  disk := hf.disk

theorem Frame.isKnownLeaf (hf : Frame b b') (l : LeafId) : b'.isKnownLeaf l = b.isKnownLeaf l := by
  rw [Bool.eq_iff_iff, isKnownLeaf_iff, isKnownLeaf_iff, hf.registry, hf.labels]
  simp only [fun h => (hf.hub h).table]

theorem IsFair.of_kept {l : LeafId} (h : b.IsFair l) (hk : Kept b b') : b'.IsFair l where
  room := Nat.lt_of_lt_of_le h.room hk.leafCount
  slots k r hs := by
    rw [hk.table k] at hs ⊢
    exact h.slots k r hs

theorem HasSeries.of_kept {h : HubId} {s : TimeSeries} (hs : b.HasSeries h s) (hk : Kept b b') :
    b'.HasSeries h s where
  registered := by rw [hk.hubs, hk.name h]; exact hs.registered
  id := by rw [hk.name h]; exact hs.id
  file f hfile := by rw [hk.disk.names]; exact hs.file f hfile

/-- A change that keeps hubs and leaves as they are keeps a board sound, if what it makes held or
known was so before, or may be. -/
theorem Sound.of_kept (hb : Sound b) (hk : Kept b b')
    (held : ∀ h, b'.isHubHeld h = true → b.isHubHeld h = true)
    (fair : ∀ l, b'.isKnownLeaf l = true → b.isKnownLeaf l = true ∨ b'.IsFair l)
    (once : ∀ h, (b'.hub h).consumers.Nodup)
    (published : ∀ h s line, Event.published h s line ∈ b'.journal → h.index < b.hubs.size) :
    Sound b' where
  named name h hn := by
    rw [hk.hubs] at hn
    rw [hk.name h]
    exact hb.named name h hn
  held h hh := Nat.lt_of_lt_of_le (hb.held h (held h hh)) hk.hubCount
  rooms h l hl := by
    rw [hk.table h] at hl
    exact Nat.lt_of_lt_of_le (hb.rooms h l hl) hk.leafCount
  fair l hl := by
    rcases fair l hl with hl | hl
    · exact (hb.fair l hl).of_kept hk
    · exact hl
  slotted h r l hl := by
    rw [hk.table h] at hl ⊢
    exact hb.slotted h r l hl
  owned l h hl := by
    rw [hk.table h]
    exact hb.owned l h (hk.owner l h hl)
  once := once
  connections := by
    rw [hk.connections]
    exact Nat.lt_of_lt_of_le hb.connections hk.leafCount
  counter := by
    rw [hk.connections, hk.sort _ hb.connections]
    exact hb.counter
  sendMeter := by
    rw [hk.sendMeter]
    exact Nat.lt_of_lt_of_le hb.sendMeter hk.leafCount
  meter := by
    rw [hk.sendMeter, hk.sort _ hb.sendMeter]
    exact hb.meter
  system := by
    rw [hk.hubs, hk.system]
    exact hb.system
  live := by
    rw [hk.system]
    exact hk.isVolatile _ hb.live
  series h s hs := by
    rw [hk.series h] at hs
    exact (hb.series h s hs).of_kept hk
  disk := by
    refine ⟨fun name f hn => ?_, fun name other f hn ho => ?_⟩
    · rw [hk.disk.names] at hn
      exact Nat.lt_of_lt_of_le (hb.disk.room name f hn) hk.disk.size
    · rw [hk.disk.names] at hn ho
      exact hb.disk.apart name other f hn ho
  published h s line hm := Nat.lt_of_lt_of_le (published h s line hm) hk.hubCount

theorem nodup_subscribe {x : Hub} (hx : x.consumers.Nodup) (c : ConsumerId) :
    (x.subscribe c).consumers.Nodup := by
  unfold Hub.subscribe
  split
  · exact hx
  · rename_i hc
    rw [List.contains_iff_mem] at hc
    refine List.nodup_append.2 ⟨hx, by simp, ?_⟩
    intro d hd e he hde
    rw [List.mem_singleton] at he
    exact hc (he ▸ hde ▸ hd)

theorem nodup_modifyHub (hb : ∀ k, (b.hub k).consumers.Nodup) {h : HubId} {f : Hub → Hub}
    (hf : (f (b.hub h)).consumers.Nodup) (k : HubId) :
    ((b.modifyHub h f).hub k).consumers.Nodup := by
  rw [hub_modifyHub]
  split
  · exact hf
  · exact hb k

/-- **Every move keeps a sound board sound.** -/
theorem Move.sound {A : Action → Prop} (hm : Move A b b') (hb : Sound b) : Sound b' := by
  have hf := hm.frame
  refine hb.of_kept hf.kept (fun h hh => (hf.isHubHeld h).symm.trans hh)
    (fun l hl => .inl ((hf.isKnownLeaf l).symm.trans hl)) ?_ ?_
  · cases hm with
    | post h time _ =>
      intro k
      rw [consumers_post]
      exact hb.once k
    | formatted h _ =>
      intro k
      rw [consumers_formatted]
      exact hb.once k
    | json h _ =>
      intro k
      rw [consumers_json]
      exact hb.once k
    | subscribe _ _ h c _ _ => exact nodup_modifyHub hb.once (nodup_subscribe (hb.once h) c)
    | unsubscribe _ _ h c _ _ => exact nodup_modifyHub hb.once ((hb.once h).filter _)
    | leave h gone _ => exact nodup_modifyHub hb.once ((hb.once h).filter _)
    | _ => exact hb.once
  · intro k s line hk
    rcases hm.post_or_quiet with ⟨h, time, held, rfl⟩ | ⟨-, es, he, hq⟩
    · rw [journal_post, List.mem_cons] at hk
      rcases hk with hk | hk
      · cases hk
        exact hb.held _ held
      · exact hb.published k s line hk
    · rw [he, List.mem_append] at hk
      rcases hk with hk | hk
      · exact absurd (hq _ hk) (by simp [Event.publication?])
      · exact hb.published k s line hk

theorem Moves.sound {A : Action → Prop} (h : Moves A b b') (hb : Sound b) : Sound b' := by
  induction h with
  | refl => exact hb
  | tail _ hm ih => exact hm.sound ih

end Board

end Switchboard
