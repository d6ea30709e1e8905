import Switchboard.Proofs.News

/-!
# Operations that neither register nor write

An operation that neither registers nor writes leaves every cell as it is, apart from those in
reserved slots, and what it publishes shows the cells as they are.

* `Move.keepsCells`, `Change.keepsCells`: single steps.
* `step_keepsCells`: an operation, with what it publishes.
-/

namespace Switchboard

/-- Whether an action writes a leaf. -/
def Action.isSet : Action → Bool
  | .set .. => true
  | _ => false

/-- The values that a cell shows after some were written to it. With none it shows what it did at
first: the placeholder, or an empty array. -/
def Leaf.shown (x : Leaf) (vs : List Literal) : List Literal :=
  if x.isArray then vs else [vs.headD .placeholder]

theorem Leaf.values_writeAll {x : Leaf} (hx : x.isCell = true) (vs : List Literal)
    (time : Timestamp) : (x.writeAll vs time).values = x.shown vs := by
  unfold isCell sort at hx
  unfold writeAll shown isArray values
  cases hb : x.body with
  | scalar v => rfl
  | array ws => rfl
  | counter n => simp [hb] at hx
  | meter m => simp [hb] at hx

theorem Leaf.Alike.shown {x y : Leaf} (h : Leaf.Alike x y) (vs : List Literal) :
    y.shown vs = x.shown vs := by
  rw [Leaf.shown, Leaf.shown, h.isArray]

namespace Board

variable {A : Action → Prop} {E : Edit → Prop} {b b' b'' : Board}

/-- A cell that is in no reserved slot, so that no publication writes it. -/
structure IsOpenCell (b : Board) (l : LeafId) : Prop where
  cell : (b.leaf l).isCell = true
  unslotted : ∀ h r, (b.hub h).table.slot r ≠ l

theorem IsOpenCell.not_isReserved {l : LeafId} (hl : b.IsOpenCell l) (h : HubId) :
    (b.hub h).table.isReserved l = false := by
  rw [LeafTable.isReserved, Bool.or_eq_false_iff, decide_eq_false_iff_not,
    decide_eq_false_iff_not]
  exact ⟨fun he => hl.unslotted h .instant he.symm, fun he => hl.unslotted h .datetime he.symm⟩

/-! ### Without registrations and writes -/

/-- **What stays when nothing is registered or written**: where leaves are registered, which leaves
are known, and the values of open cells. -/
structure KeepsCells (b b' : Board) : Prop where
  table : ∀ h, (b'.hub h).table = (b.hub h).table
  leaf : ∀ l, Leaf.Alike (b.leaf l) (b'.leaf l)
  leafCount : b.leaves.size ≤ b'.leaves.size
  known : ∀ l, b'.isKnownLeaf l = true → b.isKnownLeaf l = true
  values : ∀ l, b.IsOpenCell l → (b'.leaf l).values = (b.leaf l).values

namespace KeepsCells

protected theorem refl (b : Board) : KeepsCells b b where
  table _ := rfl
  leaf _ := .refl _
  leafCount := Nat.le_refl _
  known _ h := h
  values _ _ := rfl

theorem isOpenCell (hs : KeepsCells b b') {l : LeafId} : b'.IsOpenCell l ↔ b.IsOpenCell l := by
  constructor
  · rintro ⟨hc, hr⟩
    refine ⟨by rw [← (hs.leaf l).isCell]; exact hc, fun h r => ?_⟩
    rw [← hs.table h]
    exact hr h r
  · rintro ⟨hc, hr⟩
    refine ⟨by rw [(hs.leaf l).isCell]; exact hc, fun h r => ?_⟩
    rw [hs.table h]
    exact hr h r

protected theorem trans (hs : KeepsCells b b') (hs' : KeepsCells b' b'') : KeepsCells b b'' where
  table h := (hs'.table h).trans (hs.table h)
  leaf l := (hs.leaf l).trans (hs'.leaf l)
  leafCount := Nat.le_trans hs.leafCount hs'.leafCount
  known l h := hs.known l (hs'.known l h)
  values l hl := (hs'.values l (hs.isOpenCell.2 hl)).trans (hs.values l hl)

/-- A change that keeps all leaves and where they are registered. -/
theorem of_leaves (hl : b'.leaves = b.leaves) (ht : ∀ h, (b'.hub h).table = (b.hub h).table)
    (hk : ∀ l, b'.isKnownLeaf l = true → b.isKnownLeaf l = true) : KeepsCells b b' := by
  have he : ∀ l, b'.leaf l = b.leaf l := fun l => by rw [Board.leaf, hl, Board.leaf]
  refine ⟨ht, fun l => ?_, Nat.le_of_eq (by rw [hl]), hk, fun l _ => by rw [he]⟩
  rw [he]
  exact .refl _

theorem of_frame (hf : Frame b b')
    (hv : ∀ l, b.IsOpenCell l → (b'.leaf l).values = (b.leaf l).values) : KeepsCells b b' where
  table h := (hf.hub h).table
  leaf := hf.leaf
  leafCount := hf.leafCount
  known l h := (hf.isKnownLeaf l).symm.trans h
  values := hv

end KeepsCells

/-- A leaf that is no cell may change without an open cell changing. -/
theorem values_modifyLeaf {k : LeafId} (f : Leaf → Leaf) (hk : (b.leaf k).isCell = false)
    {l : LeafId} (hl : b.IsOpenCell l) :
    ((b.modifyLeaf k f).leaf l).values = (b.leaf l).values := by
  have hne : k ≠ l := by
    rintro rfl
    rw [hl.cell] at hk
    cases hk
  rw [leaf_modifyLeaf, if_neg hne]

theorem Move.keepsCells (hm : Move A b b') (hA : ∀ a, A a → a.isSet = false) : KeepsCells b b' := by
  refine .of_frame hm.frame fun l hl => ?_
  cases hm with
  | post h time _ => rw [leaf_post, leaf_stamp_of_not_isReserved _ _ _ (hl.not_isReserved h)]
  | count k n steps body => exact values_modifyLeaf _ (by simp [Leaf.isCell, Leaf.sort, body]) hl
  | tick k m steps body => exact values_modifyLeaf _ (by simp [Leaf.isCell, Leaf.sort, body]) hl
  | write label v x planned _ => exact absurd (hA _ planned) (by simp [Action.isSet])
  | formatted h _ => rw [leaf_formatted]
  | json h _ => rw [leaf_json]
  | _ => rfl

/-- **A change that neither registers nor writes keeps the cells**, if no observer has planned to
write. -/
theorem Change.keepsCells (hc : Change A E b b') (hA : ∀ a, A a → a.isSet = false)
    (hr : ¬ E .register) (hw : ¬ E .write) : KeepsCells b b' := by
  cases hc with
  | move m => exact m.keepsCells hA
  | openHub _ _ _ _ allowed => exact absurd allowed hr
  | makeHub _ _ allowed => exact absurd allowed hr
  | newLeaf _ _ allowed => exact absurd allowed hr
  | enterLeaf _ _ _ allowed => exact absurd allowed hr
  | labelLeaf _ _ _ allowed => exact absurd allowed hr
  | addLeaf _ _ _ _ _ _ allowed => exact absurd allowed hr
  | write _ _ _ _ allowed => exact absurd allowed hw
  | dropLeaf label => exact .of_leaves rfl (fun _ => rfl) fun _ => known_dropLeaf
  | setVolatile k _ =>
    have ht : ∀ h, ((b.setVolatile k).hub h).table = (b.hub h).table := by
      intro h
      rw [Board.setVolatile, hub_modifyHub]
      split
      · rename_i hk
        rw [hk]
      · rfl
    refine .of_leaves rfl ht fun l hl => ?_
    rw [isKnownLeaf_iff] at hl ⊢
    simp only [ht] at hl
    exact hl
  | subscribe h c held =>
    have hm := Move.subscribe (A := fun _ => True) "" "" h c trivial held
    exact .of_frame hm.frame fun _ _ => rfl
  | unsubscribe h c held =>
    have hm := Move.unsubscribe (A := fun _ => True) "" "" h c trivial held
    exact .of_frame hm.frame fun _ _ => rfl
  | sample k m m' time body =>
    refine .of_frame (Frame.modifyLeaf b ⟨rfl, by simp [Leaf.sort, body]⟩ rfl) fun l hl => ?_
    exact values_modifyLeaf _ (by simp [Leaf.isCell, Leaf.sort, body]) hl
  | _ => exact .of_leaves rfl (fun _ => rfl) fun _ h => h

/-- What a publication shows when all is told: its text is that of its snapshot, and the snapshot
has the values of the open cells of its hub. -/
structure Tells (b : Board) (h : HubId) (s : Snapshot) (line : String) : Prop where
  line : line = b.render h s
  cells : ∀ p l, (b.hub h).table.byPredicate.get? p = some l → b.IsOpenCell l →
    s.get? p = some (b.leaf l).values

theorem Tells.of_keepsCells {h : HubId} {s : Snapshot} {line : String} (ht : b.Tells h s line)
    (hs : KeepsCells b b') : b'.Tells h s line where
  line := by rw [render_congr (hs.table h) hs.leaf]; exact ht.line
  cells p l hl ho := by
    rw [hs.table h] at hl
    rw [hs.isOpenCell] at ho
    rw [hs.values l ho]
    exact ht.cells p l hl ho

/-- A hub tells of its cells when it is posted. -/
theorem tells_post (b : Board) (h : HubId) (time : Timestamp) :
    (b.post h time).Tells h (b.posted h time) (b.postedLine h time) := by
  have hf := Frame.post b h time
  have hb : b.Tells h (b.posted h time) (b.postedLine h time) := by
    refine ⟨postedLine_eq b h time, fun p l hl ho => ?_⟩
    have hg := LeafTable.get?_capture hl (b.stamp h time).leaf time
    -- the snapshot is captured from stamped leaves, and an open cell is not stamped
    rw [leaf_stamp_of_not_isReserved b h time (ho.not_isReserved h)] at hg
    exact hg
  refine hb.of_keepsCells (.of_frame hf fun l hl => ?_)
  rw [leaf_post, leaf_stamp_of_not_isReserved b h time (hl.not_isReserved h)]

/-- **A chain of such changes keeps the cells**, and all that it publishes tells of the cells. -/
theorem ChangesBy.keepsCells (hc : ChangesBy A E b b') (hA : ∀ a, A a → a.isSet = false)
    (hr : ¬ E .register) (hw : ¬ E .write) : KeepsCells b b' ∧
      ∀ h s line, Event.published h s line ∈ news b b' → b'.Tells h s line := by
  induction hc with
  | refl => exact ⟨.refl b, fun h s line he => by rw [news_self] at he; cases he⟩
  | @tail c d hcs hc ih =>
    obtain ⟨hs, ht⟩ := ih
    have hd := hc.keepsCells hA hr hw
    refine ⟨hs.trans hd, fun h s line he => ?_⟩
    rw [news_trans (ChangesBy.grows hcs) hc.grows, List.mem_append] at he
    rcases he with he | he
    -- what was published before is told still, since the change keeps the cells
    · exact (ht h s line he).of_keepsCells hd
    · obtain ⟨time, -, rfl, rfl, rfl⟩ := hc.of_published he
      exact tells_post c h time

/-- **An operation that neither registers nor writes keeps the cells**, and all that it publishes
tells of them. -/
theorem step_keepsCells (hb : Sound b) (hp : PlansWithin (fun a => a.isSet = false) b) {op : Op}
    (ho : op.PlansWithin fun a => a.isSet = false) (hr : ¬ op.Edits .register)
    (hw : ¬ op.Edits .write) : KeepsCells b (b.step op) ∧
      ∀ h s line, Event.published h s line ∈ news b (b.step op) → (b.step op).Tells h s line :=
  ChangesBy.keepsCells (step_changesBy hb hp ho) (fun _ h => h) hr hw

end Board

end Switchboard
