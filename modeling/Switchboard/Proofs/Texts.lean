import Switchboard.Proofs.History
import Switchboard.Proofs.Legible
import Switchboard.Proofs.Reachable
import Switchboard.Proofs.Shown

/-!
# The texts that hubs keep

A hub keeps its text until it is posted or gets a leaf. When it is posted it keeps the line that
it publishes. After it got a leaf it has no text, and the first reading keeps one of the leaves as
they are then. Either way the text is read as the object of a snapshot.

* `Change.keepsTexts`: what a single change does to the texts of a hub.
* `ChangesBy.holdsTexts`: a kept text is read as the snapshot that it stems from.
* `decodes_snapshot`: from a publication on, as long as no leaf is registered, this is the snapshot
  of the hub.
-/

namespace Switchboard

/-- What a hub keeps of what it published or rendered last. -/
def Hub.texts (x : Hub) : Option String × Option String × Option Snapshot :=
  (x.formatted, x.wrapped, x.snapshot)

namespace Board

variable {A : Action → Prop} {E : Edit → Prop} {b b' : Board} {h : HubId}

/-! ### Single changes -/

/-- What becomes of the texts of a hub that is neither posted nor gets a leaf: they stay, or a text
that was not there is made of the leaves as they are. -/
structure KeepsTexts (b b' : Board) (h : HubId) : Prop where
  layout : b'.layout h = b.layout h
  table : (b'.hub h).table = (b.hub h).table
  name : (b'.hub h).name = (b.hub h).name
  snapshot : (b'.hub h).snapshot = (b.hub h).snapshot
  formatted : (b'.hub h).formatted = (b.hub h).formatted ∨
    (b.hub h).formatted = none ∧ (b'.hub h).formatted = some (b.liveText h)
  wrapped : (b'.hub h).wrapped = (b.hub h).wrapped ∨
    ∃ text, (b'.hub h).formatted = some text ∧ (b'.hub h).wrapped = some ((b.hub h).wrap text)

theorem KeepsTexts.of_texts (hl : b'.layout h = b.layout h)
    (ht : (b'.hub h).table = (b.hub h).table) (hn : (b'.hub h).name = (b.hub h).name)
    (hx : (b'.hub h).texts = (b.hub h).texts) : KeepsTexts b b' h := by
  obtain ⟨hf, hw, hs⟩ : (b'.hub h).formatted = (b.hub h).formatted ∧
      (b'.hub h).wrapped = (b.hub h).wrapped ∧ (b'.hub h).snapshot = (b.hub h).snapshot := by
    simpa [Hub.texts] using hx
  exact ⟨hl, ht, hn, hs, .inl hf, .inl hw⟩

theorem KeepsTexts.of_frame (hf : Frame b b') (hx : (b'.hub h).texts = (b.hub h).texts) :
    KeepsTexts b b' h :=
  of_texts (layout_eq hf h) (hf.hub h).table (hf.hub h).name hx

/-- A change that leaves a hub and the kinds of the leaves there were as they are. -/
theorem KeepsTexts.of_hub (hb : Sound b) (hh : b'.hub h = b.hub h)
    (hl : ∀ l, l.index < b.leaves.size → (b'.leaf l).isArray = (b.leaf l).isArray) :
    KeepsTexts b b' h := by
  refine of_texts ?_ (by rw [hh]) (by rw [hh]) (by rw [hh])
  rw [Board.layout, hh]
  exact LeafTable.layout_congr fun l hm => hl l (hb.rooms h l hm)

theorem texts_modifyHub {k : HubId} {f : Hub → Hub} (hf : (f (b.hub k)).texts = (b.hub k).texts)
    (h : HubId) : ((b.modifyHub k f).hub h).texts = (b.hub h).texts := by
  rw [hub_modifyHub]
  split
  · rename_i hk
    subst hk
    exact hf
  · rfl

theorem texts_subscribe (x : Hub) (c : ConsumerId) : (x.subscribe c).texts = x.texts := by
  unfold Hub.subscribe
  split <;> rfl

/-- What is read of a hub: what it kept, or else what it renders. -/
theorem formatted_snd (b : Board) (h : HubId) : (b.formatted h).2 =
    if (b.hub h).isVolatile then b.liveText h else (b.hub h).formatted.getD (b.liveText h) := by
  unfold Board.formatted
  split
  · rfl
  · cases (b.hub h).formatted <;> rfl

theorem json_snd (b : Board) (h : HubId) : (b.json h).2 =
    if (b.hub h).isVolatile then (b.hub h).wrap (b.liveText h)
    else (b.hub h).wrapped.getD ((b.hub h).wrap (b.formatted h).2) := by
  unfold Board.json
  split
  · rfl
  · cases (b.hub h).wrapped with
    | some w => rfl
    | none =>
      show ((b.formatted h).1.hub h).wrap _ = _
      rw [Hub.wrap_congr ((Frame.formatted b h).hub h).name]
      rfl

/-- A text that was read is kept. -/
theorem hub_formatted_self (hv : (b.hub h).isVolatile = false) :
    ((b.formatted h).1.hub h).formatted = some (b.formatted h).2 := by
  unfold Board.formatted
  rw [hv, if_neg Bool.false_ne_true]
  cases hf : (b.hub h).formatted with
  | none =>
    show ((b.modifyHub h _).hub h).formatted = _
    rw [hub_modifyHub, if_pos rfl]
  | some text => exact hf

theorem keepsTexts_formatted (b : Board) (k h : HubId) : KeepsTexts b (b.formatted k).1 h := by
  have hf := Frame.formatted b k
  rcases b.formatted_fst k with e | ⟨-, hn, e⟩
  · exact .of_frame hf (by rw [e])
  · by_cases hk : k = h
    · subst hk
      refine ⟨layout_eq hf k, (hf.hub k).table, (hf.hub k).name, snapshot_formatted b k k,
        .inr ⟨hn, ?_⟩, .inl ?_⟩ <;> rw [e, hub_modifyHub, if_pos rfl]
    · refine .of_frame hf ?_
      rw [e, hub_modifyHub, if_neg hk]

theorem keepsTexts_json (b : Board) (k h : HubId) : KeepsTexts b (b.json k).1 h := by
  have hf := Frame.json b k
  have hread := keepsTexts_formatted b k h
  rcases b.json_fst k with e | ⟨hv, -, e⟩
  · exact .of_frame hf (by rw [e])
  · by_cases hk : k = h
    · subst hk
      -- the text is read first, and then wrapped
      have hhub : (b.json k).1.hub k = { (b.formatted k).1.hub k with
          wrapped := some ((b.hub k).wrap (b.formatted k).2) } := by
        rw [e, hub_modifyHub, if_pos rfl, Hub.wrap_congr hread.name]
      refine ⟨layout_eq hf k, (hf.hub k).table, (hf.hub k).name, snapshot_json b k k, ?_,
        .inr ⟨(b.formatted k).2, ?_, by rw [hhub]⟩⟩
      · rw [hhub]
        exact hread.formatted
      · rw [hhub]
        exact hub_formatted_self hv
    · have hhub : (b.json k).1.hub h = (b.formatted k).1.hub h := by
        rw [e, hub_modifyHub, if_neg hk]
      refine ⟨layout_eq hf h, (hf.hub h).table, (hf.hub h).name, snapshot_json b k h, ?_, ?_⟩
      · rw [hhub]
        exact hread.formatted
      · rw [hhub]
        exact hread.wrapped

/-- A move posts a hub, or keeps its texts. -/
theorem Move.keepsTexts (m : Move A b b') (h : HubId) :
    (∃ time, b' = b.post h time) ∨ KeepsTexts b b' h := by
  have hf := m.frame
  cases m with
  | post k time _ =>
    by_cases hk : k = h
    · exact .inl ⟨time, by rw [hk]⟩
    · exact .inr (.of_frame hf (by rw [hub_post, if_neg hk]))
  | formatted k _ => exact .inr (keepsTexts_formatted b k h)
  | json k _ => exact .inr (keepsTexts_json b k h)
  | subscribe _ _ k c _ _ =>
    exact .inr (.of_frame hf (texts_modifyHub (texts_subscribe _ c) h))
  | unsubscribe _ _ k c _ _ => exact .inr (.of_frame hf (texts_modifyHub rfl h))
  | leave k gone _ => exact .inr (.of_frame hf (texts_modifyHub rfl h))
  | _ => exact .inr (.of_frame hf rfl)

/-- Whether a hub is without texts after a change that made it or registered a leaf on it. -/
structure DropsTexts (b b' : Board) (h : HubId) : Prop where
  formatted : (b'.hub h).formatted = none
  wrapped : (b'.hub h).wrapped = none
  grows : b.hubs.size ≤ h.index ∨
    (b.hub h).table.byPredicate.size < (b'.hub h).table.byPredicate.size

/-- A new hub has no texts, and the others keep theirs. -/
theorem texts_addHub (hb : Sound b) (name : String) (disk : Disk) (series : Option TimeSeries)
    (hh : b'.hubs = (b.addHub name disk series).hubs)
    (hl : b'.leaves = (b.addHub name disk series).leaves) :
    DropsTexts b b' h ∨ KeepsTexts b b' h := by
  have hhub : b'.hub h = (b.addHub name disk series).hub h := by rw [hub, hh]; rfl
  have hleaf : ∀ l, b'.leaf l = (b.addHub name disk series).leaf l := by
    intro l
    rw [leaf, hl]
    rfl
  rw [hub_addHub] at hhub
  split at hhub
  · rename_i hi
    exact .inl ⟨by rw [hhub], by rw [hhub], .inl (Nat.le_of_eq hi)⟩
  · refine .inr (.of_hub hb hhub fun l hr => ?_)
    rw [hleaf, leaf_addHub_of_lt name disk series hr]

/-- **What a single change does to the texts of a hub**: they are those of a publication, or they
are dropped, or kept. -/
theorem Change.keepsTexts (hc : Change A E b b') (hb : Sound b) (h : HubId) :
    (∃ time, b' = b.post h time) ∨ DropsTexts b b' h ∨ KeepsTexts b b' h := by
  have hframe : ∀ {c : Board}, Frame b c → (c.hub h).texts = (b.hub h).texts →
      (∃ time, c = b.post h time) ∨ DropsTexts b c h ∨ KeepsTexts b c h :=
    fun hf hx => .inr (.inr (.of_frame hf hx))
  cases hc with
  | move m =>
    rcases m.keepsTexts h with hp | hk
    · exact .inl hp
    · exact .inr (.inr hk)
  | openHub name id legal _ _ =>
    rw [newHub_true name legal]
    exact .inr (texts_addHub hb name (b.disk.openFile id).1 _ rfl rfl)
  | makeHub label name _ =>
    rw [newHub_false]
    exact .inr (texts_addHub hb name b.disk none rfl rfl)
  | addLeaf k predicate l _ _ free _ =>
    by_cases hk : k = h
    · subst hk
      refine .inr (.inl ⟨?_, ?_, .inr ?_⟩) <;> rw [hub_addLeaf free, if_pos rfl]
      rw [LeafTable.byPredicate_add, Register.size, Register.size,
        Register.entries_put_of_free _ free, List.length_append]
      exact Nat.lt_succ_self _
    · refine .inr (.inr (.of_hub hb (by rw [hub_addLeaf free, if_neg hk]) fun x _ => ?_))
      unfold Leaf.isArray
      rw [body_addLeaf free]
  | newLeaf x free _ =>
    refine .inr (.inr (.of_hub hb rfl fun l hl => ?_))
    rw [Leaf.isArray_eq_sort, Leaf.isArray_eq_sort, (Kept.newLeaf b free).sort l hl]
  | setVolatile k _ =>
    have hsame : ((b.setVolatile k).hub h).table = (b.hub h).table ∧
        ((b.setVolatile k).hub h).name = (b.hub h).name := by
      rw [Board.setVolatile, hub_modifyHub]
      split
      · rename_i hk
        rw [hk]
        exact ⟨rfl, rfl⟩
      · exact ⟨rfl, rfl⟩
    refine .inr (.inr (.of_texts ?_ hsame.1 hsame.2 (texts_modifyHub rfl h)))
    rw [Board.layout, hsame.1]
    rfl
  | write l vs time _ _ => exact hframe (Frame.writeLeaf b l vs time) rfl
  | sample l m m' time body =>
    exact hframe (Frame.modifyLeaf b ⟨rfl, by simp [Leaf.sort, body]⟩ rfl) rfl
  | subscribe k c held =>
    have m : Move (fun _ => True) b (b.subscribe k c) := .subscribe "" "" k c trivial held
    exact hframe m.frame (texts_modifyHub (texts_subscribe _ c) h)
  | unsubscribe k c held =>
    have m : Move (fun _ => True) b (b.unsubscribe k c) := .unsubscribe "" "" k c trivial held
    exact hframe m.frame (texts_modifyHub rfl h)
  | _ => exact .inr (.inr (.of_texts rfl rfl rfl rfl))

/-! ### Runs -/

/-- The snapshots that a kept text of a hub may show after a run: what the hub published last, or
what its leaves held when its text was read at a moment at which it had none. -/
inductive Stems (start b : Board) (h : HubId) : Snapshot → Prop
  | published {s : Snapshot} (snapshot : (b.hub h).snapshot = some s) : Stems start b h s
  | read {a : Board} (before : Changes start a) (after : Changes a b)
    (table : (b.hub h).table = (a.hub h).table) (unread : (a.hub h).formatted = none) :
    Stems start b h (a.capture h a.wall)

theorem Stems.tail {start : Board} {s : Snapshot} (hs : Stems start b h s)
    (hc : Change (fun _ => True) (fun _ => True) b b') (hk : KeepsTexts b b' h) :
    Stems start b' h s := by
  cases hs with
  | published snapshot => exact .published (hk.snapshot.trans snapshot)
  | read before after table unread =>
    exact .read before (after.tail hc) (hk.table.trans table) unread

/-- What holds of the texts that a hub keeps. -/
structure HoldsTexts (start b : Board) (h : HubId) : Prop where
  formatted : ∀ text, (b.hub h).formatted = some text →
    ∃ s, Stems start b h s ∧ b.Decodes h text s
  wrapped : ∀ w, (b.hub h).wrapped = some w →
    ∃ text, (b.hub h).formatted = some text ∧ w = (b.hub h).wrap text

/-- At the start no hub keeps a text. -/
theorem holdsTexts_start (settings : Settings) (wall : Timestamp) (disk : Disk) (h : HubId) :
    HoldsTexts (start settings wall disk) (start settings wall disk) h := by
  have hnone : ((start settings wall disk).hub h).formatted = none ∧
      ((start settings wall disk).hub h).wrapped = none := by
    rw [hub_start]
    split <;> exact ⟨rfl, rfl⟩
  refine ⟨fun text ht => ?_, fun w hw => ?_⟩
  · rw [hnone.1] at ht
    cases ht
  · rw [hnone.2] at hw
    cases hw

/-- **A kept text is read as the snapshot that it stems from.** -/
theorem ChangesBy.holdsTexts {start : Board} (hc : Changes start b) (hs : Sound start)
    (hh : HoldsTexts start start h) : HoldsTexts start b h := by
  induction hc with
  | refl => exact hh
  | @tail c d hcs hc ih =>
    have hsound : Sound c := ChangesBy.sound hcs hs
    rcases hc.keepsTexts hsound h with ⟨time, rfl⟩ | hd | hk
    · have hhub : (c.post h time).hub h =
          (c.hub h).kept (c.posted h time) (c.postedLine h time) := by
        rw [hub_post, if_pos rfl]
      refine ⟨fun text ht => ⟨c.posted h time, .published (by rw [hhub]; rfl), ?_⟩,
        fun w hw => ⟨c.postedLine h time, by rw [hhub]; rfl, ?_⟩⟩
      · rw [hhub] at ht
        obtain rfl : c.postedLine h time = text := Option.some.inj ht
        exact (decodes_postedLine (hsound.slotted h) time).congr
          (layout_eq (Frame.post c h time) h)
      · rw [hhub] at hw ⊢
        exact (Option.some.inj hw).symm
    · refine ⟨fun text ht => ?_, fun w hw => ?_⟩
      · rw [hd.formatted] at ht
        cases ht
      · rw [hd.wrapped] at hw
        cases hw
    · refine ⟨fun text ht => ?_, fun w hw => ?_⟩
      · rcases hk.formatted with he | ⟨hn, he⟩
        · obtain ⟨s, hstems, hdec⟩ := ih.formatted text (he.symm.trans ht)
          exact ⟨s, hstems.tail hc hk, hdec.congr hk.layout⟩
        -- the text is made now, of the leaves as they are
        · obtain rfl : c.liveText h = text := Option.some.inj (he.symm.trans ht)
          exact ⟨c.capture h c.wall, .read hcs (.single hc) hk.table hn,
            (decodes_capture (hsound.slotted h) c.wall).congr hk.layout⟩
      · rcases hk.wrapped with he | ⟨text, htext, he⟩
        · obtain ⟨text, htext, rfl⟩ := ih.wrapped w (he.symm.trans hw)
          refine ⟨text, ?_, by rw [Hub.wrap_congr hk.name]⟩
          rcases hk.formatted with hf | ⟨hn, -⟩
          · exact hf.trans htext
          · rw [hn] at htext
            cases htext
        · obtain rfl : (c.hub h).wrap text = w := Option.some.inj (he.symm.trans hw)
          exact ⟨text, htext, by rw [Hub.wrap_congr hk.name]⟩

/-- The text with the id of the hub is the text of the hub, wrapped. -/
theorem HoldsTexts.json_snd {start : Board} (hh : HoldsTexts start b h) :
    (b.json h).2 = (b.hub h).wrap (b.formatted h).2 := by
  rw [Board.json_snd, formatted_snd]
  split
  · rfl
  · cases hw : (b.hub h).wrapped with
    | none => rfl
    | some w =>
      obtain ⟨text, htext, rfl⟩ := hh.wrapped w hw
      rw [htext]
      rfl

/-- The snapshots that the text of a hub may show: that of the leaves as they are if the hub is
volatile, else one that a kept text stems from. -/
structure ShowsSnapshot (start b : Board) (h : HubId) (s : Snapshot) : Prop where
  live : (b.hub h).isVolatile = true → s = b.capture h b.wall
  kept : (b.hub h).isVolatile = false → Stems start b h s

/-- **The text of a hub is read as a snapshot that it may show.** -/
theorem HoldsTexts.decodes_formatted {start : Board} (hc : Changes start b) (hb : Sound b)
    (hh : HoldsTexts start b h) :
    ∃ s, ShowsSnapshot start b h s ∧ b.Decodes h (b.formatted h).2 s := by
  have hlive := decodes_capture (hb.slotted h) b.wall
  rw [formatted_snd]
  cases hv : (b.hub h).isVolatile with
  | true =>
    refine ⟨b.capture h b.wall, ⟨fun _ => rfl, fun hn => ?_⟩, hlive⟩
    rw [hv] at hn
    cases hn
  | false =>
    have hkept : ∀ {s}, Stems start b h s → ShowsSnapshot start b h s := by
      refine fun hs => ⟨fun ht => ?_, fun _ => hs⟩
      rw [hv] at ht
      cases ht
    cases hf : (b.hub h).formatted with
    | some text =>
      obtain ⟨s, hstems, hdec⟩ := hh.formatted text hf
      exact ⟨s, hkept hstems, hdec⟩
    | none => exact ⟨b.capture h b.wall, hkept (.read hc .refl rfl hf), hlive⟩

/-! ### From a publication on -/

/-- Whether a hub keeps the text of its snapshot as long as it has the leaves of a table. -/
structure IsCurrent (t : LeafTable) (b : Board) (h : HubId) : Prop where
  room : h.index < b.hubs.size
  size : t.byPredicate.size ≤ (b.hub h).table.byPredicate.size
  shown : (b.hub h).table = t → ∃ s text, (b.hub h).snapshot = some s ∧
    (b.hub h).formatted = some text ∧ b.Decodes h text s

theorem isCurrent_post {t : LeafTable} (hb : Sound b) (room : h.index < b.hubs.size)
    (size : t.byPredicate.size ≤ (b.hub h).table.byPredicate.size) (time : Timestamp) :
    IsCurrent t (b.post h time) h := by
  have hf := Frame.post b h time
  refine ⟨Nat.lt_of_lt_of_le room hf.hubCount, by rw [(hf.hub h).table]; exact size, fun _ => ?_⟩
  rw [hub_post, if_pos rfl]
  exact ⟨_, _, rfl, rfl, (decodes_postedLine (hb.slotted h) time).congr (layout_eq hf h)⟩

theorem IsCurrent.tail {t : LeafTable} (hi : IsCurrent t b h) (hb : Sound b)
    (hc : Change A E b b') : IsCurrent t b' h := by
  rcases hc.keepsTexts hb h with ⟨time, rfl⟩ | hd | hk
  · exact isCurrent_post hb hi.room hi.size time
  · have hgrows : (b.hub h).table.byPredicate.size < (b'.hub h).table.byPredicate.size := by
      rcases hd.grows with hnew | hg
      · exact absurd hi.room (Nat.not_lt.2 hnew)
      · exact hg
    have hsize := hi.size
    refine ⟨Nat.lt_of_lt_of_le hi.room hc.hubCount, by omega, fun ht => ?_⟩
    -- a table with one more leaf is not the table it was
    rw [ht] at hgrows
    omega
  · refine ⟨Nat.lt_of_lt_of_le hi.room hc.hubCount, by rw [hk.table]; exact hi.size, fun ht => ?_⟩
    obtain ⟨s, text, hs, htext, hdec⟩ := hi.shown (hk.table.symm.trans ht)
    refine ⟨s, text, hk.snapshot.trans hs, ?_, hdec.congr hk.layout⟩
    rcases hk.formatted with he | ⟨hn, -⟩
    · exact he.trans htext
    · rw [hn] at htext
      cases htext

/-- **A published text is read as the snapshot of its hub**, from the publication on, as long as
no leaf is registered on the hub. -/
theorem decodes_snapshot {a : Board} (ha : Sound a) (held : a.isHubHeld h = true)
    {time : Timestamp} (hc : Changes (a.post h time) b)
    (ht : (b.hub h).table = (a.hub h).table) (hv : (b.hub h).isVolatile = false) :
    ∃ s, (b.hub h).snapshot = some s ∧ b.Decodes h (b.formatted h).2 s := by
  have hpost : Move (fun _ => True) a (a.post h time) := .post h time held
  have hi : IsCurrent (a.hub h).table b h := by
    clear ht hv
    induction hc with
    | refl => exact isCurrent_post ha (ha.held h held) (Nat.le_refl _) time
    | tail hcs hc ih => exact ih.tail (ChangesBy.sound hcs (hpost.sound ha)) hc
  obtain ⟨s, text, hs, htext, hdec⟩ := hi.shown ht
  refine ⟨s, hs, ?_⟩
  rw [formatted_snd, hv, htext]
  exact hdec

end Board

end Switchboard
