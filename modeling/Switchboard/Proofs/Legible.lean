import Switchboard.Proofs.Apart
import Switchboard.Proofs.Sound
import Switchboard.Proofs.Spelling

/-!
# Published texts are read as the values they show

A rendered text is one JSON object. Its members are laid out by the table of the hub: first the two
reserved slots, then the short names. Every member shows the values under its predicate, those of
an array as an array, and the one value of another leaf by itself.

* `LeafTable.layout`, `Snapshot.object`: the members of a text, and what it is read as.
* `LeafTable.spells_render`: a text is read as the object of its snapshot, if that fits.
* `LeafTable.fits_capture`: what is captured of a table fits its layout.
-/

namespace Switchboard

/-- What a published literal is read as: its number, or a string with its text. -/
def Literal.toJson (l : Literal) : Json :=
  match l.number? with
  | some n => .number n.text
  | none => .string (some l.lexical.toList)

/-- **A literal is read as its number or its text.** -/
theorem Literal.spells_json (l : Literal) : Json.Spells l.json l.toJson := by
  unfold Literal.json Literal.toJson
  cases h : l.number? with
  | some n => exact Json.spells_number (isNumber_of_number? h)
  | none => exact Json.spells_quote _

/-- A member of the texts of a hub: its key, the predicate whose values it shows, and whether it
shows them as an array. -/
structure Member where
  key : String
  predicate : String
  array : Bool
  deriving DecidableEq

/-- What the value of a member is read as. Outside of arrays there is exactly one literal. -/
def Member.value (m : Member) (vs : List Literal) : Json :=
  match m.array, vs with
  | true, vs => .array (vs.map Literal.toJson)
  | false, [v] => v.toJson
  | false, _ => .null

/-- Whether a snapshot has values for all members of a layout, and exactly one for each member
that is no array. -/
def Snapshot.Fits (s : Snapshot) (layout : List Member) : Prop :=
  ∀ m ∈ layout, ∃ vs, s.get? m.predicate = some vs ∧ (m.array = false → vs.length = 1)

/-- The object that shows a snapshot: the members of a layout, in order. -/
def Snapshot.object (s : Snapshot) (layout : List Member) : Json :=
  .object (layout.map fun m => (some m.key.toList, m.value ((s.get? m.predicate).getD [])))

theorem forall₂_map_self {α β γ : Type} {R : β → γ → Prop} {f : α → β} {g : α → γ} {as : List α}
    (h : ∀ a ∈ as, R (f a) (g a)) : List.Forall₂ R (as.map f) (as.map g) := by
  rw [List.forall₂_map_left_iff, List.forall₂_map_right_iff, List.forall₂_same]
  exact h

namespace LeafTable

/-- The members of the texts of a table: the reserved slots and then the short names. -/
def layout (t : LeafTable) (leafOf : LeafId → Leaf) : List Member :=
  ([Name.Reserved.instant, .datetime].map fun r =>
    ⟨r.label, r.predicate, (leafOf (t.slot r)).isArray⟩) ++
  t.shortNames.map fun e => ⟨e.key, e.predicate, (leafOf e.leaf).isArray⟩

variable {t : LeafTable} {leafOf : LeafId → Leaf}

/-! ### Texts -/

/-- The values of a member are read as its value. -/
theorem spells_valuesText (m : Member) {vs : List Literal} (h : m.array = false → vs.length = 1) :
    Json.Spells (valuesText m.array vs) (m.value vs) := by
  cases ha : m.array with
  | true =>
    have hitems : List.Forall₂ Json.Spells (vs.map Literal.json) (vs.map Literal.toJson) :=
      forall₂_map_self fun l _ => l.spells_json
    have hvalue : m.value vs = .array (vs.map Literal.toJson) := by
      unfold Member.value
      rw [ha]
    rw [hvalue]
    exact Json.spells_array (g := []) hitems fun _ hc => nomatch hc
  | false =>
    obtain ⟨v, rfl⟩ := List.length_eq_one_iff.1 (h ha)
    have hvalue : m.value [v] = v.toJson := by
      unfold Member.value
      rw [ha]
    rw [hvalue]
    exact v.spells_json

theorem entries_eq_layout (t : LeafTable) (leafOf : LeafId → Leaf) (s : Snapshot) :
    t.entries leafOf s =
      (t.layout leafOf).map fun m => (m.key, m.array, (s.get? m.predicate).getD []) := by
  rw [entries, layout, List.map_append, List.map_map, List.map_map]
  rfl

/-- **A text is read as the object of its snapshot**, if the snapshot fits the layout. -/
theorem spells_render {s : Snapshot} (hs : s.Fits (t.layout leafOf)) :
    Json.Spells (t.render leafOf s) (s.object (t.layout leafOf)) := by
  have htext : t.render leafOf s = '\x7b' :: (Text.join [','] (((t.layout leafOf).map fun m =>
      (m.key.toList, valuesText m.array ((s.get? m.predicate).getD []))).map Json.memberText) ++
        ['\x7d']) := by
    rw [render, entries_eq_layout, List.map_map, List.map_map]
    rfl
  rw [htext]
  refine Json.spells_object (forall₂_map_self fun m hm => ⟨rfl, ?_⟩) (by simp [layout])
  obtain ⟨vs, hvs, hone⟩ := hs m hm
  rw [hvs]
  exact spells_valuesText m hone

/-! ### Snapshots -/

/-- **What is captured of a table fits its layout**: no member is without values. -/
theorem fits_capture (slotted : t.IsSlotted) (leafOf : LeafId → Leaf) (time : Timestamp) :
    (t.capture leafOf time).Fits (t.layout leafOf) := by
  intro m hm
  rcases List.mem_append.1 hm with hm | hm
  · obtain ⟨r, -, rfl⟩ := List.mem_map.1 hm
    exact ⟨_, get?_capture_slot slotted leafOf time r, Leaf.values_ne_nil⟩
  · obtain ⟨e, he, rfl⟩ := List.mem_map.1 hm
    exact ⟨_, get?_capture (mem_shortNames.1 he).2.1 leafOf time, Leaf.values_ne_nil⟩

/-- The layout counts which leaves are arrays, and nothing else of them. -/
theorem layout_congr {leafOf' : LeafId → Leaf}
    (same : ∀ l ∈ t.leaves, (leafOf' l).isArray = (leafOf l).isArray) :
    t.layout leafOf' = t.layout leafOf := by
  have hslots : ∀ r : Name.Reserved, (leafOf' (t.slot r)).isArray = (leafOf (t.slot r)).isArray :=
    fun r => same _ ((t.mem_leaves_iff _).2 (.inl ⟨r, rfl⟩))
  have hnames : ∀ e ∈ t.shortNames, (leafOf' e.leaf).isArray = (leafOf e.leaf).isArray :=
    fun e he => same _ ((t.mem_leaves_iff _).2
      (.inr (Register.mem_values_of_get? (mem_shortNames.1 he).2.1)))
  unfold layout
  refine congr (congrArg _ ?_) (List.map_congr_left fun e he => by rw [hnames e he])
  exact List.map_congr_left fun r _ => by rw [hslots r]

end LeafTable

namespace Board

/-- The members of the texts of a hub. -/
def layout (b : Board) (h : HubId) : List Member := (b.hub h).table.layout b.leaf

variable {b b' : Board}

theorem layout_eq (hf : Frame b b') (h : HubId) : b'.layout h = b.layout h := by
  unfold layout
  rw [(hf.hub h).table]
  exact LeafTable.layout_congr fun l _ => (hf.leaf l).isArray

/-- Whether a text is read as the object of a snapshot that fits the layout of a hub. -/
structure Decodes (b : Board) (h : HubId) (text : String) (s : Snapshot) : Prop where
  fits : s.Fits (b.layout h)
  spells : Json.Spells text.toList (s.object (b.layout h))

theorem Decodes.read {h : HubId} {text : String} {s : Snapshot} (hd : b.Decodes h text s) :
    Json.read text.toList = some (s.object (b.layout h)) := hd.spells.read

theorem Decodes.congr {h : HubId} {text : String} {s : Snapshot} (hd : b.Decodes h text s)
    (hl : b'.layout h = b.layout h) : b'.Decodes h text s :=
  ⟨hl ▸ hd.fits, hl ▸ hd.spells⟩

/-- The text of the leaves of a hub as they are is read as what they hold. -/
theorem decodes_capture {h : HubId} (slotted : (b.hub h).table.IsSlotted) (time : Timestamp) :
    b.Decodes h (b.render h (b.capture h time)) (b.capture h time) := by
  have hfits := LeafTable.fits_capture slotted b.leaf time
  refine ⟨hfits, ?_⟩
  rw [render, String.toList_ofList]
  exact LeafTable.spells_render hfits

/-- A published line is read as its snapshot. -/
theorem decodes_postedLine {h : HubId} (slotted : (b.hub h).table.IsSlotted) (time : Timestamp) :
    b.Decodes h (b.postedLine h time) (b.posted h time) := by
  have hd : (b.stamp h time).Decodes h (b.postedLine h time) (b.posted h time) :=
    decodes_capture (b := b.stamp h time) slotted time
  exact hd.congr (layout_eq (Frame.stamp b h time) h).symm

end Board

/-- **A text with the id of its hub** is read as an array of the two. -/
theorem Hub.spells_wrap (x : Hub) {text : String} {v : Json} (h : Json.Spells text.toList v) :
    Json.Spells (x.wrap text).toList (.array [.string (some x.id.toList), v]) := by
  have hid : Json.Spells x.idJson.toList (.string (some x.id.toList)) := by
    rw [Hub.idJson, String.toList_ofList]
    exact Json.spells_quote _
  have htext : (x.wrap text).toList =
      '[' :: (Text.join [','] [x.idJson.toList, text.toList] ++ ([] ++ [']'])) := by
    simp [Hub.wrap, Text.join]
  rw [htext]
  exact Json.spells_array (.cons hid (.cons h .nil)) fun _ hc => absurd hc List.not_mem_nil

end Switchboard
