import Switchboard.Proofs.Line

/-!
# Published texts tell values apart

A bare number holds no quote, comma or closing bracket, and a quoted string ends where its reader
stops. So it is clear where a value ends in a published text, and texts of one hub that are equal
show equal values under each key.

* `StopFree.unique`: where a text without stops outside of its strings ends.
* `LeafTable.values_of_render_eq`: equal texts show equal values.
-/

namespace Switchboard

/-- A text made of single characters and quoted strings. No character outside of the strings is a
stop or a quote. -/
inductive StopFree (stops : List Char) : List Char → Prop
  | nil : StopFree stops []
  | char (c : Char) {w : List Char} (free : c ∉ stops) (unquoted : c ≠ '"')
      (rest : StopFree stops w) :
    StopFree stops (c :: w)
  | quoted (s : List Char) {w : List Char} (rest : StopFree stops w) :
    StopFree stops (Json.quote s ++ w)

namespace StopFree

variable {stops : List Char}

protected theorem append {v w : List Char} (hv : StopFree stops v) (hw : StopFree stops w) :
    StopFree stops (v ++ w) := by
  induction hv with
  | nil => exact hw
  | char c free unquoted _ ih => exact .char c free unquoted ih
  | quoted s _ ih =>
    rw [List.append_assoc]
    exact .quoted s ih

/-- A quoted string is read back, and its reader stops behind it. -/
theorem readQuoted_quote (s t : List Char) :
    ∃ u, Json.quote s ++ t = '"' :: u ∧ Json.readQuoted u = some (s, t) := by
  refine ⟨Json.escape s ++ '"' :: t, ?_, Json.readQuoted_escapeWith Json.faithful_lineLetters s t⟩
  rw [Json.quote, List.append_assoc, List.cons_append]
  rfl

/-- **It is clear where such a text ends**, if a stop follows. -/
theorem unique (hq : '"' ∉ stops) {v w : List Char} (hv : StopFree stops v) (hw : StopFree stops w)
    {c d : Char} (hc : c ∈ stops) (hd : d ∈ stops) {s t : List Char}
    (h : v ++ c :: s = w ++ d :: t) : v = w ∧ s = t := by
  have hcq : c ≠ '"' := fun e => hq (e ▸ hc)
  have hdq : d ≠ '"' := fun e => hq (e ▸ hd)
  induction hv generalizing w with
  | nil =>
    cases hw with
    | nil => exact ⟨rfl, (List.cons.inj h).2⟩
    | char e free _ _ => exact absurd ((List.cons.inj h).1 ▸ hc) free
    | quoted x _ => exact absurd (List.cons.inj h).1 hcq
  | char a free unquoted _ ih =>
    cases hw with
    | nil => exact absurd ((List.cons.inj h).1 ▸ hd) free
    | char e _ _ hr =>
      obtain ⟨hae, hrest⟩ := List.cons.inj h
      obtain ⟨rfl, hs⟩ := ih hr hrest
      exact ⟨congrArg (· :: _) hae, hs⟩
    | quoted x _ => exact absurd (List.cons.inj h).1 unquoted
  | quoted x _ ih =>
    cases hw with
    | nil => exact absurd (List.cons.inj h).1.symm hdq
    | char e _ unquoted _ => exact absurd (List.cons.inj h).1.symm unquoted
    | quoted y hr =>
      rw [List.append_assoc, List.append_assoc] at h
      -- both are strings, and one reader reads both of them
      obtain ⟨u, hu, hx⟩ := readQuoted_quote x _
      obtain ⟨u', hu', hy⟩ := readQuoted_quote y _
      rw [hu, hu'] at h
      rw [(List.cons.inj h).2, hy] at hx
      obtain ⟨rfl, hrest⟩ := Prod.mk.inj (Option.some.inj hx)
      obtain ⟨rfl, hs⟩ := ih hr hrest.symm
      exact ⟨rfl, hs⟩

theorem mono {more : List Char} (hs : ∀ c ∈ stops, c ∈ more) {w : List Char}
    (h : StopFree more w) : StopFree stops w := by
  induction h with
  | nil => exact .nil
  | char c free unquoted _ ih => exact .char c (fun hc => free (hs c hc)) unquoted ih
  | quoted s _ ih => exact .quoted s ih

theorem of_chars {w : List Char} (h : ∀ c ∈ w, c ∉ stops ∧ c ≠ '"') : StopFree stops w := by
  induction w with
  | nil => exact .nil
  | cons c w ih =>
    obtain ⟨hc, hq⟩ := h c List.mem_cons_self
    exact .char c hc hq (ih fun d hd => h d (List.mem_cons_of_mem c hd))

end StopFree

/-! ### Values -/

/-- The characters that can stand behind a value in a published text. -/
def valueStops : List Char := [',', ']', '\x7d']

theorem Literal.stopFree_json (l : Literal) : StopFree valueStops l.json := by
  unfold Literal.json
  split
  · refine StopFree.of_chars fun c hc => ?_
    -- a bare number is made of digits and signs, none of which is a stop or a quote
    have hout : ('"' :: valueStops).all (fun d => !d.isDigit && d ∉ Decimal.signs) = true := by
      decide
    have hn : c ∉ '"' :: valueStops := by
      intro hm
      have hd := Bool.and_eq_true_iff.1 (List.all_eq_true.1 hout c hm)
      rcases Number.mem_text hc with h | h
      · rw [h] at hd
        cases hd.1
      · exact of_decide_eq_true hd.2 h
    exact ⟨fun hm => hn (List.mem_cons_of_mem _ hm), fun e => hn (e ▸ List.mem_cons_self)⟩
  · have h : StopFree valueStops (Json.quote l.lexical.toList ++ []) := .quoted _ .nil
    rwa [List.append_nil] at h

theorem Text.isBlank_of_isDigit {c : Char} (h : c.isDigit = true) : isBlank c = false := by
  have hn : 48 ≤ c.toNat ∧ c.toNat ≤ 57 := by
    rw [Char.isDigit, Bool.and_eq_true, decide_eq_true_eq, decide_eq_true_eq] at h
    exact h
  unfold isBlank
  simp only [Bool.or_eq_false_iff, Bool.and_eq_false_iff, decide_eq_false_iff_not,
    beq_eq_false_iff_ne]
  omega

/-- The integers of a signed 64-bit word. -/
def InWord (n : Int) : Prop := -0x8000000000000000 ≤ n ∧ n < 0x8000000000000000

instance (n : Int) : Decidable (InWord n) := inferInstanceAs (Decidable (_ ∧ _))

/-- An integer of a 64-bit word is published as it is. -/
theorem Literal.number?_integer {n : Int} (h : InWord n) :
    (Literal.integer n).number? = some (.int n) := by
  have hblank : ∀ c ∈ Decimal.text n, Text.isBlank c = false := by
    intro c hc
    rcases Decimal.mem_text hc with hd | rfl
    · exact Text.isBlank_of_isDigit hd
    · decide
  -- the reader trims the text first, and there is nothing to trim
  have htrim : Text.trim (Decimal.text n) = Decimal.text n :=
    Text.trim_eq_self (fun c hc => hblank c (List.mem_of_head? hc))
      (fun c hc => hblank c (List.mem_of_getLast? hc))
  have hlex : (Literal.integer n).lexical.toList = Decimal.text n := String.toList_ofList
  have hnumeric : (Literal.integer n).datatype.isNumeric = true := rfl
  have hintegral : (Literal.integer n).datatype.isIntegral = true := rfl
  unfold Literal.number?
  dsimp only
  rw [if_pos hnumeric, if_pos hintegral, hlex, htrim, Decimal.signed64?_text h.1 h.2]

/-- Different integers of a 64-bit word are published differently. -/
theorem Literal.eq_of_json_integer {n m : Int} (hn : InWord n) (hm : InWord m)
    (h : (Literal.integer n).json = (Literal.integer m).json) : n = m := by
  rw [Literal.json, Literal.json, Literal.number?_integer hn, Literal.number?_integer hm] at h
  have hs := congrArg Decimal.signed64? h
  change Decimal.signed64? (Decimal.text n) = Decimal.signed64? (Decimal.text m) at hs
  rw [Decimal.signed64?_text hn.1 hn.2, Decimal.signed64?_text hm.1 hm.2] at hs
  exact Option.some.inj hs

namespace LeafTable

/-- The values of an array, but for its brackets. -/
theorem stopFree_items (vs : List Literal) :
    StopFree [']'] (Text.join [','] (vs.map Literal.json)) := by
  have hjson : ∀ l : Literal, StopFree [']'] l.json := fun l =>
    l.stopFree_json.mono fun c hc => by
      rw [List.mem_singleton.1 hc]
      decide
  induction vs with
  | nil => exact .nil
  | cons v vs ih =>
    cases vs with
    | nil => exact hjson v
    | cons w ws =>
      have hsep : StopFree [']'] [','] := .char ',' (by decide) (by decide) .nil
      exact ((hjson v).append hsep).append ih

/-- It is clear where the values of a leaf end. -/
theorem valuesText_unique {array : Bool} {vs ws : List Literal}
    (hv : array = false → vs.length = 1) (hw : array = false → ws.length = 1) {c d : Char}
    (hc : c ∈ valueStops) (hd : d ∈ valueStops) {s t : List Char}
    (h : valuesText array vs ++ c :: s = valuesText array ws ++ d :: t) :
    valuesText array vs = valuesText array ws ∧ s = t := by
  cases array with
  | false =>
    obtain ⟨v, rfl⟩ := List.length_eq_one_iff.1 (hv rfl)
    obtain ⟨w, rfl⟩ := List.length_eq_one_iff.1 (hw rfl)
    exact v.stopFree_json.unique (by decide) w.stopFree_json hc hd h
  | true =>
    -- an array ends at its own bracket
    have hsplit : ∀ us (e : Char) u, valuesText true us ++ e :: u =
        '[' :: (Text.join [','] (us.map Literal.json) ++ ']' :: e :: u) := by
      intro us e u
      simp [valuesText]
    rw [hsplit, hsplit] at h
    obtain ⟨he, hrest⟩ := (stopFree_items vs).unique (by decide) (stopFree_items ws)
      List.mem_cons_self List.mem_cons_self (List.cons.inj h).2
    refine ⟨?_, (List.cons.inj hrest).2⟩
    unfold valuesText
    dsimp only
    rw [he]

/-! ### Fields -/

/-- The keys of a published text, with the leaves whose values they show. -/
def fields (t : LeafTable) : List (String × LeafId) :=
  ([Name.Reserved.instant, .datetime].map fun r => (r.label, t.slot r)) ++
    t.shortNames.map fun e => (e.key, e.leaf)

/-- The member of a published text for a leaf. -/
def fieldText (leafOf : LeafId → Leaf) (f : String × LeafId) : List Char :=
  entryText f.1 (leafOf f.2).isArray (leafOf f.2).values

theorem mem_insertDescending {e f : ShortName} {es : List ShortName} :
    f ∈ insertDescending e es ↔ f = e ∨ f ∈ es := by
  induction es with
  | nil => simp [insertDescending]
  | cons g es ih =>
    rw [insertDescending]
    split
    · exact List.mem_cons
    · rw [List.mem_cons, ih, List.mem_cons]
      exact or_left_comm

theorem mem_sortDescending {f : ShortName} {es : List ShortName} :
    f ∈ sortDescending es ↔ f ∈ es := by
  induction es with
  | nil => exact Iff.rfl
  | cons e es ih =>
    rw [sortDescending, List.foldr_cons, mem_insertDescending, List.mem_cons]
    exact or_congr_right ih

/-- The leaves under short names are the registered ones that are in no slot. -/
theorem mem_shortNames {t : LeafTable} {e : ShortName} : e ∈ t.shortNames ↔
    e.key = t.key e.predicate ∧ t.byPredicate.get? e.predicate = some e.leaf ∧
      t.isReserved e.leaf = false := by
  rw [shortNames, mem_sortDescending, List.mem_map]
  constructor
  · rintro ⟨x, hx, rfl⟩
    obtain ⟨hm, hr⟩ := List.mem_filter.1 hx
    rw [Bool.not_eq_true'] at hr
    exact ⟨rfl, Register.get?_eq_some_iff.2 hm, hr⟩
  · rintro ⟨hk, hg, hr⟩
    refine ⟨(e.predicate, e.leaf), List.mem_filter.2 ⟨Register.get?_eq_some_iff.1 hg, ?_⟩, ?_⟩
    · rw [Bool.not_eq_true']
      exact hr
    · rw [← hk]

/-- Whether the leaves that are registered under reserved predicates are in their slots. -/
def IsSlotted (t : LeafTable) : Prop :=
  ∀ (r : Name.Reserved) l, t.byPredicate.get? r.predicate = some l → t.slot r = l

/-- A field shows a leaf of the hub. -/
theorem mem_leaves_of_mem_fields {t : LeafTable} {f : String × LeafId} (h : f ∈ t.fields) :
    f.2 ∈ t.leaves := by
  rw [mem_leaves_iff]
  rcases List.mem_append.1 h with h | h
  · obtain ⟨r, -, rfl⟩ := List.mem_map.1 h
    exact .inl ⟨r, rfl⟩
  · obtain ⟨e, he, rfl⟩ := List.mem_map.1 h
    exact .inr (Register.mem_values_of_get? (mem_shortNames.1 he).2.1)

/-- Every leaf of a hub has a field. -/
theorem exists_mem_fields {t : LeafTable} {l : LeafId} (h : l ∈ t.leaves) :
    ∃ key, (key, l) ∈ t.fields := by
  have hslot : ∀ r, ∃ key, (key, t.slot r) ∈ t.fields := by
    intro r
    refine ⟨r.label, List.mem_append_left _ (List.mem_map.2 ⟨r, ?_, rfl⟩)⟩
    cases r <;> decide
  rcases (t.mem_leaves_iff l).1 h with ⟨r, rfl⟩ | h
  · exact hslot r
  · cases hr : t.isReserved l with
    | true =>
      rw [isReserved, Bool.or_eq_true, decide_eq_true_eq, decide_eq_true_eq] at hr
      rcases hr with rfl | rfl
      · exact hslot .instant
      · exact hslot .datetime
    | false =>
      obtain ⟨e, he, rfl⟩ := List.mem_map.1 h
      have hg : t.byPredicate.get? e.1 = some e.2 := Register.get?_eq_some_iff.2 he
      refine ⟨t.key e.1, List.mem_append_right _ (List.mem_map.2 ⟨⟨t.key e.1, e.1, e.2⟩, ?_, rfl⟩)⟩
      exact mem_shortNames.2 ⟨rfl, hg, hr⟩

/-- A captured slot shows the leaf in it. -/
theorem get?_capture_slot {t : LeafTable} (slotted : t.IsSlotted)
    (leafOf : LeafId → Leaf) (time : Timestamp) (r : Name.Reserved) :
    (t.capture leafOf time).get? r.predicate = some (leafOf (t.slot r)).values := by
  cases hg : t.byPredicate.get? r.predicate with
  | some l =>
    rw [slotted r l hg]
    exact get?_capture hg leafOf time
  | none =>
    have hr : r ∈ t.ownSlots := mem_ownSlots.2 (by rw [Register.contains, hg]; rfl)
    rw [Snapshot.get?, Register.get?_eq_some_iff, entries_capture]
    exact List.mem_append_left _ (List.mem_map.2 ⟨r, hr, rfl⟩)

/-- A published text is made of its fields. -/
theorem render_capture {t : LeafTable} (slotted : t.IsSlotted)
    (leafOf : LeafId → Leaf) (time : Timestamp) : t.render leafOf (t.capture leafOf time) =
      '\x7b' :: (Text.join [','] (t.fields.map (fieldText leafOf)) ++ ['\x7d']) := by
  have hslots : ∀ r, (r.label, (leafOf (t.slot r)).isArray,
      ((t.capture leafOf time).get? r.predicate).getD []) =
      (r.label, (leafOf (t.slot r)).isArray, (leafOf (t.slot r)).values) := by
    intro r
    rw [get?_capture_slot slotted]
    rfl
  have hnames : ∀ e ∈ t.shortNames, (e.key, (leafOf e.leaf).isArray,
      ((t.capture leafOf time).get? e.predicate).getD []) =
      (e.key, (leafOf e.leaf).isArray, (leafOf e.leaf).values) := by
    intro e he
    rw [get?_capture (mem_shortNames.1 he).2.1]
    rfl
  have hentries : t.entries leafOf (t.capture leafOf time) =
      t.fields.map fun f => (f.1, (leafOf f.2).isArray, (leafOf f.2).values) := by
    rw [entries, fields, List.map_append, List.map_map, List.map_map]
    refine congr (congrArg _ ?_) (List.map_congr_left hnames)
    exact List.map_congr_left fun r _ => hslots r
  rw [render, hentries, List.map_map]
  rfl

/-- **Equal members show equal values.** -/
theorem values_of_fields_eq {leafOf leafOf' : LeafId → Leaf}
    (same : ∀ l, (leafOf' l).isArray = (leafOf l).isArray) {fs : List (String × LeafId)}
    {s t : List Char} (h : Text.join [','] (fs.map (fieldText leafOf)) ++ '\x7d' :: s =
      Text.join [','] (fs.map (fieldText leafOf')) ++ '\x7d' :: t) :
    ∀ f ∈ fs, valuesText (leafOf f.2).isArray (leafOf f.2).values =
      valuesText (leafOf f.2).isArray (leafOf' f.2).values := by
  -- one member tells its value and where it ends, whatever follows
  have hone : ∀ (f : String × LeafId) {c d : Char} {u v : List Char}, c ∈ valueStops →
      d ∈ valueStops → fieldText leafOf f ++ c :: u = fieldText leafOf' f ++ d :: v →
      valuesText (leafOf f.2).isArray (leafOf f.2).values =
        valuesText (leafOf f.2).isArray (leafOf' f.2).values ∧ u = v := by
    intro f c d u v hc hd he
    rw [fieldText, fieldText, entryText, entryText, List.append_assoc, List.append_assoc] at he
    have hrest := (List.cons.inj (List.append_cancel_left he)).2
    rw [same] at hrest
    refine valuesText_unique Leaf.values_ne_nil (fun ha => ?_) hc hd hrest
    exact Leaf.values_ne_nil ((same f.2).trans ha)
  induction fs generalizing s t with
  | nil => exact fun _ hf => absurd hf List.not_mem_nil
  | cons f fs ih =>
    cases fs with
    | nil =>
      intro g hg
      rw [List.mem_singleton.1 hg]
      exact (hone f (by decide) (by decide) h).1
    | cons g gs =>
      rw [List.map_cons, List.map_cons, List.map_cons, List.map_cons, Text.join, Text.join,
        List.append_assoc, List.append_assoc, List.append_assoc, List.append_assoc] at h
      obtain ⟨hv, hrest⟩ := hone f (by decide) (by decide) h
      intro k hk
      rcases List.mem_cons.1 hk with rfl | hk
      · exact hv
      · exact ih hrest k hk

/-- **Texts of one table that are equal show equal values.** -/
theorem values_of_render_eq {t : LeafTable} (slotted : t.IsSlotted)
    {leafOf leafOf' : LeafId → Leaf} (same : ∀ l, (leafOf' l).isArray = (leafOf l).isArray)
    {time time' : Timestamp}
    (h : t.render leafOf (t.capture leafOf time) = t.render leafOf' (t.capture leafOf' time'))
    {l : LeafId} (hl : l ∈ t.leaves) : valuesText (leafOf l).isArray (leafOf l).values =
      valuesText (leafOf l).isArray (leafOf' l).values := by
  obtain ⟨key, hk⟩ := exists_mem_fields hl
  rw [render_capture slotted, render_capture slotted] at h
  exact values_of_fields_eq same (List.cons.inj h).2 (key, l) hk

end LeafTable

end Switchboard
