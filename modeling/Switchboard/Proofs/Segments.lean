import Mathlib.Data.List.Forall2
import Switchboard.Request.TagPath

/-!
# Reading the segments of a tag path

Each segment after the first one spells a node in one of two ways: as `link-tag`, where the link may
hold `-` but the tag may not, or plainly, if a part before or after the last `-` is missing. Reading
finds the node that a segment spells, so it gives back a walk that was written segment by segment.
What is refused is refused for the first unsafe label, and for nothing else.

* `laterStep_eq_iff`: the node of a segment is the one that it spells.
* `ofSegments_eq`: reading in closed form.
* `segments_read`: written walks are read back, and which segments are refused.
-/

namespace Switchboard

/-- A node that can be written as `link-tag`, with parts that are safe. -/
structure TagStep.IsWritable (step : TagStep) : Prop where
  tag_ne : step.tag ≠ ""
  whole : '-' ∉ step.tag.toList
  safe : TagPath.isSafe step.tag = true
  label : ∀ label, step.link = .named label →
    label ≠ "" ∧ label ≠ "*" ∧ TagPath.isSafe label = true

/-- The written form of a relation. -/
def Link.text : Link → String
  | .any => "*"
  | .named label => label

/-- A node as `link-tag`. -/
def TagStep.segment (step : TagStep) : String := step.link.text ++ "-" ++ step.tag

namespace TagPath

/-- The characters that could end or split a name between `<` and `>`. -/
def IsUnsafe (c : Char) : Prop :=
  Text.isBlank c = true ∨ Text.isControl c = true ∨ c ∈ "<>\"\x7b\x7d|^\x60\\".toList

/-- A segment that is not of the form `link-tag`: it has no `-`, or nothing on one side of its last
one. -/
def IsPlain (segment : String) : Prop :=
  ∀ link tag, segment.toList = link ++ '-' :: tag → '-' ∉ tag → link = [] ∨ tag = []

/-- The relation of plain segments: that of a given label, or any. -/
def defaultLink : Option String → Link
  | some label => .ofLabel label
  | none => .any

/-- **The node that a segment spells**, after the first segment. -/
inductive Spells (default : Link) (segment : String) : TagStep → Prop
  | linked (link tag : List Char) (parts : segment.toList = link ++ '-' :: tag) (whole : '-' ∉ tag)
    (link_ne : link ≠ []) (tag_ne : tag ≠ []) :
    Spells default segment ⟨.ofLabel (String.ofList link), String.ofList tag⟩
  | plain (plain : IsPlain segment) : Spells default segment ⟨default, segment⟩

variable {default : Link} {segment root leafTag : String} {segments : List String}
  {steps : List TagStep} {step : TagStep} {link : Option String}

/-! ### Segments -/

theorem spells_laterStep (default : Link) (segment : String) :
    Spells default segment (laterStep default segment) := by
  unfold laterStep
  split
  · rename_i link tag hcut
    obtain ⟨hparts, hwhole⟩ := Text.cutLast_eq_some.1 hcut
    split
    · rename_i hempty
      refine .plain fun link' tag' hparts' hwhole' => ?_
      -- the last `-` is at one place only
      have hcut' := Text.cutLast_eq_some.2 ⟨hparts', hwhole'⟩
      rw [hcut] at hcut'
      cases hcut'
      simpa using hempty
    · rename_i hfull
      obtain ⟨hlink, htag⟩ : link ≠ [] ∧ tag ≠ [] := by simpa using hfull
      exact .linked link tag hparts hwhole hlink htag
  · rename_i hcut
    refine .plain fun link tag hparts hwhole => ?_
    have hcut' := Text.cutLast_eq_some.2 ⟨hparts, hwhole⟩
    rw [hcut] at hcut'
    cases hcut'

/-- **The node of a segment is the one that it spells.** -/
theorem laterStep_eq_iff : laterStep default segment = step ↔ Spells default segment step := by
  constructor
  · rintro rfl
    exact spells_laterStep default segment
  · intro h
    unfold laterStep
    cases h with
    | linked link tag parts whole link_ne tag_ne =>
      have hfull : ¬ (link.isEmpty || tag.isEmpty) = true := by simp [link_ne, tag_ne]
      rw [Text.cutLast_eq_some.2 ⟨parts, whole⟩]
      exact if_neg hfull
    | plain plain =>
      split
      · rename_i link tag hcut
        obtain ⟨hparts, hwhole⟩ := Text.cutLast_eq_some.1 hcut
        have hempty : (link.isEmpty || tag.isEmpty) = true := by
          simpa using plain link tag hparts hwhole
        exact if_pos hempty
      · rfl

theorem toList_ne_nil {s : String} (h : s ≠ "") : s.toList ≠ [] :=
  fun hs => h (String.toList_inj.1 hs)

/-- What was written as `link-tag` spells its node, whatever the default. -/
theorem spells_segment (h : step.IsWritable) : Spells default step.segment step := by
  obtain ⟨link, tag⟩ := step
  have htext : Link.ofLabel link.text = link ∧ link.text ≠ "" := by
    cases link with
    | any => exact ⟨rfl, by decide⟩
    | named label =>
      obtain ⟨hne, hany, -⟩ := h.label label rfl
      exact ⟨if_neg hany, hne⟩
  have hparts : (TagStep.segment ⟨link, tag⟩).toList = link.text.toList ++ '-' :: tag.toList := by
    simp [TagStep.segment, String.toList_append]
  have hs : Spells default (TagStep.segment ⟨link, tag⟩)
      ⟨.ofLabel (String.ofList link.text.toList), String.ofList tag.toList⟩ :=
    .linked _ _ hparts h.whole (toList_ne_nil htext.2) (toList_ne_nil h.tag_ne)
  rwa [String.ofList_toList, String.ofList_toList, htext.1] at hs

theorem isSafe_segment (h : step.IsWritable) : isSafe step.segment = true := by
  have hlink : isSafe step.link.text = true := by
    cases hl : step.link with
    | any => decide
    | named label => exact (h.label label hl).2.2
  have hdash : isSafe "-" = true := by decide
  have htag := h.safe
  rw [isSafe] at hlink hdash htag ⊢
  rw [TagStep.segment, String.toList_append, String.toList_append, List.all_append,
    List.all_append, hlink, hdash, htag]
  rfl

theorem map_laterStep_eq_iff :
    segments.map (laterStep default) = steps ↔ List.Forall₂ (Spells default) segments steps := by
  rw [← List.forall₂_eq_eq_eq, List.forall₂_map_left_iff]
  simp only [laterStep_eq_iff]

/-! ### Labels -/

theorem isSafe_eq_false_iff {label : String} :
    isSafe label = false ↔ ∃ c ∈ label.toList, IsUnsafe c := by
  rw [isSafe, List.all_eq_false]
  refine exists_congr fun c => and_congr_right fun _ => ?_
  simp only [Bool.not_eq_true, Bool.not_eq_false', Bool.or_eq_true, List.contains_eq_mem,
    decide_eq_true_eq, IsUnsafe, or_assoc]

/-- **Labels are refused for the first one that is not safe.** -/
theorem forM_check (labels : List String) : labels.forM check =
    match labels.find? fun label => !isSafe label with
    | some label => .error (.illegalTag label)
    | none => .ok () := by
  induction labels with
  | nil => rfl
  | cons label labels ih =>
    change (check label >>= fun _ => labels.forM check) = _
    rw [List.find?_cons]
    cases hs : isSafe label with
    | true =>
      have hcheck : check label = .ok () := if_pos hs
      rw [hcheck]
      exact ih
    | false =>
      have hcheck : check label = .error (.illegalTag label) := if_neg (by simp [hs])
      rw [hcheck]
      rfl

/-! ### Paths -/

/-- **Reading in closed form**: an empty path is refused, then the first unsafe label, and else the
nodes are read one by one. -/
theorem ofSegments_eq (segments : List String) (link : Option String) :
    ofSegments segments link = match segments.getLast? with
      | none => .error .noPathSpecified
      | some leafTag =>
        match (segments ++ link.toList).find? fun label => !isSafe label with
        | some label => .error (.illegalTag label)
        | none => .ok ⟨nodes (defaultLink link) segments.dropLast, leafTag⟩ := by
  have hdefault : (link.map Link.ofLabel).getD .any = defaultLink link := by cases link <;> rfl
  unfold ofSegments
  cases segments.getLast? with
  | none => rfl
  | some leafTag =>
    simp only [forM_check, hdefault]
    cases (segments ++ link.toList).find? fun label => !isSafe label <;> rfl

theorem find?_unsafe_eq_none (labels : List String) :
    (labels.find? fun label => !isSafe label) = none ↔ ∀ label ∈ labels, isSafe label = true := by
  simp

theorem unsafe_of_find? {labels : List String} {label : String}
    (h : (labels.find? fun label => !isSafe label) = some label) :
    label ∈ labels ∧ isSafe label = false := by
  refine ⟨List.mem_of_find?_eq_some h, ?_⟩
  simpa using List.find?_some h

/-- Reading ends in one of three ways. -/
theorem ofSegments_cases (segments : List String) (link : Option String) :
    (segments = [] ∧ ofSegments segments link = .error .noPathSpecified) ∨
    (segments ≠ [] ∧ ∃ label,
      (segments ++ link.toList).find? (fun label => !isSafe label) = some label ∧
      ofSegments segments link = .error (.illegalTag label)) ∨
    (segments ≠ [] ∧ (∀ label ∈ segments ++ link.toList, isSafe label = true) ∧
      ∃ path, ofSegments segments link = .ok path) := by
  rw [ofSegments_eq]
  cases hlast : segments.getLast? with
  | none => exact .inl ⟨List.getLast?_eq_none_iff.1 hlast, rfl⟩
  | some leafTag =>
    have hne : segments ≠ [] := by
      rintro rfl
      cases hlast
    cases hfind : (segments ++ link.toList).find? fun label => !isSafe label with
    | some label => exact .inr (.inl ⟨hne, label, rfl, rfl⟩)
    | none => exact .inr (.inr ⟨hne, (find?_unsafe_eq_none _).1 hfind, _, rfl⟩)

/-- The nodes that the segments spell are read. -/
theorem ofSegments_of_spells (hroot : isSafe root = true) (hleaf : isSafe leafTag = true)
    (hlink : ∀ label ∈ link, isSafe label = true) (hsafe : ∀ s ∈ segments, isSafe s = true)
    (hs : List.Forall₂ (Spells (defaultLink link)) segments steps) :
    ofSegments (root :: segments ++ [leafTag]) link = .ok ⟨⟨.any, root⟩ :: steps, leafTag⟩ := by
  have hall : ∀ label ∈ (root :: segments ++ [leafTag]) ++ link.toList, isSafe label = true := by
    intro label h
    simp only [List.cons_append, List.mem_cons, List.mem_append, List.not_mem_nil, or_false,
      Option.mem_toList] at h
    rcases h with rfl | (h | rfl) | h
    · exact hroot
    · exact hsafe label h
    · exact hleaf
    · exact hlink label h
  rw [ofSegments_eq, List.getLast?_concat, (find?_unsafe_eq_none _).2 hall, List.dropLast_concat,
    nodes, map_laterStep_eq_iff.2 hs]

/-- **Reading undoes writing**, and what is refused. A walk from a root, written as `link-tag` for
each further node, is read back with its leaf tag, whatever the default relation is. In general each
segment in between gives the node that it spells: a plain one its whole text, by the default
relation. Segments are refused for no other reason than that there is none or that a label has a
character which is not safe, and then for the first such label. -/
theorem segments_read :
    (∀ (root leafTag : String) (link : Option String) (steps : List TagStep),
      isSafe root = true → isSafe leafTag = true → (∀ label ∈ link, isSafe label = true) →
      (∀ step ∈ steps, step.IsWritable) →
      ofSegments (root :: steps.map TagStep.segment ++ [leafTag]) link =
        .ok ⟨⟨.any, root⟩ :: steps, leafTag⟩) ∧
    (∀ (root leafTag : String) (link : Option String) (segments : List String)
      (steps : List TagStep), isSafe root = true → isSafe leafTag = true →
      (∀ label ∈ link, isSafe label = true) → (∀ s ∈ segments, isSafe s = true) →
      List.Forall₂ (Spells (defaultLink link)) segments steps →
      ofSegments (root :: segments ++ [leafTag]) link = .ok ⟨⟨.any, root⟩ :: steps, leafTag⟩) ∧
    ∀ (segments : List String) (link : Option String),
      (ofSegments segments link = .error .noPathSpecified ↔ segments = []) ∧
      ((∃ label, ofSegments segments link = .error (.illegalTag label)) ↔
        segments ≠ [] ∧ ∃ label ∈ segments ++ link.toList, ∃ c ∈ label.toList, IsUnsafe c) ∧
      (∀ label, ofSegments segments link = .error (.illegalTag label) →
        (segments ++ link.toList).find? (fun label => !isSafe label) = some label) ∧
      ((∃ path, ofSegments segments link = .ok path) ↔
        segments ≠ [] ∧ ∀ label ∈ segments ++ link.toList, isSafe label = true) := by
  refine ⟨?_, fun root leafTag link segments steps => ofSegments_of_spells, ?_⟩
  · intro root leafTag link steps hroot hleaf hlink hsteps
    refine ofSegments_of_spells hroot hleaf hlink ?_ ?_
    · intro s hs
      obtain ⟨step, hstep, rfl⟩ := List.mem_map.1 hs
      exact isSafe_segment (hsteps step hstep)
    · rw [List.forall₂_map_left_iff, List.forall₂_same]
      exact fun step hstep => spells_segment (hsteps step hstep)
  · intro segments link
    simp only [← isSafe_eq_false_iff]
    rcases ofSegments_cases segments link with ⟨rfl, hread⟩ | ⟨hne, label, hfind, hread⟩ |
      ⟨hne, hall, path, hread⟩
    · simp [hread]
    · obtain ⟨hmem, hunsafe⟩ := unsafe_of_find? hfind
      refine ⟨by simp [hread, hne], ?_, ?_, ?_⟩
      · exact ⟨fun _ => ⟨hne, label, hmem, hunsafe⟩, fun _ => ⟨label, hread⟩⟩
      · intro other hother
        rw [hread] at hother
        cases hother
        exact hfind
      · constructor
        · rintro ⟨path, hpath⟩
          rw [hread] at hpath
          cases hpath
        · rintro ⟨-, hall⟩
          rw [hall label hmem] at hunsafe
          cases hunsafe
    · refine ⟨by simp [hread, hne], ?_, by simp [hread], ?_⟩
      · constructor
        · rintro ⟨label, hlabel⟩
          rw [hread] at hlabel
          cases hlabel
        · rintro ⟨-, label, hmem, hunsafe⟩
          rw [hall label hmem] at hunsafe
          cases hunsafe
      · exact ⟨fun _ => ⟨hne, hall⟩, fun _ => ⟨path, hread⟩⟩

/-- A root that looks like a link, a link with `-` in it and any link, and then, by the default
relation, two plain segments, one of them with nothing before its `-`. -/
theorem segments_read_hyphens :
    ofSegments ["a-b", "part-of-x", "*-room", "temp"] (some "in") =
      .ok ⟨[⟨.any, "a-b"⟩, ⟨.named "part-of", "x"⟩, ⟨.any, "room"⟩], "temp"⟩ ∧
    ofSegments ["a-b", "floor", "-3", "temp"] (some "in") =
      .ok ⟨[⟨.any, "a-b"⟩, ⟨.named "in", "floor"⟩, ⟨.named "in", "-3"⟩], "temp"⟩ := by
  obtain ⟨hwritten, hspelled, -⟩ := segments_read
  have hlink : ∀ label ∈ some "in", isSafe label = true := by decide
  have hx : TagStep.IsWritable ⟨.named "part-of", "x"⟩ :=
    ⟨by decide, by decide, by decide, fun label h => by cases h; decide⟩
  have hroom : TagStep.IsWritable ⟨.any, "room"⟩ := ⟨by decide, by decide, by decide, nofun⟩
  have hfloor : Spells (.named "in") "floor" ⟨.named "in", "floor"⟩ :=
    laterStep_eq_iff.1 (by decide)
  have hthree : Spells (.named "in") "-3" ⟨.named "in", "-3"⟩ := laterStep_eq_iff.1 (by decide)
  constructor
  · exact hwritten "a-b" "temp" (some "in") [⟨.named "part-of", "x"⟩, ⟨.any, "room"⟩] (by decide)
      (by decide) hlink (by simpa using ⟨hx, hroom⟩)
  · exact hspelled "a-b" "temp" (some "in") ["floor", "-3"] _ (by decide) (by decide) hlink
      (by decide) (.cons hfloor (.cons hthree .nil))

end TagPath

end Switchboard
