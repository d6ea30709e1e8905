/-!
# Fields of a text

Cutting a text at a separating character: into all its fields, or in two at the first or the
last separator.

* `cutFirst_eq_some`: the parts and the separator give the text back, and the first part holds
  no separator.
-/

namespace Switchboard.Text

/-- The fields between the separators, one more than there are separators. -/
def fields (sep : Char) : List Char → List (List Char)
  | [] => [[]]
  | c :: s =>
    if c = sep then [] :: fields sep s
    else match fields sep s with
      | [] => [[c]]
      | f :: fs => (c :: f) :: fs

/-- The parts before and after the first separator, if there is one. -/
def cutFirst (sep : Char) : List Char → Option (List Char × List Char)
  | [] => none
  | c :: s => if c = sep then some ([], s) else (cutFirst sep s).map fun p => (c :: p.1, p.2)

/-- The parts before and after the last separator, if there is one. -/
def cutLast (sep : Char) (s : List Char) : Option (List Char × List Char) :=
  (cutFirst sep s.reverse).map fun p => (p.2.reverse, p.1.reverse)

/-- The rest of `s` after `lead`, if `s` starts with it. -/
def after? : (lead s : List Char) → Option (List Char)
  | [], s => some s
  | _ :: _, [] => none
  | c :: lead, d :: s => if c = d then after? lead s else none

/-- Texts with `sep` between each two. -/
def join (sep : List Char) : List (List Char) → List Char
  | [] => []
  | [s] => s
  | s :: t :: ts => s ++ sep ++ join sep (t :: ts)

theorem fields_of_not_mem {sep : Char} {s : List Char} (h : sep ∉ s) : fields sep s = [s] := by
  induction s with
  | nil => rfl
  | cons c s ih =>
    have hc : c ≠ sep := fun hc => h (hc ▸ List.mem_cons_self)
    simp [fields, hc, ih fun hs => h (List.mem_cons_of_mem c hs)]

theorem fields_append_cons {sep : Char} {s : List Char} (h : sep ∉ s) (t : List Char) :
    fields sep (s ++ sep :: t) = s :: fields sep t := by
  induction s with
  | nil => simp [fields]
  | cons c s ih =>
    have hc : c ≠ sep := fun hc => h (hc ▸ List.mem_cons_self)
    rw [List.cons_append, fields, if_neg hc, ih fun hs => h (List.mem_cons_of_mem c hs)]

theorem cutFirst_eq_some {sep : Char} {s a b : List Char} :
    cutFirst sep s = some (a, b) ↔ s = a ++ sep :: b ∧ sep ∉ a := by
  induction s generalizing a with
  | nil => simp [cutFirst]
  | cons c s ih =>
    by_cases hc : c = sep
    · subst hc
      rw [cutFirst, if_pos rfl]
      constructor
      · intro h; cases h; simp
      · rintro ⟨h, ha⟩
        cases a with
        | nil => simp at h; simp [h]
        | cons d a => simp at h; exact absurd (h.1 ▸ List.mem_cons_self) ha
    · rw [cutFirst, if_neg hc, Option.map_eq_some_iff]
      constructor
      · rintro ⟨⟨x, y⟩, h, he⟩
        cases he
        obtain ⟨hs, hx⟩ := ih.1 h
        exact ⟨by simp [hs], by simp [hx, Ne.symm hc]⟩
      · rintro ⟨h, ha⟩
        cases a with
        | nil => simp at h; exact absurd h.1 hc
        | cons d a =>
          simp at h ha
          obtain ⟨rfl, hs⟩ := h
          exact ⟨(a, b), ih.2 ⟨hs, ha.2⟩, rfl⟩

theorem cutFirst_eq_none {sep : Char} {s : List Char} : cutFirst sep s = none ↔ sep ∉ s := by
  induction s with
  | nil => simp [cutFirst]
  | cons c s ih =>
    by_cases hc : c = sep
    · simp [cutFirst, hc]
    · simp [cutFirst, hc, ih, Ne.symm hc]

theorem cutLast_eq_some {sep : Char} {s a b : List Char} :
    cutLast sep s = some (a, b) ↔ s = a ++ sep :: b ∧ sep ∉ b := by
  rw [cutLast, Option.map_eq_some_iff]
  constructor
  · rintro ⟨⟨x, y⟩, h, he⟩
    cases he
    obtain ⟨hs, hx⟩ := cutFirst_eq_some.1 h
    have := congrArg List.reverse hs
    exact ⟨by simpa using this, by simpa using hx⟩
  · rintro ⟨rfl, hb⟩
    exact ⟨(b.reverse, a.reverse), cutFirst_eq_some.2 ⟨by simp, by simpa using hb⟩, by simp⟩

theorem after?_eq_some {lead s t : List Char} : after? lead s = some t ↔ s = lead ++ t := by
  induction lead generalizing s with
  | nil => simp [after?]
  | cons c lead ih =>
    cases s with
    | nil => simp [after?]
    | cons d s =>
      by_cases h : c = d
      · simp [after?, h, ih]
      · simp [after?, h, Ne.symm h]

@[simp] theorem after?_append (lead t : List Char) : after? lead (lead ++ t) = some t :=
  after?_eq_some.2 rfl

end Switchboard.Text
