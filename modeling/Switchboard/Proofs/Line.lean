import Switchboard.Proofs.Post

/-!
# Published texts are lines

Whatever the names of a hub and its leaves and whatever their values, a published text has no line
feed and ends in a brace. So it is one line of a file, and reading the file gives it back.

* `render_isLine`: a published text is a line.
-/

namespace Switchboard

/-! ### Numbers -/

namespace Decimal

theorem isDigit_of_mem_digits {n : Nat} {c : Char} (h : c ∈ digits n) : c.isDigit = true :=
  Nat.isDigit_of_mem_toDigits (by decide) (by decide) h

/-- An integer is written with digits and a sign. -/
theorem mem_text {i : Int} {c : Char} (h : c ∈ text i) : c.isDigit = true ∨ c = '-' := by
  unfold text at h
  split at h
  · rcases List.mem_cons.1 h with rfl | h
    · exact .inr rfl
    · exact .inl (isDigit_of_mem_digits h)
  · exact .inl (isDigit_of_mem_digits h)

/-- A decimal is written with digits and a point. -/
theorem mem_scaledText {d : Scaled} {c : Char} (h : c ∈ d.text) : c.isDigit = true ∨ c = '.' := by
  have hzero : ∀ n, c ∈ List.replicate n '0' → c.isDigit = true := by
    intro n hc
    rw [List.eq_of_mem_replicate hc]
    decide
  have hpad : ∀ n, c ∈ List.replicate n '0' ++ digits d.digits → c.isDigit = true := by
    intro n hc
    rcases List.mem_append.1 hc with hc | hc
    · exact hzero n hc
    · exact isDigit_of_mem_digits hc
  unfold Scaled.text at h
  dsimp only at h
  split at h
  · rcases List.mem_append.1 h with h | h
    · exact .inl (isDigit_of_mem_digits h)
    · exact .inl (hzero _ h)
  · split at h
    · exact .inl (hpad _ (List.mem_of_mem_take h))
    · rcases List.mem_append.1 h with h | h
      · exact .inl (hpad _ (List.mem_of_mem_take h))
      · rcases List.mem_cons.1 h with rfl | h
        · exact .inr rfl
        · rw [List.mem_reverse] at h
          have hd := List.mem_reverse.1 ((List.dropWhile_sublist _).mem h)
          exact .inl (hpad _ (List.mem_of_mem_drop hd))

/-- The characters of numbers that are no digits. -/
def signs : List Char := ['-', '.', 'N', 'a', 'i', 'n', 'f']

theorem mem_binary64 {x : Binary64} {c : Char} (h : c ∈ x.text) : c.isDigit = true ∨ c ∈ signs := by
  have hmag : ∀ m q, c ∈ (if m = 0 then ['0'] else (Binary64.shortest m q).text) →
      c.isDigit = true ∨ c ∈ signs := by
    intro m q hc
    split at hc
    · rw [List.mem_singleton.1 hc]
      exact .inl (by decide)
    · rcases mem_scaledText hc with hc | rfl
      · exact .inl hc
      · exact .inr (by decide)
  cases x with
  | nan =>
    have hn : "NaN".toList.all (· ∈ signs) = true := by decide
    exact .inr (of_decide_eq_true (List.all_eq_true.1 hn c h))
  | infinite negative =>
    have hi : (if negative then "-inf".toList else "inf".toList).all (· ∈ signs) = true := by
      cases negative <;> decide
    exact .inr (of_decide_eq_true (List.all_eq_true.1 hi c h))
  | finite negative m q =>
    unfold Binary64.text at h
    dsimp only at h
    split at h
    · rcases List.mem_cons.1 h with rfl | h
      · exact .inr (by decide)
      · exact hmag m q h
    · exact hmag m q h

end Decimal

/-! ### Texts -/

theorem Json.feed_not_mem_quote (s : List Char) : '\n' ∉ Json.quote s := by
  have hdigit : ∀ n, n < 16 → Text.Hex.digit n ≠ '\n' := by
    intro n hn
    have : ∀ m : Fin 16, Text.Hex.digit m.val ≠ '\n' := by decide
    exact this ⟨n, hn⟩
  have hchar : ∀ c : Char, '\n' ∉ escapeChar lineLetters c := by
    intro c
    unfold escapeChar
    split
    · decide
    · split
      · decide
      · split
        · rename_i hc
          split
          · rename_i l hl
            unfold lineLetters at hl
            repeat' split at hl
            all_goals first
              | (cases hl; decide)
              | cases hl
          · have h1 := hdigit (c.toNat / 16) (by omega)
            have h2 := hdigit (c.toNat % 16) (by omega)
            simp [h1.symm, h2.symm]
        · rename_i hc
          intro h
          rw [← List.mem_singleton.1 h] at hc
          exact hc (by decide)
  intro h
  rw [Json.quote, List.cons_append, List.mem_cons, List.mem_append, List.mem_singleton] at h
  rcases h with h | h | h
  · revert h
    decide
  · rw [escape, escapeWith, List.mem_flatMap] at h
    obtain ⟨c, -, hc⟩ := h
    exact hchar c hc
  · revert h
    decide

/-- The characters of a number. -/
theorem Number.mem_text {n : Number} {c : Char} (h : c ∈ n.text) :
    c.isDigit = true ∨ c ∈ Decimal.signs := by
  cases n with
  | int i =>
    rcases Decimal.mem_text h with h | rfl
    · exact .inl h
    · exact .inr (by decide)
  | uint n => exact .inl (Decimal.isDigit_of_mem_digits h)
  | float x => exact Decimal.mem_binary64 h

theorem Number.feed_not_mem_text (n : Number) : '\n' ∉ n.text := by
  intro h
  rcases n.mem_text h with h | h <;> revert h <;> decide

theorem Literal.feed_not_mem_json (l : Literal) : '\n' ∉ l.json := by
  unfold Literal.json
  split
  · exact Number.feed_not_mem_text _
  · exact Json.feed_not_mem_quote _

theorem Text.mem_join {sep : List Char} {ss : List (List Char)} {c : Char}
    (h : c ∈ Text.join sep ss) : c ∈ sep ∨ ∃ s ∈ ss, c ∈ s := by
  induction ss with
  | nil => cases h
  | cons s ss ih =>
    cases ss with
    | nil => exact .inr ⟨s, List.mem_cons_self, h⟩
    | cons t ts =>
      rw [Text.join, List.mem_append, List.mem_append] at h
      rcases h with (h | h) | h
      · exact .inr ⟨s, List.mem_cons_self, h⟩
      · exact .inl h
      · rcases ih h with h | ⟨u, hu, h⟩
        · exact .inl h
        · exact .inr ⟨u, List.mem_cons_of_mem s hu, h⟩

namespace LeafTable

theorem feed_not_mem_valuesText (array : Bool) (vs : List Literal) :
    '\n' ∉ valuesText array vs := by
  have hitems : '\n' ∉ Text.join [','] (vs.map Literal.json) := by
    intro h
    rcases Text.mem_join h with h | ⟨s, hs, h⟩
    · revert h
      decide
    · obtain ⟨l, -, rfl⟩ := List.mem_map.1 hs
      exact Literal.feed_not_mem_json l h
  unfold valuesText
  dsimp only
  split
  · intro h
    rw [List.cons_append, List.mem_cons, List.mem_append, List.mem_singleton] at h
    rcases h with h | h | h
    · revert h
      decide
    · exact hitems h
    · revert h
      decide
  · exact hitems

/-- **A rendered text has no line feed and ends in a brace.** -/
theorem render_line (t : LeafTable) (leafOf : LeafId → Leaf) (s : Snapshot) :
    '\n' ∉ t.render leafOf s ∧ (t.render leafOf s).getLast? = some '\x7d' := by
  refine ⟨fun h => ?_, ?_⟩
  · rw [render, List.cons_append, List.mem_cons, List.mem_append, List.mem_singleton] at h
    rcases h with h | h | h
    · revert h
      decide
    · rcases Text.mem_join h with h | ⟨e, he, h⟩
      · revert h
        decide
      · obtain ⟨⟨key, array, vs⟩, -, rfl⟩ := List.mem_map.1 he
        rw [entryText, List.mem_append, List.mem_cons] at h
        rcases h with h | h | h
        · exact Json.feed_not_mem_quote _ h
        · revert h
          decide
        · exact feed_not_mem_valuesText array vs h
    · revert h
      decide
  · exact List.getLast?_concat

end LeafTable

namespace Board

/-- **A published text is a line**, whatever the names and the values. -/
theorem render_isLine (b : Board) (h : HubId) (s : Snapshot) : Lines.IsLine (b.render h s) := by
  obtain ⟨hfeed, hlast⟩ := (b.hub h).table.render_line b.leaf s
  refine ⟨?_, ?_⟩
  · rw [render, String.toList_ofList]
    exact hfeed
  · rw [render, String.toList_ofList, hlast]
    decide

end Board

end Switchboard
