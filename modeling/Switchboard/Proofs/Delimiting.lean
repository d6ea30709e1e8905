import Mathlib.Data.List.Induction
import Switchboard.Proofs.Spelling

/-!
# Where an escaped text ends

A scanner that looks for the end of a quoted string only has to know one thing of escapes: a
backslash that is not escaped itself takes the next character with it, whatever that is. In an
escaped text every quote is taken in this way and no backslash is left over at the end. So the
scanner stops at the closing quote and nowhere else, whatever follows.

* `passes_escape`: the scanner gets through an escaped text and is at rest behind it.
* `passes_backslashes`: it waits behind an odd run of backslashes, and only there.
* `escape_delimits`: both together, with what a reader of JSON makes of the text.
-/

namespace Switchboard.Json

/-- Where a scanner of a quoted string is. -/
inductive ScanState
  /-- What comes next counts as it is. -/
  | plain
  /-- What comes next is taken by a backslash. -/
  | taken
  deriving DecidableEq

/-- Where the scanner is after a character that does not end the string. -/
def ScanState.next : ScanState → Char → ScanState
  | .plain, c => if c = '\\' then .taken else .plain
  | .taken, _ => .plain

/-- Scans a text that lies within a quoted string. `none` if the string ends in it. -/
def passes : ScanState → List Char → Option ScanState
  | p, [] => some p
  | p, c :: s => if p = .plain ∧ c = '"' then none else passes (p.next c) s

/-- Scans a quoted string from within. Gives what it still holds and what follows its end. -/
def scan : ScanState → List Char → Option (List Char × List Char)
  | _, [] => none
  | p, c :: s =>
    if p = .plain ∧ c = '"' then some ([], s)
    else (scan (p.next c) s).map fun r => (c :: r.1, r.2)

/-- Whether a text ends in a backslash that is not escaped: backslashes in a row escape each other
in pairs, from the first one on. -/
def EndsEscaping (s : List Char) : Prop := (s.reverse.takeWhile (· = '\\')).length % 2 = 1

instance (s : List Char) : Decidable (EndsEscaping s) :=
  inferInstanceAs (Decidable (_ = _))

variable {p q r : ScanState} {s t : List Char}

/-! ### Scanning in parts -/

@[simp]
theorem passes_nil (p : ScanState) : passes p [] = some p := rfl

theorem passes_cons (p : ScanState) (c : Char) (s : List Char) :
    passes p (c :: s) = if p = .plain ∧ c = '"' then none else passes (p.next c) s := rfl

theorem scan_cons (p : ScanState) (c : Char) (s : List Char) :
    scan p (c :: s) =
      if p = .plain ∧ c = '"' then some ([], s)
      else (scan (p.next c) s).map fun r => (c :: r.1, r.2) := rfl

theorem passes_append (h : passes p s = some q) (t : List Char) :
    passes p (s ++ t) = passes q t := by
  induction s generalizing p with
  | nil =>
    cases h
    rfl
  | cons c s ih =>
    rw [passes_cons] at h
    rw [List.cons_append, passes_cons]
    split at h
    · cases h
    · rename_i hc
      rw [if_neg hc]
      exact ih h

/-- What was got through in full was got through up to each of its places. -/
theorem passes_prefix (h : passes p (s ++ t) = some q) :
    ∃ r, passes p s = some r ∧ passes r t = some q := by
  induction s generalizing p with
  | nil => exact ⟨p, rfl, h⟩
  | cons c s ih =>
    rw [List.cons_append, passes_cons] at h
    rw [passes_cons]
    split at h
    · cases h
    · rename_i hc
      rw [if_neg hc]
      exact ih h

/-- A text that was got through is held by the string, up to its end. -/
theorem scan_append (h : passes p s = some q) (t : List Char) :
    scan p (s ++ t) = (scan q t).map fun r => (s ++ r.1, r.2) := by
  induction s generalizing p with
  | nil =>
    cases h
    simp
  | cons c s ih =>
    rw [passes_cons] at h
    rw [List.cons_append, scan_cons]
    split at h
    · cases h
    · rename_i hc
      rw [if_neg hc, ih h, Option.map_map]
      rfl

/-- A quote that was got through was taken. -/
theorem taken_of_passes_quote (h : passes r ('"' :: t) = some q) : r = .taken := by
  cases r with
  | taken => rfl
  | plain =>
    rw [passes_cons, if_pos ⟨rfl, rfl⟩] at h
    cases h

theorem endsEscaping_concat (s : List Char) (c : Char) :
    EndsEscaping (s ++ [c]) ↔ c = '\\' ∧ ¬ EndsEscaping s := by
  unfold EndsEscaping
  rw [List.reverse_append, List.reverse_singleton, List.singleton_append, List.takeWhile_cons]
  by_cases hc : c = '\\'
  · simp only [hc, decide_true, if_true, List.length_cons, true_and]
    omega
  · simp [hc]

/-- **The scanner waits behind an odd run of backslashes**, and only there. -/
theorem passes_backslashes (h : passes .plain s = some q) : q = .taken ↔ EndsEscaping s := by
  induction s using List.reverseRecOn generalizing q with
  | nil =>
    cases h
    decide
  | append_singleton s c ih =>
    obtain ⟨r, hs, hc⟩ := passes_prefix h
    rw [endsEscaping_concat, ← ih hs]
    cases r with
    | taken =>
      have hq : q = .plain := by simpa [passes_cons, ScanState.next] using hc.symm
      simp [hq]
    | plain =>
      by_cases hb : c = '\\'
      · subst hb
        have hq : q = .taken := by simpa [passes_cons, ScanState.next] using hc.symm
        simp [hq]
      · have hq : q = .plain := by
          rw [passes_cons] at hc
          split at hc
          · cases hc
          · simpa [passes_cons, ScanState.next, hb] using hc.symm
        simp [hq, hb]

/-! ### Escaped texts -/

theorem digit_visible {n : Nat} (h : n < 16) : 0x20 ≤ (Text.Hex.digit n).toNat ∧
    Text.Hex.digit n ≠ '"' ∧ Text.Hex.digit n ≠ '\\' := by
  have hall : ∀ m : Fin 16, 0x20 ≤ (Text.Hex.digit m.val).toNat ∧
    Text.Hex.digit m.val ≠ '"' ∧ Text.Hex.digit m.val ≠ '\\' := by decide
  exact hall ⟨n, h⟩

/-- Each written form of a character is got through, and the scanner is at rest behind it. -/
theorem passes_escapeChar (c : Char) : passes .plain (escapeChar lineLetters c) = some .plain := by
  unfold escapeChar
  split
  · rfl
  split
  · rfl
  rename_i hq hb
  split
  · rename_i hc
    split
    · simp [passes_cons, ScanState.next]
    · obtain ⟨-, hq1, hb1⟩ := digit_visible (n := c.toNat / 16) (by omega)
      obtain ⟨-, hq2, hb2⟩ := digit_visible (n := c.toNat % 16) (by omega)
      simp [passes_cons, ScanState.next, hq1, hb1, hq2, hb2]
  · simp [passes_cons, ScanState.next, hq, hb]

/-- **The scanner gets through an escaped text** and is at rest behind it. -/
theorem passes_escape (s : List Char) : passes .plain (escape s) = some .plain := by
  induction s with
  | nil => rfl
  | cons c s ih =>
    have hs : escape (c :: s) = escapeChar lineLetters c ++ escape s := List.flatMap_cons
    rw [hs, passes_append (passes_escapeChar c)]
    exact ih

theorem visible_lineLetters {c l : Char} (h : lineLetters c = some l) : 0x20 ≤ l.toNat := by
  unfold lineLetters at h
  split_ifs at h
  all_goals
    cases h
    decide

/-- No written form of a character has a control character below U+0020. -/
theorem not_control_of_mem_escapeChar {c d : Char} (h : d ∈ escapeChar lineLetters c) :
    ¬ d.toNat < 0x20 := by
  have hslash : 0x20 ≤ '\\'.toNat := by decide
  rw [Nat.not_lt]
  unfold escapeChar at h
  split at h
  · obtain rfl | rfl : d = '\\' ∨ d = '"' := by simpa using h
    · exact hslash
    · decide
  split at h
  · obtain rfl : d = '\\' := by simpa using h
    exact hslash
  split at h
  · split at h
    · rename_i l hl
      obtain rfl | rfl : d = '\\' ∨ d = l := by simpa using h
      · exact hslash
      · exact visible_lineLetters hl
    · obtain rfl | rfl | rfl | rfl | rfl : d = '\\' ∨ d = 'u' ∨ d = '0' ∨
          d = Text.Hex.digit (c.toNat / 16) ∨ d = Text.Hex.digit (c.toNat % 16) := by
        simpa using h
      · exact hslash
      · decide
      · decide
      · exact (digit_visible (by omega)).1
      · exact (digit_visible (by omega)).1
  · rename_i hc
    obtain rfl : d = c := by simpa using h
    exact Nat.not_lt.1 hc

theorem not_control_of_mem_escape {s : List Char} {c : Char} (h : c ∈ escape s) :
    ¬ c.toNat < 0x20 := by
  obtain ⟨d, -, hc⟩ := List.mem_flatMap.1 h
  exact not_control_of_mem_escapeChar hc

/-- The scanner stops at the closing quote of an escaped text. -/
theorem scan_escape (s t : List Char) : scan .plain (escape s ++ '"' :: t) = some (escape s, t) := by
  have hend : scan .plain ('"' :: t) = some ([], t) := by rw [scan_cons, if_pos ⟨rfl, rfl⟩]
  rw [scan_append (passes_escape s), hend, Option.map_some, List.append_nil]

/-- Every quote in an escaped text stands behind a backslash that is not escaped. -/
theorem endsEscaping_of_escape {s u v : List Char} (h : escape s = u ++ '"' :: v) :
    EndsEscaping u := by
  have hp : passes .plain (u ++ '"' :: v) = some .plain := h ▸ passes_escape s
  obtain ⟨r, hu, hv⟩ := passes_prefix hp
  exact (passes_backslashes hu).1 (taken_of_passes_quote hv)

/-- Texts with one escaped form are equal: one reader reads both of them. -/
theorem escape_injective : Function.Injective escape := by
  intro s t h
  have hs := readQuoted_escapeWith faithful_lineLetters s []
  have ht := readQuoted_escapeWith faithful_lineLetters t []
  change readQuoted (escape s ++ ['"']) = some (s, []) at hs
  change readQuoted (escape t ++ ['"']) = some (t, []) at ht
  rw [h, ht] at hs
  exact (Prod.mk.inj (Option.some.inj hs)).1.symm

/-- **An escaped text can be read back and shows where it ends.** Between quotes it is a JSON string
that stands for the text. It has no control character below U+0020, and each quote in it stands
behind a backslash that is not escaped. So a scanner that was started after the opening quote stops
exactly at the closing one, whatever follows, and a reader has the text by then. Texts that differ
have different escaped forms. -/
theorem escape_delimits (s : List Char) :
    read (quote s) = some (.string (some s)) ∧
    (∀ c ∈ escape s, ¬ c.toNat < 0x20) ∧
    (∀ u v, escape s = u ++ '"' :: v → EndsEscaping u) ∧
    (∀ t, scan .plain (escape s ++ '"' :: t) = some (escape s, t) ∧
      readQuoted (escape s ++ '"' :: t) = some (s, t)) ∧
    ∀ t, escape t = escape s → t = s := by
  refine ⟨(spells_quote s).read, fun c hc => not_control_of_mem_escape hc,
    fun u v h => endsEscaping_of_escape h, fun t => ⟨scan_escape s t, ?_⟩,
    fun t h => escape_injective h⟩
  exact readQuoted_escapeWith faithful_lineLetters s t

/-- A text of a backslash and a quote, with a backslash behind the closing quote: the run of three
backslashes in the escaped form ends in one that escapes. -/
theorem escape_delimits_backslashes :
    escape ['\\', '"'] = ['\\', '\\', '\\'] ++ '"' :: [] ∧ EndsEscaping ['\\', '\\', '\\'] ∧
    scan .plain (escape ['\\', '"'] ++ '"' :: ['\\']) = some (escape ['\\', '"'], ['\\']) := by
  obtain ⟨-, -, taken, stops, -⟩ := escape_delimits ['\\', '"']
  exact ⟨by decide, taken _ [] (by decide), (stops ['\\']).1⟩

end Switchboard.Json
