import Mathlib.Data.List.Forall2
import Switchboard.Proofs.Numeral

/-!
# Texts of JSON values

A text spells a value if the reader takes it for that value, wherever it stands in a text, and
stops behind it. Texts of larger values are put together from those of their parts, with commas
between them, and line feeds where they do not matter.

* `spells_number`, `spells_quote`, `spells_array`, `spells_object`: how texts are put together.
* `Spells.read`: a text that spells a value is read as that value.
-/

namespace Switchboard.Json

/-- **A text spells a value**: it is read as the value, to its end and no further, with two units
of fuel for each of its characters. -/
def Spells (w : List Char) (v : Json) : Prop :=
  ∀ n rest, 2 * w.length ≤ n → Clear rest → readValue n (w ++ rest) = some (v, rest)

variable {w rest g : List Char} {v : Json}

/-! ### White space -/

/-- The white space of the grammar. -/
def isSpace (c : Char) : Bool := c = ' ' || c = '\n' || c = '\t' || c = '\r'

theorem skipSpace_cons {c : Char} (h : isSpace c = false) (t : List Char) :
    skipSpace (c :: t) = c :: t :=
  List.dropWhile_cons_of_neg fun hc => by
    change isSpace c = true at hc
    rw [h] at hc
    cases hc

/-- Line feeds are white space. -/
theorem skipSpace_append (hg : ∀ c ∈ g, c = '\n') (s : List Char) :
    skipSpace (g ++ s) = skipSpace s := by
  refine List.dropWhile_append_of_pos fun c hc => ?_
  rw [hg c hc]
  decide

theorem isSpace_of_isDigit {c : Char} (h : c.isDigit = true) : isSpace c = false := by
  cases hs : isSpace c with
  | false => rfl
  | true =>
    obtain rfl | rfl | rfl | rfl : c = ' ' ∨ c = '\n' ∨ c = '\t' ∨ c = '\r' := by
      simpa [isSpace, or_assoc] using hs
    all_goals exact absurd h (by decide)

/-- White space in front of a value makes no difference. -/
theorem readValue_congr {s t : List Char} (h : skipSpace s = skipSpace t) (n : Nat) :
    readValue n s = readValue n t := by
  cases n with
  | zero => rfl
  | succ n => rw [readValue, h, ← readValue]

/-- Line feeds may stand in front of a value. -/
theorem Spells.append_left (h : Spells w v) (hg : ∀ c ∈ g, c = '\n') : Spells (g ++ w) v := by
  intro n rest hn hr
  rw [List.length_append] at hn
  rw [List.append_assoc, readValue_congr (skipSpace_append hg _)]
  exact h n rest (by omega) hr

/-- No value starts with what ends an array or an object. -/
theorem Spells.ne_close (h : Spells w v) (hr : Clear rest) {c : Char}
    (hc : c = ']' ∨ c = '\x7d') (t : List Char) : skipSpace (w ++ rest) ≠ c :: t := by
  intro he
  have hw := h (2 * w.length + 1) rest (Nat.le_succ _) hr
  have hs : skipSpace (c :: t) = c :: t := by
    rcases hc with rfl | rfl <;> exact skipSpace_cons (by decide) t
  rw [readValue_congr (he.trans hs.symm)] at hw
  rcases hc with rfl | rfl <;> cases hw

/-! ### What a text starts with -/

theorem readValue_quote (n : Nat) (r : List Char) : readValue (n + 1) ('"' :: r) =
    (readPieces r).map fun p => (.string (joinPieces p.1), p.2) := rfl

theorem readValue_bracket (n : Nat) (r : List Char) : readValue (n + 1) ('[' :: r) =
    match skipSpace r with
    | ']' :: t => some (.array [], t)
    | _ => (readItems n r).map fun p => (.array p.1, p.2) := rfl

theorem readValue_brace (n : Nat) (r : List Char) : readValue (n + 1) ('\x7b' :: r) =
    match skipSpace r with
    | '\x7d' :: t => some (.object [], t)
    | _ => (readMembers n r).map fun p => (.object p.1, p.2) := rfl

section Items

variable {n : Nat} {s t r : List Char}

/-- What is read after an item: more items behind a comma, or the closing bracket. -/
def afterItem (n : Nat) (v : Json) : List Char → Option (List Json × List Char)
  | ',' :: t => (readItems n t).map fun p => (v :: p.1, p.2)
  | ']' :: t => some ([v], t)
  | _ => none

theorem readItems_item (h : readValue n s = some (v, r)) :
    readItems (n + 1) s = afterItem n v (skipSpace r) := by
  rw [readItems, h]
  rfl

theorem readItems_comma (h : readValue n s = some (v, r)) (hs : skipSpace r = ',' :: t) :
    readItems (n + 1) s = (readItems n t).map fun p => (v :: p.1, p.2) := by
  rw [readItems_item h, hs]
  rfl

theorem readItems_close (h : readValue n s = some (v, r)) (hs : skipSpace r = ']' :: t) :
    readItems (n + 1) s = some ([v], t) := by
  rw [readItems_item h, hs]
  rfl

end Items

/-! ### Values without parts -/

theorem readValue_number {c : Char} (hc : c.isDigit = true ∨ c = '-') (n : Nat) (t : List Char) :
    readValue (n + 1) (c :: t) =
      (readNumber (c :: t)).map fun p => (.number p.1, p.2) := by
  have hs : isSpace c = false := by
    rcases hc with hc | rfl
    · exact isSpace_of_isDigit hc
    · decide
  rw [readValue, skipSpace_cons hs]
  -- no other value starts with a digit or a minus sign
  split
  all_goals first
    | rfl
    | (rename_i heq
       obtain ⟨rfl, -⟩ := List.cons.inj heq
       exfalso
       revert hc
       decide)

/-- **A number spells itself.** -/
theorem spells_number (hw : IsNumber w) : Spells w (.number w) := by
  intro n rest hn hr
  have hread := readNumber_append hw hr
  obtain ⟨c, t, rfl, hc⟩ := hw.head
  rw [List.length_cons] at hn
  obtain ⟨m, rfl⟩ : ∃ m, n = m + 1 := ⟨n - 1, by omega⟩
  rw [List.cons_append] at hread ⊢
  rw [readValue_number hc, hread]
  rfl

theorem readPieces_escape (s t : List Char) :
    readPieces (escape s ++ '"' :: t) = some (s.map (pieceOf lineLetters), t) :=
  readPieces_escapeWith faithful_lineLetters s t

theorem quote_append (s t : List Char) : quote s ++ t = '"' :: (escape s ++ '"' :: t) := by
  rw [quote, List.append_assoc]
  rfl

/-- **A quoted text spells the text.** -/
theorem spells_quote (s : List Char) : Spells (quote s) (.string (some s)) := by
  intro n rest hn _
  rw [quote, List.length_append, List.length_cons] at hn
  obtain ⟨m, rfl⟩ : ∃ m, n = m + 1 := ⟨n - 1, by omega⟩
  rw [quote_append, readValue_quote, readPieces_escape, Option.map_some, joinPieces_map_pieceOf]

/-! ### Arrays -/

theorem clear_comma (t : List Char) : Clear (',' :: t) := by
  intro c hc
  cases hc
  decide

/-- Line feeds and a closing bracket or brace may stand behind a value. -/
theorem clear_close (hg : ∀ c ∈ g, c = '\n') {c : Char} (hc : c = ']' ∨ c = '\x7d')
    (t : List Char) : Clear (g ++ c :: t) := by
  intro d hd
  cases g with
  | nil =>
    cases hd
    rcases hc with rfl | rfl <;> decide
  | cons e g =>
    cases hd
    rw [hg d List.mem_cons_self]
    decide

/-- The items of an array, one or more, and its closing bracket. -/
theorem readItems_append {ws : List (List Char)} {vs : List Json} (h : List.Forall₂ Spells ws vs)
    (hne : ws ≠ []) (hg : ∀ c ∈ g, c = '\n') {n : Nat}
    (hn : 2 * (Text.join [','] ws).length < n) (rest : List Char) :
    readItems n (Text.join [','] ws ++ (g ++ ']' :: rest)) = some (vs, rest) := by
  induction h generalizing n with
  | nil => exact absurd rfl hne
  | @cons w v ws vs hw hrest ih =>
    obtain ⟨m, rfl⟩ : ∃ m, n = m + 1 := ⟨n - 1, by omega⟩
    cases hrest with
    | nil =>
      rw [Text.join] at hn ⊢
      refine readItems_close (hw m _ (by omega) (clear_close hg (.inl rfl) rest)) ?_
      rw [skipSpace_append hg, skipSpace_cons (by decide)]
    | @cons x y ws vs hx hxs =>
      rw [Text.join, List.length_append, List.length_append, List.length_singleton] at hn
      rw [Text.join, List.append_assoc, List.append_assoc, List.singleton_append,
        readItems_comma (hw m _ (by omega) (clear_comma _)) (skipSpace_cons (by decide) _),
        ih (List.cons_ne_nil _ _) (by omega)]
      rfl

/-- **An array is spelled by its items** in brackets, with commas between them. -/
theorem spells_array {ws : List (List Char)} {vs : List Json} (h : List.Forall₂ Spells ws vs)
    (hg : ∀ c ∈ g, c = '\n') :
    Spells ('[' :: (Text.join [','] ws ++ (g ++ [']']))) (.array vs) := by
  intro n rest hn hr
  rw [List.length_cons, List.length_append, List.length_append, List.length_singleton] at hn
  obtain ⟨m, rfl⟩ : ∃ m, n = m + 1 := ⟨n - 1, by omega⟩
  rw [List.cons_append, List.append_assoc, List.append_assoc, List.singleton_append,
    readValue_bracket]
  cases h with
  | nil =>
    rw [Text.join, List.nil_append, skipSpace_append hg, skipSpace_cons (by decide)]
    rfl
  | @cons w v ws vs hw hrest =>
    have hread := readItems_append (.cons hw hrest) (List.cons_ne_nil _ _) hg (n := m) (by omega)
      rest
    -- the first item is no closing bracket
    have hfirst : ∀ t, skipSpace (Text.join [','] (w :: ws) ++ (g ++ ']' :: rest)) ≠
        ']' :: t := by
      intro t
      cases ws with
      | nil => exact hw.ne_close (clear_close hg (.inl rfl) rest) (.inl rfl) t
      | cons x ws =>
        rw [Text.join, List.append_assoc, List.append_assoc]
        exact hw.ne_close (clear_comma _) (.inl rfl) t
    split
    · exact absurd ‹_› (hfirst _)
    · rw [hread]
      rfl

/-! ### Objects -/

/-- The text of a member: its name and the text of its value. -/
def memberText (m : List Char × List Char) : List Char := quote m.1 ++ ':' :: m.2

/-- A member with the text of its value, and what it is read as. -/
def SpellsMember (m : List Char × List Char) (v : Option (List Char) × Json) : Prop :=
  v.1 = some m.1 ∧ Spells m.2 v.2

theorem length_lt_memberText (m : List Char × List Char) : m.2.length < (memberText m).length := by
  rw [memberText, List.length_append, List.length_cons]
  omega

section Members

variable {m : List Char × List Char} {x : Option (List Char) × Json} {n : Nat} {t : List Char}

/-- What is read after a member: more members behind a comma, or the closing brace. -/
def afterMember (n : Nat) (x : Option (List Char) × Json) :
    List Char → Option (List (Option (List Char) × Json) × List Char)
  | ',' :: t => (readMembers n t).map fun p => (x :: p.1, p.2)
  | '\x7d' :: t => some ([x], t)
  | _ => none

theorem readMembers_member (h : SpellsMember m x) (hn : 2 * m.2.length ≤ n) (hr : Clear rest) :
    readMembers (n + 1) (memberText m ++ rest) = afterMember n x (skipSpace rest) := by
  obtain ⟨key, w⟩ := m
  obtain ⟨name, v⟩ := x
  obtain ⟨hname, hw⟩ := h
  change name = some key at hname
  change 2 * w.length ≤ n at hn
  have hread := hw n rest hn hr
  have hs : skipSpace ('"' :: (escape key ++ '"' :: ':' :: (w ++ rest))) =
      '"' :: (escape key ++ '"' :: ':' :: (w ++ rest)) := skipSpace_cons (by decide) _
  have hc : skipSpace (':' :: (w ++ rest)) = ':' :: (w ++ rest) := skipSpace_cons (by decide) _
  rw [memberText, List.append_assoc, List.cons_append, quote_append, readMembers, hs]
  simp only [readPieces_escape, hc, hread, joinPieces_map_pieceOf, hname]
  rfl

theorem readMembers_comma (h : SpellsMember m x) (hn : 2 * m.2.length ≤ n) (t : List Char) :
    readMembers (n + 1) (memberText m ++ ',' :: t) =
      (readMembers n t).map fun p => (x :: p.1, p.2) := by
  rw [readMembers_member h hn (clear_comma t), skipSpace_cons (by decide)]
  rfl

theorem readMembers_close (h : SpellsMember m x) (hn : 2 * m.2.length ≤ n) (t : List Char) :
    readMembers (n + 1) (memberText m ++ '\x7d' :: t) = some ([x], t) := by
  have hclear : Clear ('\x7d' :: t) :=
    clear_close (g := []) (fun _ hc => nomatch hc) (.inr rfl) t
  rw [readMembers_member h hn hclear, skipSpace_cons (by decide)]
  rfl

end Members

/-- The members of an object, one or more, and its closing brace. -/
theorem readMembers_append {ms : List (List Char × List Char)}
    {vs : List (Option (List Char) × Json)} (h : List.Forall₂ SpellsMember ms vs) (hne : ms ≠ [])
    {n : Nat} (hn : 2 * (Text.join [','] (ms.map memberText)).length < n) (rest : List Char) :
    readMembers n (Text.join [','] (ms.map memberText) ++ '\x7d' :: rest) = some (vs, rest) := by
  induction h generalizing n with
  | nil => exact absurd rfl hne
  | @cons m v ms vs hm hrest ih =>
    obtain ⟨k, rfl⟩ : ∃ k, n = k + 1 := ⟨n - 1, by omega⟩
    have hlen := length_lt_memberText m
    cases hrest with
    | nil =>
      rw [List.map_cons, List.map_nil, Text.join] at hn ⊢
      exact readMembers_close hm (by omega) rest
    | @cons x y ms vs hx hxs =>
      have hmembers := ih (List.cons_ne_nil _ _) (n := k)
      rw [List.map_cons] at hmembers
      rw [List.map_cons, List.map_cons, Text.join, List.length_append, List.length_append,
        List.length_singleton] at hn
      rw [List.map_cons, List.map_cons, Text.join, List.append_assoc, List.append_assoc,
        List.singleton_append, readMembers_comma hm (by omega), hmembers (by omega)]
      rfl

/-- **An object is spelled by its members** in braces, with commas between them. -/
theorem spells_object {ms : List (List Char × List Char)} {vs : List (Option (List Char) × Json)}
    (h : List.Forall₂ SpellsMember ms vs) (hne : ms ≠ []) :
    Spells ('\x7b' :: (Text.join [','] (ms.map memberText) ++ ['\x7d'])) (.object vs) := by
  intro n rest hn hr
  rw [List.length_cons, List.length_append, List.length_singleton] at hn
  obtain ⟨m, rfl⟩ : ∃ m, n = m + 1 := ⟨n - 1, by omega⟩
  have hread := readMembers_append h hne (n := m) (by omega) rest
  rw [List.cons_append, List.append_assoc, List.singleton_append, readValue_brace]
  -- the first member starts with a quote
  obtain ⟨t, ht⟩ : ∃ t, Text.join [','] (ms.map memberText) ++ '\x7d' :: rest = '"' :: t := by
    cases ms with
    | nil => exact absurd rfl hne
    | cons m ms =>
      cases ms with
      | nil =>
        rw [List.map_cons, List.map_nil, Text.join, memberText, List.append_assoc, quote_append]
        exact ⟨_, rfl⟩
      | cons x ms =>
        rw [List.map_cons, List.map_cons, Text.join, memberText, List.append_assoc,
          List.append_assoc, List.append_assoc, quote_append]
        exact ⟨_, rfl⟩
  rw [ht] at hread ⊢
  rw [skipSpace_cons (by decide), hread]
  rfl

/-! ### Whole texts -/

/-- **A text that spells a value is read as that value.** -/
theorem Spells.read (h : Spells w v) : read w = some v := by
  have hw := h (2 * w.length + 2) [] (Nat.le_add_right _ 2) (fun c hc => nomatch hc)
  rw [List.append_nil] at hw
  rw [Json.read, hw]
  rfl

end Switchboard.Json
