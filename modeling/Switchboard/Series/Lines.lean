import Switchboard.Text.Utf8

/-!
# Lines of a file

A line ends at a line feed. One carriage return before the line feed does not belong to it. What
follows the last line feed is a line too, unless it is empty. A line that is not well-formed
UTF-8 ends the reading.

* `read_writes`: lines that were written one after the other are read back.
-/

namespace Switchboard.Lines

/-- The bytes up to and without each line feed, and whether there was one. -/
def cut : List UInt8 → List (List UInt8 × Bool)
  | [] => []
  | b :: bs =>
    if b = 10 then ([], true) :: cut bs
    else match cut bs with
      | [] => [([b], false)]
      | (l, ended) :: ls => (b :: l, ended) :: ls

/-- A line without the carriage return before its line feed. -/
def dropReturn : List UInt8 × Bool → List UInt8
  | (l, true) => if l.getLast? = some 13 then l.dropLast else l
  | (l, false) => l

/-- The texts of lines up to the first that is malformed. -/
def decodeWhile : List (List UInt8) → List String
  | [] => []
  | l :: ls =>
    match Text.Utf8.decode? l with
    | some s => String.ofList s :: decodeWhile ls
    | none => []

/-- The lines of a file. -/
def read (bytes : List UInt8) : List String := decodeWhile ((cut bytes).map dropReturn)

/-- The bytes of a written line. -/
def write (line : String) : List UInt8 := Text.Utf8.encode line.toList ++ [10]

/-! ### Reading what was written -/

open Text.Utf8

/-- A file of complete lines: a text that is empty or ends in a line feed. -/
def Complete (bytes : List UInt8) : Prop :=
  ∃ text, bytes = encode text ∧ (text = [] ∨ text.getLast? = some '\n')

/-- A text that can be a line: it has no line feed and does not end in a carriage return. -/
def IsLine (line : String) : Prop :=
  '\n' ∉ line.toList ∧ line.toList.getLast? ≠ some '\r'

theorem cut_feed (bs : List UInt8) : cut (10 :: bs) = ([], true) :: cut bs := by
  rw [cut, if_pos rfl]

theorem cut_cons_of_ne {b : UInt8} (h : b ≠ 10) (bs : List UInt8) :
    cut (b :: bs) = match cut bs with
      | [] => [([b], false)]
      | (l, ended) :: ls => (b :: l, ended) :: ls := by
  rw [cut, if_neg h]

theorem cut_ne_nil {bs : List UInt8} (h : bs ≠ []) : cut bs ≠ [] := by
  cases bs with
  | nil => exact absurd rfl h
  | cons b bs =>
    rw [cut]
    split
    · exact List.cons_ne_nil _ _
    · split <;> exact List.cons_ne_nil _ _

/-- **What follows complete lines is cut by itself.** -/
theorem cut_append {bs : List UInt8} (h : bs = [] ∨ bs.getLast? = some 10) (cs : List UInt8) :
    cut (bs ++ cs) = cut bs ++ cut cs := by
  induction bs with
  | nil => rfl
  | cons b bs ih =>
    have hl : (b :: bs).getLast? = some 10 := h.resolve_left (List.cons_ne_nil _ _)
    by_cases hb : b = 10
    · have hbs : bs = [] ∨ bs.getLast? = some 10 := by
        cases bs with
        | nil => exact .inl rfl
        | cons c bs => exact .inr (by rwa [List.getLast?_cons_cons] at hl)
      rw [hb, List.cons_append, cut_feed, cut_feed, ih hbs, List.cons_append]
    · cases bs with
      | nil =>
        rw [List.getLast?_singleton, Option.some.injEq] at hl
        exact absurd hl hb
      | cons c bs =>
        rw [List.getLast?_cons_cons] at hl
        rw [List.cons_append, cut_cons_of_ne hb, cut_cons_of_ne hb, ih (.inr hl)]
        cases hc : cut (c :: bs) with
        | nil => exact absurd hc (cut_ne_nil (List.cons_ne_nil _ _))
        | cons l ls => rfl

/-- A line is cut at its line feed. -/
theorem cut_line {l : List UInt8} (h : 10 ∉ l) : cut (l ++ [10]) = [(l, true)] := by
  induction l with
  | nil => rfl
  | cons b l ih =>
    rw [List.mem_cons, not_or] at h
    rw [List.cons_append, cut_cons_of_ne (Ne.symm h.1), ih h.2]

theorem decodeWhile_append {ls : List (List UInt8)} (h : ∀ l ∈ ls, ∃ s, decode? l = some s)
    (ms : List (List UInt8)) : decodeWhile (ls ++ ms) = decodeWhile ls ++ decodeWhile ms := by
  induction ls with
  | nil => rfl
  | cons l ls ih =>
    obtain ⟨s, hs⟩ := h l List.mem_cons_self
    rw [List.cons_append, decodeWhile, decodeWhile, hs]
    dsimp only
    rw [ih fun m hm => h m (List.mem_cons_of_mem l hm), List.cons_append]

/-- A byte of a text below 0x80 is a character of the text. -/
theorem mem_of_byte_mem {s : List Char} {b : UInt8} (hb : b ∈ encode s) (h : b.toNat < 0x80) :
    ∃ c ∈ s, c.toNat = b.toNat := by
  rw [encode, List.mem_flatMap] at hb
  obtain ⟨c, hc, hb⟩ := hb
  exact ⟨c, hc, (eq_of_mem_utf8EncodeChar hb h).1⟩

theorem feed_not_mem_encode {s : List Char} (h : '\n' ∉ s) : 10 ∉ encode s := by
  intro hb
  obtain ⟨c, hc, he⟩ := mem_of_byte_mem hb (by decide)
  have : c = '\n' := Char.toNat_inj.1 he
  exact h (this ▸ hc)

/-- The last byte of a text, if it is below 0x80, is its last character. -/
theorem getLast?_encode {s : List Char} {b : UInt8} (h : b.toNat < 0x80)
    (hl : (encode s).getLast? = some b) :
    ∃ t c, s = t ++ [c] ∧ c.toNat = b.toNat ∧ (encode s).dropLast = encode t := by
  rcases List.eq_nil_or_concat s with rfl | ⟨t, c, rfl⟩
  · cases hl
  · have he : encode (t ++ [c]) = encode t ++ String.utf8EncodeChar c := by
      rw [encode_append]
      simp [encode]
    have hne : String.utf8EncodeChar c ≠ [] := String.utf8EncodeChar_ne_nil
    have hlast : (String.utf8EncodeChar c).getLast? = some b := by
      rw [List.concat_eq_append, he, List.getLast?_append] at hl
      cases hc : (String.utf8EncodeChar c).getLast? with
      | none => exact absurd (List.getLast?_eq_none_iff.1 hc) hne
      | some d =>
        rw [hc] at hl
        exact hl
    obtain ⟨hc, hs⟩ := eq_of_mem_utf8EncodeChar (List.mem_of_getLast? hlast) h
    refine ⟨t, c, List.concat_eq_append, hc, ?_⟩
    rw [List.concat_eq_append, he, hs, List.dropLast_concat]

/-- Bytes before the first line feed belong to the first line. -/
theorem cut_prefix {l : List UInt8} (hne : l ≠ []) (h : 10 ∉ l) (bs : List UInt8) :
    cut (l ++ bs) = match cut bs with
      | [] => [(l, false)]
      | (k, ended) :: ls => (l ++ k, ended) :: ls := by
  induction l with
  | nil => exact absurd rfl hne
  | cons b l ih =>
    rw [List.mem_cons, not_or] at h
    rw [List.cons_append, cut_cons_of_ne (Ne.symm h.1)]
    cases l with
    | nil =>
      rw [List.nil_append]
      cases cut bs <;> rfl
    | cons c l =>
      rw [ih (List.cons_ne_nil _ _) h.2]
      cases cut bs <;> rfl

/-- The lines of a text are texts. -/
theorem decode?_cut {s : List Char} {l : List UInt8} (hl : l ∈ (cut (encode s)).map dropReturn) :
    ∃ t, decode? l = some t := by
  have hcut : ∀ s : List Char, ∀ p ∈ cut (encode s), ∃ t, p.1 = encode t := by
    intro s
    induction s with
    | nil =>
      intro p hp
      cases hp
    | cons c s ih =>
      intro p hp
      have he : encode (c :: s) = String.utf8EncodeChar c ++ encode s := rfl
      rw [he] at hp
      by_cases hc : 10 ∈ String.utf8EncodeChar c
      · rw [(eq_of_mem_utf8EncodeChar hc (by decide)).2, List.singleton_append, cut_feed] at hp
        rcases List.mem_cons.1 hp with rfl | hp
        · exact ⟨[], rfl⟩
        · exact ih p hp
      · have hx := cut_prefix (String.utf8EncodeChar_ne_nil) hc (encode s)
        rw [hx] at hp
        cases hs : cut (encode s) with
        | nil =>
          rw [hs] at hp
          rw [List.mem_singleton.1 hp]
          exact ⟨[c], by simp [encode]⟩
        | cons q qs =>
          obtain ⟨k, ended⟩ := q
          rw [hs] at hp ih
          rcases List.mem_cons.1 hp with rfl | hp
          · obtain ⟨t, ht⟩ := ih _ List.mem_cons_self
            exact ⟨c :: t, congrArg (String.utf8EncodeChar c ++ ·) ht⟩
          · exact ih p (List.mem_cons_of_mem _ hp)
  obtain ⟨⟨k, ended⟩, hp, rfl⟩ := List.mem_map.1 hl
  obtain ⟨t, ht⟩ := hcut s _ hp
  change k = encode t at ht
  subst ht
  cases ended with
  | false => exact ⟨t, decode?_encode t⟩
  | true =>
    rw [dropReturn]
    split
    · rename_i hr
      obtain ⟨u, c, -, -, hd⟩ := getLast?_encode (by decide) hr
      rw [hd]
      exact ⟨u, decode?_encode u⟩
    · exact ⟨t, decode?_encode t⟩

/-- **What follows complete lines is read by itself.** -/
theorem read_append {bytes : List UInt8} (h : Complete bytes) (more : List UInt8) :
    read (bytes ++ more) = read bytes ++ read more := by
  obtain ⟨text, rfl, ht⟩ := h
  have hlast : encode text = [] ∨ (encode text).getLast? = some 10 := by
    rcases ht with rfl | ht
    · exact .inl rfl
    · obtain ⟨t, rfl⟩ : ∃ t, text = t ++ ['\n'] := by
        rcases List.eq_nil_or_concat text with rfl | ⟨t, c, rfl⟩
        · cases ht
        · rw [List.concat_eq_append, List.getLast?_concat, Option.some.injEq] at ht
          exact ⟨t, by rw [List.concat_eq_append, ht]⟩
      right
      rw [encode_append]
      exact List.getLast?_concat
  rw [read, cut_append hlast, List.map_append, decodeWhile_append fun l hl => decode?_cut hl]
  rfl

/-- **A written line is read back.** -/
theorem read_write {line : String} (h : IsLine line) : read (write line) = [line] := by
  have hr : (encode line.toList).getLast? ≠ some 13 := by
    intro hl
    obtain ⟨t, c, hs, hc, -⟩ := getLast?_encode (by decide) hl
    have : c = '\r' := Char.toNat_inj.1 hc
    refine h.2 ?_
    rw [hs, this]
    exact List.getLast?_concat
  rw [read, write, cut_line (feed_not_mem_encode h.1), List.map_singleton, dropReturn, if_neg hr,
    decodeWhile, decode?_encode]
  simp [decodeWhile]

theorem complete_write {bytes : List UInt8} (h : Complete bytes) (line : String) :
    Complete (bytes ++ write line) := by
  obtain ⟨text, rfl, -⟩ := h
  refine ⟨text ++ (line.toList ++ ['\n']), ?_, .inr ?_⟩
  · rw [encode_append, encode_append]
    rfl
  · rw [← List.append_assoc]
    exact List.getLast?_concat

/-- **Lines that were written one after the other are read back**, after what was there. -/
theorem read_writes {bytes : List UInt8} (h : Complete bytes) {lines : List String}
    (hl : ∀ l ∈ lines, IsLine l) : read (bytes ++ lines.flatMap write) = read bytes ++ lines ∧
      Complete (bytes ++ lines.flatMap write) := by
  induction lines generalizing bytes with
  | nil =>
    rw [List.flatMap_nil, List.append_nil, List.append_nil]
    exact ⟨rfl, h⟩
  | cons l lines ih =>
    obtain ⟨h1, h2⟩ := ih (complete_write h l) fun m hm => hl m (List.mem_cons_of_mem l hm)
    rw [List.flatMap_cons, ← List.append_assoc]
    refine ⟨?_, h2⟩
    rw [h1, read_append h, read_write (hl l List.mem_cons_self), List.append_assoc]
    rfl

end Switchboard.Lines
