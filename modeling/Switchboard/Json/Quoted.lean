import Switchboard.Text.Hex

/-!
# Quoted strings of JSON

Writing the inside of a quoted string, and reading a quoted string back. Writing escapes the
quote, the backslash and the control characters below U+0020. Reading takes every escape of
RFC 8259, also those that name UTF-16 code units.

* `readQuoted_escapeWith`: the reader, started after the opening quote, gives the text back
  and stops at its closing quote, whatever follows.
-/

namespace Switchboard.Json

open Switchboard.Text

/-- The one-letter escapes that a line of text needs: line feed, carriage return and tab. -/
def lineLetters (c : Char) : Option Char :=
  if c = '\n' then some 'n' else if c = '\r' then some 'r' else if c = '\t' then some 't' else none

/-- All one-letter escapes of control characters. -/
def allLetters (c : Char) : Option Char :=
  if c = '\x08' then some 'b' else if c = '\x0c' then some 'f' else lineLetters c

/-- The written form of one character of a quoted string. -/
def escapeChar (letters : Char → Option Char) (c : Char) : List Char :=
  if c = '"' then ['\\', '"']
  else if c = '\\' then ['\\', '\\']
  else if c.toNat < 0x20 then
    match letters c with
    | some l => ['\\', l]
    | none => ['\\', 'u', '0', '0', Hex.digit (c.toNat / 16), Hex.digit (c.toNat % 16)]
  else [c]

/-- A text with the characters that cannot stand in a quoted string escaped. -/
def escapeWith (letters : Char → Option Char) (s : List Char) : List Char :=
  s.flatMap (escapeChar letters)

/-- The escaped form used in published texts. It never holds a raw line break. -/
def escape (s : List Char) : List Char := escapeWith lineLetters s

/-- The quoted form used in published texts. -/
def quote (s : List Char) : List Char := '"' :: escape s ++ ['"']

/-- A part of a quoted string: a character, or an escape that names a UTF-16 code unit. -/
inductive Piece
  | char (c : Char)
  | unit (n : Nat)
  deriving DecidableEq

/-- The character that a one-letter escape stands for. -/
def letter? (c : Char) : Option Char :=
  match c with
  | '"' => some '"'
  | '\\' => some '\\'
  | '/' => some '/'
  | 'b' => some '\x08'
  | 'f' => some '\x0c'
  | 'n' => some '\n'
  | 'r' => some '\r'
  | 't' => some '\t'
  | _ => none

/-- The pieces of a quoted string whose opening quote has been read, and the text after its
closing quote. -/
def readPieces : List Char → Option (List Piece × List Char)
  | [] => none
  | '"' :: s => some ([], s)
  | '\\' :: 'u' :: a :: b :: c :: d :: s =>
    match Hex.number? [a, b, c, d] with
    | some n => (readPieces s).map fun p => (.unit n :: p.1, p.2)
    | none => none
  | '\\' :: e :: s =>
    match letter? e with
    | some l => (readPieces s).map fun p => (.char l :: p.1, p.2)
    | none => none
  | c :: s =>
    if c = '\\' ∨ c.toNat < 0x20 then none
    else (readPieces s).map fun p => (.char c :: p.1, p.2)

/-- The text of the pieces. `none` if a surrogate code unit stands without its partner. -/
def joinPieces : List Piece → Option (List Char)
  | [] => some []
  | .char c :: ps => (joinPieces ps).map (c :: ·)
  | .unit n :: ps =>
    if 0xD800 ≤ n ∧ n < 0xDC00 then
      match ps with
      | .unit m :: qs =>
        if 0xDC00 ≤ m ∧ m < 0xE000 then
          (joinPieces qs).map (Char.ofNat (0x10000 + 0x400 * (n - 0xD800) + (m - 0xDC00)) :: ·)
        else none
      | _ => none
    else if 0xDC00 ≤ n ∧ n < 0xE000 then none
    else (joinPieces ps).map (Char.ofNat n :: ·)

/-- Reads a quoted string whose opening quote has been read, and the text after it. -/
def readQuoted (s : List Char) : Option (List Char × List Char) :=
  match readPieces s with
  | some (ps, rest) => (joinPieces ps).map (·, rest)
  | none => none

/-! ### Reading what was written -/

/-- The escapes of one letter that `letters` gives are read back as the character they name. -/
def Faithful (letters : Char → Option Char) : Prop :=
  ∀ c l, letters c = some l → letter? l = some c ∧ l ≠ 'u'

theorem faithful_lineLetters : Faithful lineLetters := by
  intro c l h
  unfold lineLetters at h
  repeat' split at h
  all_goals first
    | (cases h; subst_vars; decide)
    | cases h

/-- The piece that the written form of a character is read as. -/
def pieceOf (letters : Char → Option Char) (c : Char) : Piece :=
  if c.toNat < 0x20 ∧ letters c = none then .unit c.toNat else .char c

theorem number?_control {n : Nat} (h : n < 0x20) :
    Hex.number? ['0', '0', Hex.digit (n / 16), Hex.digit (n % 16)] = some n := by
  have : ∀ m : Fin 0x20,
      Hex.number? ['0', '0', Hex.digit (m.val / 16), Hex.digit (m.val % 16)] = some m.val := by
    decide
  exact this ⟨n, h⟩

theorem readPieces_cons_plain {c : Char} (hq : c ≠ '"') (hb : c ≠ '\\') (hc : ¬ c.toNat < 0x20)
    (s : List Char) :
    readPieces (c :: s) = (readPieces s).map fun p => (.char c :: p.1, p.2) := by
  rw [readPieces]
  · simp [hb, hc]
  all_goals simp_all

theorem readPieces_escapeChar {letters : Char → Option Char} (hl : Faithful letters) (c : Char)
    (s : List Char) :
    readPieces (escapeChar letters c ++ s) =
      (readPieces s).map fun p => (pieceOf letters c :: p.1, p.2) := by
  unfold escapeChar
  split
  · rename_i h; subst h; rfl
  split
  · rename_i h; subst h; rfl
  rename_i hq hb
  split
  · rename_i hc
    split
    · rename_i l h
      obtain ⟨h1, h2⟩ := hl c l h
      have hp : pieceOf letters c = .char c := by simp [pieceOf, h]
      rw [hp, List.cons_append, List.cons_append, List.nil_append, readPieces]
      · rw [h1]
      · intro a b c d t hu; exact absurd hu (by simp [h2])
    · rename_i h
      have hp : pieceOf letters c = .unit c.toNat := by simp [pieceOf, h, hc]
      simp [hp, readPieces, number?_control hc]
  · rename_i hc
    have hp : pieceOf letters c = .char c := by simp [pieceOf, hc]
    rw [hp]
    exact readPieces_cons_plain hq hb hc s

theorem readPieces_escapeWith {letters : Char → Option Char} (hl : Faithful letters)
    (s t : List Char) :
    readPieces (escapeWith letters s ++ '"' :: t) = some (s.map (pieceOf letters), t) := by
  induction s with
  | nil => rfl
  | cons c s ih =>
    rw [escapeWith, List.flatMap_cons, List.append_assoc, readPieces_escapeChar hl]
    rw [escapeWith] at ih
    simp [ih]

theorem joinPieces_unit {n : Nat} (h : n < 0xD800) (ps : List Piece) :
    joinPieces (.unit n :: ps) = (joinPieces ps).map (Char.ofNat n :: ·) := by
  have h1 : ¬ (0xD800 ≤ n ∧ n < 0xDC00) := by omega
  have h2 : ¬ (0xDC00 ≤ n ∧ n < 0xE000) := by omega
  rcases ps with _ | ⟨p | m, ps⟩
  · simp [joinPieces, h1, h2]
  · simp [joinPieces, h1, h2]
  · rw [joinPieces.eq_3, if_neg h1, if_neg h2]

theorem joinPieces_map_pieceOf (letters : Char → Option Char) (s : List Char) :
    joinPieces (s.map (pieceOf letters)) = some s := by
  induction s with
  | nil => rfl
  | cons c s ih =>
    rw [List.map_cons, pieceOf]
    split
    · rename_i h
      rw [joinPieces_unit (by omega), ih]
      simp [Char.ofNat_toNat]
    · simp [joinPieces, ih]

/-- **Reading undoes writing**: the reader gives the text back and stops at its closing quote,
whatever follows. -/
theorem readQuoted_escapeWith {letters : Char → Option Char} (hl : Faithful letters)
    (s t : List Char) : readQuoted (escapeWith letters s ++ '"' :: t) = some (s, t) := by
  simp [readQuoted, readPieces_escapeWith hl, joinPieces_map_pieceOf]

end Switchboard.Json
