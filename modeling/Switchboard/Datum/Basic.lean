import Switchboard.Decimal.Binary64

/-!
# Data of settings texts

Settings are written as one datum of an object notation: records `Name(key: datum, …)`, tuples,
lists, tables, options, texts, characters, numbers, ranges and words. The name of a record may be
left out, a comma may follow the last element, and comments stand wherever blanks do.
-/

namespace Switchboard

/-- A width of integers: the number of their bits, and whether one of them is a sign. -/
structure Width where
  signed : Bool
  bits : Nat
  deriving DecidableEq, Inhabited

namespace Width

/-- The widths that an integer may be marked with, by their marks. -/
def marks : List (String × Width) :=
  [("i8", ⟨true, 8⟩), ("i16", ⟨true, 16⟩), ("i32", ⟨true, 32⟩), ("i64", ⟨true, 64⟩),
    ("u8", ⟨false, 8⟩), ("u16", ⟨false, 16⟩), ("u32", ⟨false, 32⟩), ("u64", ⟨false, 64⟩)]

/-- The width of a byte. -/
def byte : Width := ⟨false, 8⟩

/-- The width of a word of 64 bits without a sign. -/
def word64 : Width := ⟨false, 64⟩

/-- The largest number of a width, or the negation of its least one. -/
def limit (w : Width) (negative : Bool) : Nat :=
  match w.signed, negative with
  | true, true => 1 <<< (w.bits - 1)
  | true, false => 1 <<< (w.bits - 1) - 1
  | false, true => 0
  | false, false => 1 <<< w.bits - 1

/-- Whether an integer is one of a width. -/
def holds (w : Width) (i : Int) : Bool := i.natAbs ≤ w.limit (i < 0)

end Width

/-- A number of a settings text. An integer may be marked with its width. -/
inductive Numeral
  | integer (i : Int) (width : Option Width)
  | float (x : Decimal.Binary64)
  deriving DecidableEq, Inhabited

/-- A datum of a settings text. A range is closed if its upper bound belongs to it. -/
inductive Datum
  | bool (b : Bool)
  | number (n : Numeral)
  | range (lower upper : Option Numeral) (closed : Bool)
  | char (c : Char)
  | text (s : String)
  | bytes
  | word (name : String)
  | option (d : Option Datum)
  | list (items : List Datum)
  | table (entries : List (Datum × Datum))
  | tuple (name : Option String) (items : List Datum)
  | record (name : Option String) (members : List (String × Datum))
  deriving Inhabited

namespace Datum

/-- What reads a value at the start of a text: the value and the text after it. -/
abbrev Reader (α : Type) : Type := List Char → Option (α × List Char)

end Datum

end Switchboard
