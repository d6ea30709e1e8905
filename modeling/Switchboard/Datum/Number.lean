import Switchboard.Datum.Quoted
import Switchboard.Datum.Word

/-!
# Numbers and ranges

Integers in four bases, floating point numbers, and ranges with such bounds. An integer may be
marked with its width, and an unmarked one is a word of 64 bits. What is no integer is a floating
point number if it can be one up to where the integer was broken off.
-/

namespace Switchboard.Datum

open Decimal

/-! ### Integers -/

/-- The characters that a run of digits is cut off by. -/
def isDigitRun (c : Char) : Bool := (Text.Hex.value? c).isSome || c = '_'

/-- Reads the digits of a base after those of `n`, as long as the number keeps a limit. Underscores
separate digits. The error is the text where reading is broken off: at a character that is no digit
of the base, or behind the whole run if the number is too large. -/
def readDigits (base limit : Nat) : (n : Nat) → List Char → Except (List Char) (Nat × List Char)
  | n, [] => .ok (n, [])
  | n, c :: s =>
    if c = '_' then readDigits base limit n s
    else match Text.Hex.value? c with
      | none => .ok (n, c :: s)
      | some d =>
        if limit < base * n then .error (s.dropWhile isDigitRun)
        else if base ≤ d then .error (c :: s)
        else if limit < base * n + d then .error (s.dropWhile isDigitRun)
        else readDigits base limit (base * n + d) s

/-- The base that the start of an integer tells, and the text after it. -/
def readBase : List Char → Nat × List Char
  | '0' :: 'b' :: s => (2, s)
  | '0' :: 'o' :: s => (8, s)
  | '0' :: 'x' :: s => (16, s)
  | s => (10, s)

/-- The width that an integer is marked with, if it is. -/
def readWidth (s : List Char) : Option (Width × List Char) :=
  Width.marks.findSome? fun m => (afterWord m.1 s).map (m.2, ·)

/-- The largest absolute value of an integer that is not marked. -/
def plainLimit (negative : Bool) : Nat :=
  if negative then 0x8000000000000000 else 0xFFFFFFFFFFFFFFFF

/-- An integer: a sign, the mark of a base, digits, the mark of a width. The error is the text
where reading is broken off. -/
def readInteger (s : List Char) : Except (List Char) (Numeral × List Char) :=
  let (negative, s) := Binary64.readSign s
  let (base, s) := readBase s
  let width := readWidth (s.dropWhile isDigitRun)
  let limit := (width.map fun w => w.1.limit negative).getD (plainLimit negative)
  if (s.head?.bind Text.Hex.value?).isNone then .error s
  else match readDigits base limit 0 s with
    | .error t => .error t
    | .ok (n, t) =>
      .ok (.integer (if negative then -(n : Int) else n) (width.map Prod.fst),
        (width.map Prod.snd).getD t)

/-! ### Floating point numbers -/

/-- The words for an infinite value. -/
def infiniteWords : List String := ["inf", "inff32", "inff64"]

/-- The words for an undefined value. -/
def undefinedWords : List String := ["NaN", "NaNf32", "NaNf64"]

/-- A word for an infinite or undefined value, after a sign. -/
def readSpecial (s : List Char) : Option (Binary64 × List Char) :=
  let (negative, t) := Binary64.readSign s
  match infiniteWords.findSome? (afterWord · t) with
  | some r => some (.infinite negative, r)
  | none => (undefinedWords.findSome? (afterWord · t)).map (.nan, ·)

/-- The characters of floating point numbers. -/
def isFloatRun (c : Char) : Bool :=
  c.isDigit || c = 'e' || c = 'E' || c = '.' || c = '+' || c = '-' || c = '_'

/-- The characters of a floating point number at the start of a text. Two points are not among
them, they make a range. -/
def floatRun : List Char → List Char
  | [] => []
  | '.' :: '.' :: _ => []
  | c :: s => if isFloatRun c then c :: floatRun s else []

/-- A run without its underscores. They may follow a digit or the mark of an exponent, with signs
between. -/
def withoutUnderscores (allowed : Bool) : List Char → Option (List Char)
  | [] => some []
  | c :: s =>
    if c = '_' then if allowed then withoutUnderscores allowed s else none
    else
      let allowed := c.isDigit || c = 'e' || c = 'E' || (allowed && c ≠ '.')
      (withoutUnderscores allowed s).map (c :: ·)

/-- A floating point number. It may be marked with a width, which the exact value does not need. -/
def readFloat (s : List Char) : Option (Binary64 × List Char) :=
  match readSpecial s with
  | some r => some r
  | none =>
    let run := floatRun s
    let rest := s.drop run.length
    ((withoutUnderscores false run).bind Binary64.read?).map
      (·, (["f32", "f64"].findSome? (afterWord · rest)).getD rest)

/-! ### Numbers -/

/-- Whether a text without a sign goes on as a floating point number where an integer would end. -/
def isFloatAhead (s : List Char) : Bool :=
  (s.takeWhile isDigitRun).length < (floatRun s).length

/-- A number. What is broken off as an integer is a floating point number if that is read at least
as far. -/
def readNumber : Reader Numeral
  | 'b' :: '\'' :: s =>
    (readByte ('b' :: '\'' :: s)).map fun p => (.integer p.1.toNat (some Width.byte), p.2)
  | s =>
    let float := (readFloat s).map fun p => (Numeral.float p.1, p.2)
    if isFloatAhead (Binary64.readSign s).2 then float
    else match readInteger s with
      | .ok r => some r
      | .error t => float.filter fun p => p.2.length ≤ t.length

/-- Whether a text starts as a number does. -/
def startsNumber (s : List Char) : Bool :=
  (readSpecial s).isSome || match s with
    | 'b' :: '\'' :: _ => true
    | c :: _ => c.isDigit || c = '+' || c = '-' || c = '.'
    | [] => false

/-- The range with a lower bound, after its two points. The mark `=` of a closed range needs an
upper bound. -/
def readUpper (lower : Option Numeral) : Reader Datum
  | '=' :: s => (readNumber s).map fun p => (.range lower (some p.1) true, p.2)
  | s =>
    match readNumber s with
    | some (n, t) => some (.range lower (some n) false, t)
    | none => some (.range lower none false, s)

/-- A number, or a range that has numbers for its bounds. -/
def readNumeric : Reader Datum
  | '.' :: '.' :: s => readUpper none s
  | s =>
    match readNumber s with
    | some (n, '.' :: '.' :: t) => readUpper (some n) t
    | some (n, t) => some (.number n, t)
    | none => none

end Switchboard.Datum
