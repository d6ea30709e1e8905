import Switchboard.Decimal.Integer

/-!
# Binary floating point numbers

The values of the 64-bit binary format, exactly: a finite value is a mantissa times a power of
two. A quotient is rounded to the nearest of them in exact arithmetic, a tie to the even
mantissa, and decimal texts are read through that rounding.
-/

namespace Switchboard.Decimal

/-- A value of the 64-bit binary format. A finite value is `mantissa * 2 ^ exponent` with
`mantissa < 2 ^ 53` and `-1074 ≤ exponent ≤ 971`. -/
inductive Binary64
  | finite (negative : Bool) (mantissa : Nat) (exponent : Int)
  | infinite (negative : Bool)
  | nan
  deriving DecidableEq, Inhabited

namespace Binary64

/-- The exponent of the smallest positive value. -/
def minExponent : Int := -1074

/-- The exponent of the largest finite values. -/
def maxExponent : Int := 971

/-- The least mantissa of a value with an exponent above the least, `2 ^ 52`. -/
def leastMantissa : Nat := 1 <<< 52

/-- The value of a bit pattern. -/
def ofBits (bits : Nat) : Binary64 :=
  let negative : Bool := (bits >>> 63) % 2 = 1
  let biased : Nat := (bits >>> 52) % 2048
  let fraction : Nat := bits % leastMantissa
  if biased = 0 then .finite negative fraction minExponent
  else if biased = 2047 then if fraction = 0 then .infinite negative else .nan
  else .finite negative (leastMantissa + fraction) ((biased : Int) - 1075)

/-- Whether a value is neither infinite nor undefined. -/
def isFinite : Binary64 → Bool
  | .finite .. => true
  | _ => false

/-- `2 ^ e` as a factor of the numerator. -/
def up (e : Int) : Nat := 1 <<< e.toNat

/-- The exponent of the power of two at or below `num / den`, for positive arguments. -/
def floorLog2 (num den : Nat) : Int :=
  let e : Int := (Nat.log2 num : Int) - Nat.log2 den
  if den * up e ≤ num * up (-e) then e else e - 1

/-- The nearest integer to `num / den`, a tie to the even one. -/
def roundQuotient (num den : Nat) : Nat :=
  let q := num / den
  let r := num % den
  if 2 * r < den then q
  else if den < 2 * r then q + 1
  else if q % 2 = 0 then q else q + 1

/-- The value nearest to the positive quotient `num / den`. -/
def ofQuotient (negative : Bool) (num den : Nat) : Binary64 :=
  let e := max minExponent (floorLog2 num den - 52)
  let m := roundQuotient (num * up (-e)) (den * up e)
  let (m, e) := if m = 2 * leastMantissa then (leastMantissa, e + 1) else (m, e)
  if maxExponent < e then .infinite negative else .finite negative m e

/-- The value nearest to `d * 10 ^ k`. Far outside the range of the format the answer is known
without the power of ten. -/
def ofDecimal (negative : Bool) (d : Nat) (k : Int) : Binary64 :=
  if d = 0 then .finite negative 0 minExponent
  else if 400 < k then .infinite negative
  else if k + (digits d).length < -400 then .finite negative 0 minExponent
  else ofQuotient negative (d * Nat.pow 10 k.toNat) (Nat.pow 10 (-k).toNat)

/-- The sign at the start of a text and the rest. -/
def readSign : List Char → Bool × List Char
  | '-' :: s => (true, s)
  | '+' :: s => (false, s)
  | s => (false, s)

/-- Whether two texts are equal up to the case of ASCII letters. -/
def sameLetters (s t : List Char) : Bool := s.map Char.toLower == t

/-- Reads an exponent `e`, a sign and digits. An empty text is the exponent 0. -/
def readExponent : List Char → Option Int
  | [] => some 0
  | c :: s =>
    if c = 'e' ∨ c = 'E' then
      let (negative, ds) := readSign s
      (natural? ds).map fun (n : Nat) => if negative then -(n : Int) else n
    else none

/-- Reads an unsigned decimal: digits with a point among or around them, then an exponent. -/
def readMagnitude (negative : Bool) (s : List Char) : Option Binary64 :=
  let whole := s.takeWhile Char.isDigit
  let rest := s.dropWhile Char.isDigit
  let (frac, tail) := match rest with
    | '.' :: t => (t.takeWhile Char.isDigit, t.dropWhile Char.isDigit)
    | t => ([], t)
  match natural? (whole ++ frac), readExponent tail with
  | some d, some e => some (ofDecimal negative d (e - frac.length))
  | _, _ => none

/-- Reads a decimal text, or the name of an infinite or undefined value in any case. -/
def read? (s : List Char) : Option Binary64 :=
  let (negative, t) := readSign s
  if sameLetters t "inf".toList || sameLetters t "infinity".toList then some (.infinite negative)
  else if sameLetters t "nan".toList then some .nan
  else readMagnitude negative t

end Binary64

end Switchboard.Decimal
