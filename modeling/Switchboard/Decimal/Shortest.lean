import Switchboard.Decimal.Binary64

/-!
# Shortest decimal texts

The text of a floating point value has the fewest digits that are read back as that value. Of
the decimals with that many digits it is the nearest, and of two at equal distance the upper
one. It is written without an exponent.

The decimals that are read back are those in the interval of reals nearer to the value than to
its neighbours, ends included when the mantissa is even. If any decimal with a given number of
digits lies there, one of the two next to the value does, so only those two are tried.
-/

namespace Switchboard.Decimal

/-- A decimal `digits * 10 ^ power`. -/
structure Scaled where
  digits : Nat
  power : Int
  deriving DecidableEq, Inhabited

namespace Binary64

/-- `10 ^ p` as a factor of the numerator. -/
def tens (p : Int) : Nat := Nat.pow 10 p.toNat

/-- Whether `m * 2 ^ q < 10 ^ k`. -/
def belowTen (m : Nat) (q k : Int) : Bool := m * up q * tens (-k) < tens k * up (-q)

/-- The number `k` of digits before the point: `10 ^ (k - 1) ≤ m * 2 ^ q < 10 ^ k`, for a
positive mantissa. The estimate from the binary logarithm is below `k` by at most 3. -/
def leadingPower (m : Nat) (q : Int) : Int :=
  let low := ((Nat.log2 m : Int) + q) * 30103 / 100000 - 1
  if belowTen m q low then low
  else if belowTen m q (low + 1) then low + 1
  else if belowTen m q (low + 2) then low + 2
  else low + 3

/-- Whether the decimal `c * 10 ^ p` is read back as `m * 2 ^ q`. Bounds are in quarters of the
last binary place. Below a power of two the spacing is half as wide. -/
def readsBack (m : Nat) (q : Int) (c : Nat) (p : Int) : Bool :=
  let low := if m = leastMantissa ∧ minExponent < q then 4 * m - 1 else 4 * m - 2
  let high := 4 * m + 2
  let x := 4 * c * tens p * up (-q)
  let unit := up q * tens (-p)
  if m % 2 = 0 then low * unit ≤ x && x ≤ high * unit else low * unit < x && x < high * unit

/-- The decimal with unit `10 ^ p` next to `m * 2 ^ q` that is read back, if there is one. -/
def nearest? (m : Nat) (q : Int) (p : Int) : Option Scaled :=
  let num := m * up q * tens (-p)
  let den := up (-q) * tens p
  let c := num / den
  match readsBack m q c p, readsBack m q (c + 1) p with
  | true, true => some ⟨if 2 * (num % den) < den then c else c + 1, p⟩
  | true, false => some ⟨c, p⟩
  | false, true => some ⟨c + 1, p⟩
  | false, false => none

/-- The first of the units `10 ^ (k - n)`, `10 ^ (k - n - 1)`, … with a decimal that is read
back. -/
def firstNearest (m : Nat) (q k : Int) : (fuel n : Nat) → Scaled
  | 0, _ => ⟨m, 0⟩
  | fuel + 1, n =>
    match nearest? m q (k - n) with
    | some d => d
    | none => firstNearest m q k fuel (n + 1)

/-- The shortest decimal of a positive finite value. Seventeen digits always suffice. -/
def shortest (m : Nat) (q : Int) : Scaled := firstNearest m q (leadingPower m q) 17 1

end Binary64

/-- A decimal without an exponent and without zeros at the end of its fraction. -/
def Scaled.text (d : Scaled) : List Char :=
  let ds := Decimal.digits d.digits
  if 0 ≤ d.power then ds ++ List.replicate d.power.toNat '0'
  else
    let places := (-d.power).toNat
    let padded := List.replicate (places + 1 - ds.length) '0' ++ ds
    let whole := padded.take (padded.length - places)
    let frac := ((padded.drop (padded.length - places)).reverse.dropWhile (· = '0')).reverse
    if frac = [] then whole else whole ++ '.' :: frac

/-- The text of a floating point value. -/
def Binary64.text : Binary64 → List Char
  | .nan => "NaN".toList
  | .infinite negative => if negative then "-inf".toList else "inf".toList
  | .finite negative m q =>
    let magnitude := if m = 0 then ['0'] else (shortest m q).text
    if negative then '-' :: magnitude else magnitude

end Switchboard.Decimal
