/-!
# Hexadecimal digits

* `value?_digit`: reading a written digit gives its value back.
-/

namespace Switchboard.Text.Hex

/-- The value of a hexadecimal digit in either case. -/
def value? (c : Char) : Option Nat :=
  if '0' ≤ c ∧ c ≤ '9' then some (c.toNat - 48)
  else if 'a' ≤ c ∧ c ≤ 'f' then some (c.toNat - 87)
  else if 'A' ≤ c ∧ c ≤ 'F' then some (c.toNat - 55)
  else none

/-- The lower-case digit of a value below 16. -/
def digit (n : Nat) : Char := Char.ofNat (if n < 10 then n + 48 else n + 87)

/-- The digits of a number in base 16, without leading zeros. -/
def text (n : Nat) : List Char := Nat.toDigits 16 n

/-- The value of a sequence of digits, read as base 16. -/
def number? (s : List Char) : Option Nat :=
  s.foldlM (fun n c => (value? c).map (16 * n + ·)) 0

theorem value?_digit {n : Nat} (h : n < 16) : value? (digit n) = some n := by
  have : ∀ m : Fin 16, value? (digit m.val) = some m.val := by decide
  exact this ⟨n, h⟩

end Switchboard.Text.Hex
