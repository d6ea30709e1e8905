/-!
# Decimal integers

Writing integers, and reading them within the bounds of 64-bit words. Reading takes one sign at
most, ASCII digits, and any number of leading zeros.

* `natural?_digits`: reading a written number gives it back.
* `signed64?_text`: the same for integers of a signed 64-bit word.
-/

namespace Switchboard.Decimal

/-- The digits of a number, without leading zeros. -/
def digits (n : Nat) : List Char := Nat.toDigits 10 n

/-- The digits of an integer, after a minus sign if it is negative. -/
def text (i : Int) : List Char := if i < 0 then '-' :: digits i.natAbs else digits i.natAbs

/-- Whether a text is one or more ASCII digits. -/
def isNumeral (s : List Char) : Bool := !s.isEmpty && s.all Char.isDigit

/-- The value of one or more ASCII digits. -/
def natural? (s : List Char) : Option Nat :=
  if isNumeral s then some (Nat.ofDigitChars 10 s 0) else none

/-- A text without the plus sign at its start. -/
def dropPlus : List Char → List Char
  | '+' :: s => s
  | s => s

/-- Reads a number below 2^64, with or without a plus sign. -/
def unsigned64? (s : List Char) : Option Nat :=
  (natural? (dropPlus s)).filter (· < 0x10000000000000000)

/-- Reads an integer of a signed 64-bit word, with or without a sign. -/
def signed64? : List Char → Option Int
  | '-' :: s => ((natural? s).filter (· ≤ 0x8000000000000000)).map fun (n : Nat) => -(n : Int)
  | s => ((natural? (dropPlus s)).filter (· < 0x8000000000000000)).map fun (n : Nat) => (n : Int)

theorem isNumeral_digits (n : Nat) : isNumeral (digits n) = true := by
  have h : digits n ≠ [] := Nat.toDigits_ne_nil
  have h' : (digits n).all Char.isDigit = true :=
    List.all_eq_true.2 fun _ hc => Nat.isDigit_of_mem_toDigits (by decide) (by decide) hc
  simp [isNumeral, h, h']

/-- Reading a written number gives it back. -/
@[simp] theorem natural?_digits (n : Nat) : natural? (digits n) = some n := by
  rw [natural?, if_pos (isNumeral_digits n), digits,
    Nat.ofDigitChars_toDigits (by decide) (by decide)]

theorem head?_ne_of_isNumeral {s : List Char} {c : Char} (h : isNumeral s = true)
    (hc : c.isDigit = false) : s.head? ≠ some c := by
  cases s with
  | nil => simp
  | cons d s =>
    simp only [List.head?_cons, Option.some.injEq, ne_eq]
    rintro rfl
    simp [isNumeral, hc] at h

theorem dropPlus_of_isNumeral {s : List Char} (h : isNumeral s = true) : dropPlus s = s := by
  unfold dropPlus
  split
  · exact absurd rfl (head?_ne_of_isNumeral (c := '+') h (by decide))
  · rfl

theorem signed64?_of_isNumeral {s : List Char} (h : isNumeral s = true) :
    signed64? s = ((natural? s).filter (· < 0x8000000000000000)).map fun (n : Nat) => (n : Int) := by
  unfold signed64?
  split
  · exact absurd rfl (head?_ne_of_isNumeral (c := '-') h (by decide))
  · rw [dropPlus_of_isNumeral h]

/-- Reading a written integer of a signed 64-bit word gives it back. -/
theorem signed64?_text {i : Int} (hl : -0x8000000000000000 ≤ i)
    (hh : i < 0x8000000000000000) :
    signed64? (text i) = some i := by
  unfold text
  split
  · rename_i h
    have hn : i.natAbs ≤ 0x8000000000000000 := by omega
    rw [signed64?, natural?_digits, Option.filter_some, if_pos (by simpa using hn), Option.map_some]
    exact congrArg some (by omega)
  · have hn : i.natAbs < 0x8000000000000000 := by omega
    rw [signed64?_of_isNumeral (isNumeral_digits _), natural?_digits, Option.filter_some,
      if_pos (by simpa using hn), Option.map_some]
    exact congrArg some (by omega)

end Switchboard.Decimal
