/-!
# Blank and control characters

The characters with the Unicode property `White_Space` and those of the general category
`Cc`, and the removal of blanks around a text.

* `trim_eq_self`: a text that neither starts nor ends with a blank is left alone.
-/

namespace Switchboard.Text

/-- The characters with the property `White_Space`. -/
def isBlank (c : Char) : Bool :=
  let n := c.toNat
  (9 ≤ n && n ≤ 13) || n == 0x20 || n == 0x85 || n == 0xA0 || n == 0x1680 ||
    (0x2000 ≤ n && n ≤ 0x200A) || n == 0x2028 || n == 0x2029 || n == 0x202F || n == 0x205F ||
    n == 0x3000

/-- The control characters: general category `Cc`. -/
def isControl (c : Char) : Bool :=
  let n := c.toNat
  n ≤ 0x1F || (0x7F ≤ n && n ≤ 0x9F)

/-- A text without the blanks at its start. -/
def trimLeft (s : List Char) : List Char := s.dropWhile isBlank

/-- A text without the blanks at its end. -/
def trimRight (s : List Char) : List Char := (trimLeft s.reverse).reverse

/-- A text without the blanks around it. -/
def trim (s : List Char) : List Char := trimRight (trimLeft s)

theorem trimLeft_cons_of_not_blank {c : Char} (h : isBlank c = false) (s : List Char) :
    trimLeft (c :: s) = c :: s := by simp [trimLeft, h]

theorem trimLeft_eq_self {s : List Char} (h : ∀ c ∈ s.head?, isBlank c = false) :
    trimLeft s = s := by
  cases s with
  | nil => rfl
  | cons c s => exact trimLeft_cons_of_not_blank (h c rfl) s

/-- A text that neither starts nor ends with a blank is left alone. -/
theorem trim_eq_self {s : List Char} (h : ∀ c ∈ s.head?, isBlank c = false)
    (h' : ∀ c ∈ s.getLast?, isBlank c = false) : trim s = s := by
  have hr : trimLeft s.reverse = s.reverse :=
    trimLeft_eq_self (by simpa [List.head?_reverse] using h')
  rw [trim, trimLeft_eq_self h, trimRight, hr, List.reverse_reverse]

end Switchboard.Text
