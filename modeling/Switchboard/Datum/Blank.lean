/-!
# Blanks and comments

What may stand between the parts of a settings text: blanks, comments up to the end of a line, and
comments in `/*` and `*/` that may hold other ones.
-/

namespace Switchboard.Datum

/-- The characters with the property `Pattern_White_Space`. -/
def isSpace (c : Char) : Bool :=
  let n := c.toNat
  (9 ≤ n && n ≤ 13) || n == 0x20 || n == 0x85 || n == 0x200E || n == 0x200F || n == 0x2028 ||
    n == 0x2029

/-- The text after a block comment that is open `depth + 1` times. -/
def skipBlock : (depth : Nat) → List Char → Option (List Char)
  | 0, '*' :: '/' :: s => some s
  | d + 1, '*' :: '/' :: s => skipBlock d s
  | d, '/' :: '*' :: s => skipBlock (d + 1) s
  | d, _ :: s => skipBlock d s
  | _, [] => none

/-- The text after at most `fuel` comments and the blanks around them. -/
def skipFrom : (fuel : Nat) → List Char → Option (List Char)
  | 0, s => some s
  | n + 1, s =>
    match s.dropWhile isSpace with
    | '/' :: '/' :: t => skipFrom n (t.dropWhile (· ≠ '\n'))
    | '/' :: '*' :: t => (skipBlock 0 t).bind (skipFrom n)
    | '/' :: _ => none
    | t => some t

/-- The text after all blanks and comments at its start. -/
def skip (s : List Char) : Option (List Char) := skipFrom (s.length + 1) s

/-- The text after a closing parenthesis that ends a single datum. A comma may stand before it. -/
def skipEnd (s : List Char) : Option (List Char) :=
  match skip s with
  | some (')' :: t) => some t
  | some (',' :: t) =>
    match skip t with
    | some (')' :: r) => some r
    | _ => none
  | _ => none

end Switchboard.Datum
