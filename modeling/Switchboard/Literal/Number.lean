import Switchboard.Json.Quoted
import Switchboard.Literal.Basic
import Switchboard.Text.Blank

/-!
# The number of a literal, and its published form

A literal of a numeric datatype whose text is a number is published bare. Every other literal is
published as a quoted string. Whole numbers that fit a 64-bit word are kept exactly, all other
numbers as floating point values.
-/

namespace Switchboard

open Decimal

/-- The number that a literal denotes. -/
inductive Number
  | int (i : Int)
  | uint (n : Nat)
  | float (x : Binary64)
  deriving DecidableEq

/-- The text of a number. -/
def Number.text : Number → List Char
  | .int i => Decimal.text i
  | .uint n => Decimal.digits n
  | .float x => x.text

namespace Literal

/-- The floating point value of a text, if it is finite. -/
def float? (s : List Char) : Option Number :=
  match Binary64.read? s with
  | some x => if x.isFinite then some (.float x) else none
  | none => none

/-- The number of a literal: blanks around its text do not count, and a whole number is read
into a signed word, else an unsigned word, else a floating point value. -/
def number? (l : Literal) : Option Number :=
  if l.datatype.isNumeric then
    let s := Text.trim l.lexical.toList
    if l.datatype.isIntegral then
      match signed64? s, unsigned64? s with
      | some i, _ => some (.int i)
      | none, some n => some (.uint n)
      | none, none => float? s
    else float? s
  else none

/-- The published form: a bare number or a quoted string. -/
def json (l : Literal) : List Char :=
  match l.number? with
  | some n => n.text
  | none => Json.quote l.lexical.toList

end Literal

end Switchboard
