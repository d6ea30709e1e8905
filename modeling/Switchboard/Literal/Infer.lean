import Switchboard.Literal.Basic

/-!
# Typing a raw text

A text that is a sign and digits becomes an integer, one with a point after the digits a
floating point number, and everything else a plain string. An integer too large for a signed
64-bit word stays a string.
-/

namespace Switchboard.Literal

open Decimal

/-- A text without the sign at its start. -/
def dropSign : List Char → List Char
  | '-' :: s => s
  | '+' :: s => s
  | s => s

/-- The literal that a raw text stands for. -/
def infer (text : String) : Literal :=
  let s := text.toList
  match Text.cutFirst '.' (dropSign s) with
  | none =>
    match isNumeral (dropSign s), signed64? s with
    | true, some i => int i
    | _, _ => string text
  | some (whole, frac) =>
    match isNumeral whole && frac.all Char.isDigit, Binary64.read? s with
    | true, some x => double x
    | _, _ => string text

end Switchboard.Literal
