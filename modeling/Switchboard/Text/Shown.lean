import Switchboard.Text.Hex
import Switchboard.Text.Invisible

/-!
# Shown texts

A text as summaries show it: in quotes, with the quote, the backslash and everything invisible
written as escapes. Different texts are shown differently, also where they look alike.
-/

namespace Switchboard.Text

/-- The letter of a one-letter escape. -/
def shownLetter? (c : Char) : Option Char :=
  match c with
  | '\x00' => some '0'
  | '\t' => some 't'
  | '\r' => some 'r'
  | '\n' => some 'n'
  | '"' => some '"'
  | '\\' => some '\\'
  | _ => none

/-- One character of a shown text. -/
def shownChar (c : Char) : List Char :=
  match shownLetter? c with
  | some l => ['\\', l]
  | none =>
    if isInvisible c then '\\' :: 'u' :: '\x7b' :: Hex.text c.toNat ++ ['\x7d'] else [c]

/-- A text as summaries show it. -/
def shown (s : List Char) : List Char := '"' :: s.flatMap shownChar ++ ['"']

end Switchboard.Text
