import Switchboard.Datum.Basic
import Switchboard.Text.Word

/-!
# Words of settings texts

The words that name records, members and features. A word of other characters than those of words
is marked by `r#`.
-/

namespace Switchboard.Datum

/-- The characters that can start a word here: those of words of any script, and the
underscore. -/
def isWordStart (c : Char) : Bool := c = '_' || Text.isWordStart c

/-- The characters of a word that is marked by `r#`. -/
def isRawRest (c : Char) : Bool := Text.isWordRest c || c = '.' || c = '+' || c = '-'

/-- Whether a quoted text starts here with a letter that could start a word. -/
def startsQuoted : List Char → Bool
  | 'b' :: '"' :: _ | 'b' :: '\'' :: _ | 'b' :: 'r' :: '"' :: _ | 'b' :: 'r' :: '#' :: _ => true
  | 'r' :: '"' :: _ | 'r' :: '#' :: '"' :: _ | 'r' :: '#' :: '#' :: _ => true
  | _ => false

/-- A word at the start of a text. -/
def readWord (s : List Char) : Option (String × List Char) :=
  if startsQuoted s then none
  else match s with
    | 'r' :: '#' :: t =>
      match t.takeWhile isRawRest with
      | [] => none
      | w => some (String.ofList w, t.dropWhile isRawRest)
    | c :: t =>
      if isWordStart c then
        some (String.ofList (c :: t.takeWhile Text.isWordRest), t.dropWhile Text.isWordRest)
      else none
    | [] => none

/-- The text after a given word, if it stands at the start and no word character follows it. -/
def afterWord (w : String) (s : List Char) : Option (List Char) :=
  let rest := s.drop w.toList.length
  if w.toList.isPrefixOf s ∧ !rest.head?.any Text.isWordRest then some rest else none

end Switchboard.Datum
