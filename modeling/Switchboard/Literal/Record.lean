import Switchboard.Json.Value
import Switchboard.Literal.Basic

/-!
# Literals as JSON records

A literal is stored as an object with the members `lexical`, `datatype` and `lang`. A named
datatype is stored as its tag, another one as `{"Other": iri}`. Reading also takes a tag as the
only member of an object with the value null, an array of the three values, members in any order
and members it does not know. A missing `lang` is none. A member given twice is refused.
-/

namespace Switchboard

namespace Datatype

/-- The stored form of a datatype. -/
def record : Datatype → List Char
  | .other iri => "\x7b\"Other\":\"".toList ++ Json.escapeWith Json.allLetters iri.toList ++
      "\"\x7d".toList
  | d => '"' :: d.tag.toList ++ ['"']

/-- The datatype of a stored form. -/
def ofRecord? : Json → Option Datatype
  | .string (some s) => ofTag? (String.ofList s)
  | .object [(some key, .null)] => ofTag? (String.ofList key)
  | .object [(some key, .string (some s))] =>
    if key = "Other".toList then some (.other (String.ofList s)) else none
  | _ => none

end Datatype

namespace Literal

/-- A stored string. -/
def recordString (s : String) : List Char :=
  '"' :: Json.escapeWith Json.allLetters s.toList ++ ['"']

/-- The stored form of a literal. -/
def record (l : Literal) : List Char :=
  "\x7b\"lexical\":".toList ++ recordString l.lexical ++ ",\"datatype\":".toList ++
    l.datatype.record ++ ",\"lang\":".toList ++
    (match l.lang with
      | some lang => recordString lang
      | none => "null".toList) ++ "\x7d".toList

/-- The language of a stored form. -/
def langOfRecord? : Json → Option (Option String)
  | .null => some none
  | .string (some s) => some (some (String.ofList s))
  | _ => none

/-- The literal with three stored parts. -/
def ofParts? : Json → Json → Json → Option Literal
  | .string (some lexical), d, g =>
    match Datatype.ofRecord? d, langOfRecord? g with
    | some datatype, some lang => some ⟨String.ofList lexical, datatype, lang⟩
    | _, _ => none
  | _, _, _ => none

/-- The values of the members of a name. -/
def membersNamed (key : String) (ms : List (Option (List Char) × Json)) : List Json :=
  (ms.filter fun m => m.1 = some key.toList).map Prod.snd

/-- The literal of a stored form. A member whose name is no text is refused. -/
def ofRecord? : Json → Option Literal
  | .array [x, d, g] => ofParts? x d g
  | .object ms =>
    if ms.any fun m => m.1.isNone then none
    else match membersNamed "lexical" ms, membersNamed "datatype" ms, membersNamed "lang" ms with
      | [x], [d], [] => ofParts? x d .null
      | [x], [d], [g] => ofParts? x d g
      | _, _, _ => none
  | _ => none

/-- Reads a literal from a JSON text. -/
def read? (s : List Char) : Option Literal := (Json.read s).bind ofRecord?

end Literal

end Switchboard
