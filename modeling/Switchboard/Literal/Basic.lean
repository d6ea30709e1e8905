import Switchboard.Decimal.Shortest
import Switchboard.Literal.Datatype

/-!
# Literals

A literal is a text with a datatype, and with a language if it is a text of a language.
-/

namespace Switchboard

open Decimal

/-- A typed literal. -/
structure Literal where
  lexical : String
  datatype : Datatype := .string
  lang : Option String := none
  deriving DecidableEq, Inhabited

namespace Literal

/-- A plain text. -/
def string (lexical : String) : Literal := { lexical }

/-- A text of a language. -/
def tagged (lexical lang : String) : Literal := { lexical, lang := some lang }

/-- A machine integer. -/
def int (i : Int) : Literal := { lexical := String.ofList (Decimal.text i), datatype := .int }

/-- An integer of any size. -/
def integer (i : Int) : Literal :=
  { lexical := String.ofList (Decimal.text i), datatype := .integer }

/-- A floating point number, in its shortest text. -/
def double (x : Binary64) : Literal := { lexical := String.ofList x.text, datatype := .double }

/-- What stands in for the value of a scalar that has not been set. -/
def placeholder : Literal := string ""

/-- A literal as graph notations show it: the quoted text, with `@` and its language, or with
`^^` and its datatype unless that is the plain string. The text is not escaped. -/
def display (l : Literal) : String :=
  match l.lang, l.datatype with
  | some lang, _ => "\"" ++ l.lexical ++ "\"@" ++ lang
  | none, .string => "\"" ++ l.lexical ++ "\""
  | none, d => "\"" ++ l.lexical ++ "\"^^<" ++ d.iri ++ ">"

end Literal

end Switchboard
