import Switchboard.Text.Field

/-!
# Datatypes of literals

The XML Schema datatypes that values usually have. Any other datatype is carried by its IRI.
-/

namespace Switchboard

/-- The datatype of a literal. -/
inductive Datatype
  | string | boolean | integer | int | long | unsignedLong | double | float | decimal | dateTime
  | other (iri : String)
  deriving DecidableEq, Inhabited

namespace Datatype

/-- The namespace of the XML Schema datatypes. -/
def schema : String := "http://www.w3.org/2001/XMLSchema#"

/-- The datatypes that are not carried by their IRI. -/
def named : List Datatype :=
  [.string, .boolean, .integer, .int, .long, .unsignedLong, .double, .float, .decimal, .dateTime]

/-- The local part of the IRI of a named datatype. -/
def localPart : Datatype → String
  | .string => "string" | .boolean => "boolean" | .integer => "integer" | .int => "int"
  | .long => "long" | .unsignedLong => "unsignedLong" | .double => "double" | .float => "float"
  | .decimal => "decimal" | .dateTime => "dateTime" | .other iri => iri

/-- The IRI of a datatype. -/
def iri : Datatype → String
  | .other iri => iri
  | d => schema ++ d.localPart

/-- The tag of a datatype in records. -/
def tag : Datatype → String
  | .string => "String" | .boolean => "Boolean" | .integer => "Integer" | .int => "Int"
  | .long => "Long" | .unsignedLong => "UnsignedLong" | .double => "Double" | .float => "Float"
  | .decimal => "Decimal" | .dateTime => "DateTime" | .other _ => "Other"

/-- The datatype of an IRI. -/
def ofIri (iri : String) : Datatype :=
  match Text.after? schema.toList iri.toList with
  | some part =>
    match named.find? fun d => d.localPart = String.ofList part with
    | some d => d
    | none => .other iri
  | none => .other iri

/-- The named datatype with a tag. -/
def ofTag? (tag : String) : Option Datatype := named.find? fun d => d.tag = tag

/-- Whether values of this datatype are numbers. -/
def isNumeric : Datatype → Bool
  | .integer | .int | .long | .unsignedLong | .double | .float | .decimal => true
  | _ => false

/-- Whether values of this datatype are whole numbers. -/
def isIntegral : Datatype → Bool
  | .integer | .int | .long | .unsignedLong => true
  | _ => false

end Datatype

end Switchboard
