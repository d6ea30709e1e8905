import Switchboard.Literal.Infer
import Switchboard.Register
import Switchboard.Text.Percent

/-!
# Request parameters

The parameters of a request keep every value given for a key, in order of arrival. A key that
starts with `-` controls the request. Every other key assigns a value.
-/

namespace Switchboard

/-- The values of each key, keys in order of first arrival. -/
structure Params where
  values : Register (List String) := Register.empty
  deriving Inhabited

namespace Params

/-- The number of history lines that a reader wants. -/
def historyKey : String := "-history"

/-- Whether a reader wants the current value although history was asked for. -/
def latestKey : String := "-latest"

/-- The namespace of predicates and relations. -/
def namespaceKey : String := "-propertyns"

/-- The relation for path segments that name none. -/
def linkKey : String := "-link"

/-- The query whose answer names the hubs. -/
def queryKey : String := "-query"

/-- Whether a key controls the request. -/
def isControl (key : String) : Bool := key.toList.head? = some '-'

/-- Adds a value for a key. -/
def push (p : Params) (key value : String) : Params :=
  ⟨p.values.put key ((p.values.get? key).getD [] ++ [value])⟩

/-- Adds values in order. -/
def pushAll (p : Params) (pairs : List (String × String)) : Params :=
  pairs.foldl (fun p e => p.push e.1 e.2) p

/-- All values of a key. -/
def get? (p : Params) (key : String) : Option (List String) := p.values.get? key

/-- The first value of a key. -/
def first? (p : Params) (key : String) : Option String := (p.get? key).bind List.head?

/-- A decoded pair of a form-encoded text. Without `=` the value is empty. -/
def readPair (pair : List Char) : String × String :=
  let (key, value) := (Text.cutFirst '=' pair).getD (pair, [])
  (String.ofList (Text.Percent.decodeComponent key), String.ofList (Text.Percent.decodeComponent value))

/-- Reads a form-encoded text: pairs between `&`, empty ones skipped. -/
def read (text : String) : Params :=
  ({} : Params).pushAll
    (((Text.fields '&' text.toList).filter fun s => !s.isEmpty).map readPair)

/-- The values that the parameters assign, by predicate: each key that is not empty, does not
control the request and has exactly one value names a predicate of `space`. -/
def assignments (p : Params) (space : String) : List (String × Literal) :=
  p.values.entries.filterMap fun e =>
    match e.2 with
    | [value] =>
      if e.1 = "" ∨ isControl e.1 then none else some (space ++ e.1, Literal.infer value)
    | _ => none

end Params

end Switchboard
