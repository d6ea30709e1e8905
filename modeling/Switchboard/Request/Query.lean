import Switchboard.Decimal.Integer

/-!
# Graph queries

The queries that tag paths are answered by: they select the names of hubs that satisfy a list of
triple patterns. A pattern is written on a line of its own. A name stands between `<` and `>`.
-/

namespace Switchboard

/-- A term of a triple pattern: the variable of a structure node, the variable of an unnamed
relation, the variable of the selected hub, or a name. -/
inductive QueryTerm
  | node (n : Nat)
  | relation (n : Nat)
  | hub
  | iri (name : String)
  deriving DecidableEq, Inhabited

/-- A triple pattern. -/
structure QueryPattern where
  subject : QueryTerm
  predicate : QueryTerm
  object : QueryTerm
  deriving DecidableEq, Inhabited

/-- The text of a term. -/
def QueryTerm.text : QueryTerm → List Char
  | .node n => '?' :: 's' :: Decimal.digits n
  | .relation n => '?' :: 't' :: Decimal.digits n
  | .hub => "?hub".toList
  | .iri name => '<' :: name.toList ++ ['>']

/-- The line of a pattern. -/
def QueryPattern.line (p : QueryPattern) : List Char :=
  "      ".toList ++ p.subject.text ++ ' ' :: p.predicate.text ++ ' ' :: p.object.text ++
    " .\n".toList

/-- The query for the hubs that satisfy all patterns. -/
def selectHubs (patterns : List QueryPattern) : List Char :=
  "SELECT ?hub\nWHERE \x7b\n".toList ++ patterns.flatMap QueryPattern.line ++ "\x7d\n".toList

end Switchboard
