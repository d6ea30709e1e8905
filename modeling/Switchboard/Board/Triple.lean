import Switchboard.Board.Transaction

/-!
# Triples

Every triple that is added to the graph is offered to the board. A triple from a hub to the name
of a leaf registers the leaf on the hub under its predicate. A triple from a known hub to a
literal writes the value. Everything else is left to the graph.
-/

namespace Switchboard

/-- The object of a triple. -/
inductive TripleObject
  | iri (name : String)
  | literal (value : Literal)
  deriving DecidableEq

/-- What was done with a triple. -/
inductive Disposition
  | registered
  | valueWritten
  | ignored
  deriving DecidableEq

namespace Board

/-- Registers the leaf with a name on the hub with a name. Both are made on first reference. -/
def register (b : Board) (hubName predicate leafName : String) : Board × Disposition :=
  match b.openHub hubName with
  | .error _ => (b, .ignored)
  | .ok (b, h) =>
    match b.openLeaf leafName with
    | .error _ => (b, .ignored)
    | .ok (b, l) => ((b.addLeaf h predicate l).1, .registered)

/-- Offers a triple, within the open transaction. -/
def classify (b : Board) (subject predicate : String) : TripleObject → Board × Disposition
  | .iri name =>
    if (Name.hubId? subject).isSome && (Name.leafKind? name).isSome then
      b.register subject predicate name
    else (b, .ignored)
  | .literal v =>
    match Name.hubId? subject, b.hub? subject with
    | some _, some h => ((b.setValue h predicate v).1, .valueWritten)
    | _, _ => (b, .ignored)

end Board

end Switchboard
