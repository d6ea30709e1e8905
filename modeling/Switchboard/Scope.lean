import Switchboard.Board.Registry

/-!
# Read scopes

While a scope is open, the first read of a hub pins the snapshot that the hub published last, or
that it has published none. Later reads of the hub answer from what is pinned, until the scope is
closed or opened anew.
-/

namespace Switchboard

/-- What is pinned, by hub name. `none` if no scope is open. -/
structure Scope where
  pins : Option (Register (Option Snapshot)) := none
  deriving Inhabited

namespace Scope

/-- Opens a scope with nothing pinned. -/
def freeze (_ : Scope) : Scope := ⟨some Register.empty⟩

/-- Closes the scope. -/
def release (_ : Scope) : Scope := ⟨none⟩

/-- Whether a scope is open. -/
def isFrozen (s : Scope) : Bool := s.pins.isSome

/-- The number of hubs pinned. -/
def pinned (s : Scope) : Nat := (s.pins.map Register.size).getD 0

/-- The snapshot that a hub is pinned to, pinned now if it was not. -/
def snapshot (s : Scope) (b : Board) (h : HubId) : Scope × Option Snapshot :=
  match s.pins with
  | none => (s, none)
  | some pins =>
    match pins.get? (b.hub h).name with
    | some pin => (s, pin)
    | none => (⟨some (pins.put (b.hub h).name (b.hub h).snapshot)⟩, (b.hub h).snapshot)

/-- The values under a predicate of the hub with a name, as pinned. -/
def read (s : Scope) (b : Board) (subject predicate : String) : Scope × Option (List Literal) :=
  if s.isFrozen then
    match b.hub? subject with
    | some h =>
      let (s, pin) := s.snapshot b h
      (s, pin.bind (·.get? predicate))
    | none => (s, none)
  else (s, none)

end Scope

end Switchboard
