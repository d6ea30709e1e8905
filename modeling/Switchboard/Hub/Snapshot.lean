import Switchboard.Literal.Basic
import Switchboard.Register
import Switchboard.Time

/-!
# Snapshots

The values of all leaves of a hub at the time of one publication, by predicate.
-/

namespace Switchboard

/-- What a hub published at one time. -/
structure Snapshot where
  takenAt : Timestamp
  values : Register (List Literal)
  deriving Inhabited

namespace Snapshot

instance : DecidableEq Snapshot := fun s t =>
  decidable_of_iff (s.takenAt = t.takenAt ∧ s.values = t.values)
    ⟨fun h => by cases s; cases t; cases h.1; cases h.2; rfl, fun h => h ▸ ⟨rfl, rfl⟩⟩

/-- The values under a predicate. -/
def get? (s : Snapshot) (predicate : String) : Option (List Literal) := s.values.get? predicate

end Snapshot

end Switchboard
