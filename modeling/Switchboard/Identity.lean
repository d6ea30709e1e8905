/-!
# Identities

The objects of a board are told apart by identity, not by content: two leaves with one name and
one value are two leaves. An identity is the index of a cell in a store.
-/

namespace Switchboard

/-- The identity of a leaf. -/
structure LeafId where
  index : Nat
  deriving DecidableEq, Inhabited

/-- The identity of a hub. -/
structure HubId where
  index : Nat
  deriving DecidableEq, Inhabited

/-- The identity of a consumer. -/
structure ConsumerId where
  index : Nat
  deriving DecidableEq, Inhabited

/-- The identity of a file, which its name may lose. -/
structure FileId where
  index : Nat
  deriving DecidableEq, Inhabited

end Switchboard
