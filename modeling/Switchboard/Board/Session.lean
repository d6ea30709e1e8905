import Switchboard.Board.Registry

/-!
# Sessions

A session streams the publications of its targets to one connection. Opening it counts one open
connection more, its end one less, however it ends.
-/

namespace Switchboard

namespace Board

/-- Opens a session on hubs. Its queue has room for at least one message. -/
def connect (b : Board) (targets : List HubId) (capacity : Nat) : Board × ConsumerId :=
  let (b, c) := b.newConsumer (.session { queue := { capacity := max 1 capacity }, targets })
  let b := targets.foldl (fun b h => b.subscribe h c) b
  ((b.count b.registry.connections 1).1, c)

/-- The number of open connections. -/
def connectionCount (b : Board) : Int :=
  match (b.leaf b.registry.connections).body with
  | .counter n => n
  | _ => 0

end Board

end Switchboard
