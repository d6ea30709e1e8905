import Switchboard.Board.Publish

/-!
# Registries

Hubs and leaves are made on first reference to their names and found again afterwards. A hub is
also found by its id. A board starts with the system hub, which shows the number of open sessions
and the peak rate of sent messages.
-/

namespace Switchboard

/-- Why a hub or leaf is not given out. -/
inductive RegistryError
  | unknownHub (name : String)
  | naming (e : NameError)
  deriving DecidableEq

/-- The wording of a refusal. -/
def RegistryError.message : RegistryError → String
  | .unknownHub name => "unknown hub: " ++ name
  | .naming e => "core error: " ++ e.message

namespace Board

/-! ### Hubs -/

/-- Makes a hub with two reserved leaves of its own. With a history it is bound to a series, if
its name allows one. -/
def newHub (b : Board) (name : String) (withHistory : Bool) : Board × HubId :=
  let (disk, series) := match withHistory, TimeSeries.openAt b.disk name with
    | true, .ok (disk, series) => (disk, some series)
    | _, _ => (b.disk, none)
  let (b, instant) := { b with disk }.newLeaf (.scalar Name.Reserved.instant.predicate)
  let (b, datetime) := b.newLeaf (.scalar Name.Reserved.datetime.predicate)
  let hub : Hub := { name, table := { instant, datetime }, series }
  ({ b with hubs := b.hubs.add hub }, ⟨b.hubs.size⟩)

/-- Registers a leaf on a hub under a predicate. A predicate that is registered already keeps its
leaf. The kept texts of the hub are dropped. -/
def addLeaf (b : Board) (h : HubId) (predicate : String) (l : LeafId) : Board × Bool :=
  if (b.hub h).table.byPredicate.contains predicate then (b, false)
  else
    let b := b.modifyHub h fun x =>
      { x with table := x.table.add predicate l, formatted := none, wrapped := none }
    (b.modifyLeaf l (·.attach h), true)

/-- The hub with a name. -/
def hub? (b : Board) (name : String) : Option HubId := b.registry.hubs.get? name

/-- The hub with an id. -/
def hubById? (b : Board) (id : String) : Option HubId := b.registry.hubsById.get? id

/-- The hub with a name, or a refusal. -/
def requireHub (b : Board) (name : String) : Except RegistryError HubId :=
  match b.hub? name with
  | some h => .ok h
  | none => .error (.unknownHub name)

/-- Enters a hub into the registries by its name and its id. -/
def enterHub (b : Board) (h : HubId) : Board :=
  { b with registry := { b.registry with
      hubs := b.registry.hubs.putNew (b.hub h).name h
      hubsById := b.registry.hubsById.put (b.hub h).id h } }

/-- The hub with a name, made if there is none. The name has to lie in the hub namespace. -/
def openHub (b : Board) (name : String) : Except RegistryError (Board × HubId) :=
  match Name.hubId? name, b.hub? name with
  | none, _ => .error (.naming (.illegalHubName name))
  | some _, some h => .ok (b, h)
  | some _, none =>
    let (b, h) := b.newHub name true
    .ok (b.enterHub h, h)

/-- Subscribes a consumer to a hub, once. -/
def subscribe (b : Board) (h : HubId) (c : ConsumerId) : Board := b.modifyHub h (·.subscribe c)

/-- Unsubscribes a consumer from a hub. -/
def unsubscribe (b : Board) (h : HubId) (c : ConsumerId) : Board := b.modifyHub h (·.unsubscribe c)

/-- Makes a hub render its text anew each time it is read. -/
def setVolatile (b : Board) (h : HubId) : Board := b.modifyHub h ({ · with isVolatile := true })

/-! ### Leaves -/

/-- The registered leaf with a name. -/
def leaf? (b : Board) (name : String) : Option LeafId := b.registry.leaves.get? name

/-- Enters a leaf into the registry, in the place of an earlier one of the same name. -/
def enterLeaf (b : Board) (name : String) (l : LeafId) : Board :=
  { b with registry := { b.registry with leaves := b.registry.leaves.put name l } }

/-- The leaf with a name, made if there is none. The name asks for a scalar or an array. -/
def openLeaf (b : Board) (name : String) : Except RegistryError (Board × LeafId) :=
  match Name.leafKind? name, b.leaf? name with
  | none, _ => .error (.naming (.illegalLeafName name))
  | some _, some l => .ok (b, l)
  | some kind, none =>
    let (b, l) := b.newLeaf (match kind with
      | .scalar => .scalar name
      | .array => .array name)
    .ok (b.enterLeaf name l, l)

/-- The present values of the registered leaf with a name. -/
def leafValues? (b : Board) (name : String) : Option (List Literal) :=
  (b.leaf? name).map fun l => (b.leaf l).values

/-- Puts a meter among those that are sampled. -/
def track (b : Board) (l : LeafId) : Board :=
  { b with registry := { b.registry with meters := b.registry.meters ++ [l] } }

/-- Makes a meter and registers it on a hub. If the predicate was free, the meter is entered
under its name and sampled from now on. -/
def addMeter (b : Board) (h : HubId) (predicate name : String) : Board × LeafId :=
  let (b, l) := b.newLeaf (.meter name b.settings.leastWindow b.now)
  match b.addLeaf h predicate l with
  | (b, true) => ((b.enterLeaf name l).track l, l)
  | (b, false) => (b, l)

/-! ### The start -/

/-- A board at its start: the system hub with its counter and its meter, and the sampler if the
settings ask for it. -/
def start (settings : Settings) (wall : Timestamp) (disk : Disk) : Board :=
  let b : Board := { settings, wall, disk }
  let (b, system) := b.newHub (Name.hubName Name.systemId) true
  -- volatile, so that reading it shows the present numbers
  let b := b.setVolatile system
  let (b, connections) := b.newLeaf (.counter Name.connectionsLeaf)
  let (b, sendMeter) := b.newLeaf (.meter Name.sendRateLeaf settings.leastWindow b.now)
  let b := (b.addLeaf system Name.connectionsPredicate connections).1
  let b := (b.addLeaf system Name.sendRatePredicate sendMeter).1
  let b := { b with registry := { b.registry with system, connections, sendMeter } }
  let b := (b.track sendMeter).enterHub system
  let b := (b.enterLeaf Name.connectionsLeaf connections).enterLeaf Name.sendRateLeaf sendMeter
  { b with sampleDue := if settings.startSampler then some settings.sampleInterval else none }

end Board

end Switchboard
