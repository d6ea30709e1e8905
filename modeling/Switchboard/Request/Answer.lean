import Switchboard.Board.Transaction
import Switchboard.Request.Basic

/-!
# Answering requests

The hubs of a request are found by id on the board, or by a resolver that knows the graph. Hubs
that the resolver names and the board does not know are left out. Reading gives one line for each
hub, updating writes all assignments to all hubs in one transaction.
-/

namespace Switchboard

/-- The graph: the names of the hubs at the end of a tag path of a dataset, relations lying in a
namespace, and the rows of the answer to a query on a dataset. -/
structure Resolver where
  path : (dataset : String) → TagPath → (space : String) → List String
  query : (dataset text : String) → List (List String)

/-- The graph in which nothing is found. -/
def Resolver.none : Resolver := ⟨fun _ _ _ => [], fun _ _ => []⟩

/-- A request and the hubs it is about. -/
structure TargetOperation where
  request : Request
  targets : List HubId
  deriving Inhabited

/-- What a request leads to: the text read, or the number of hubs updated. -/
inductive Response
  | values (body : String)
  | updated (count : Nat)
  deriving DecidableEq

namespace Request

/-- The only column of each row. -/
def onlyColumn : List (List String) → Except RequestError (List String)
  | [] => .ok []
  | [name] :: rows => (onlyColumn rows).map (name :: ·)
  | row :: _ => .error (.multipleColumns row.length)

/-- The hubs of a request. -/
def targets (r : Request) (resolver : Resolver) (b : Board) : Except RequestError (List HubId) :=
  match r.selector with
  | .id id =>
    match b.hub? (Name.hubName id) with
    | some h => .ok [h]
    | none => .error (.unknownId id)
  | .path path space =>
    match resolver.path r.dataset path space with
    | [] => .error .noPathFound
    | found => .ok (found.filterMap b.hub?)
  | .query text =>
    match resolver.query r.dataset text with
    | [] => .error .noPathFound
    | rows => (onlyColumn rows).map fun found => found.filterMap b.hub?

end Request

namespace Board

/-- Reads a request and finds its hubs. -/
def findTargets (b : Board) (resolver : Resolver) (path : String) (p : Params) :
    Except RequestError TargetOperation := do
  let request ← Request.ofPath? path p
  let targets ← request.targets resolver b
  return ⟨request, targets⟩

/-- The last lines of the history of a hub, with its id. -/
def historyText (b : Board) (h : HubId) (limit : Nat) : String :=
  let lines := match (b.hub h).series with
    | some s => s.tail b.disk limit
    | none => []
  "[" ++ (b.hub h).idJson ++ ",[" ++ ",".intercalate lines ++ "]]"

/-- The target with an id. -/
def targetById? (b : Board) (op : TargetOperation) (id : String) : Option HubId :=
  op.targets.find? fun h => (b.hub h).id = id

/-- What is read of one hub: its history, or its current value. -/
def readOne (b : Board) (r : Request) (h : HubId) : Board × String :=
  match r.history, r.latest with
  | some limit, false => (b, b.historyText h limit)
  | _, _ => b.json h

/-- What is read of each hub in order. -/
def readEach (r : Request) : Board → List HubId → Board × List String
  | b, [] => (b, [])
  | b, h :: hs =>
    let (b, text) := b.readOne r h
    let (b, texts) := readEach r b hs
    (b, text :: texts)

/-- The hubs of a request as a JSON array, each on a line of its own. -/
def readTargets (b : Board) (op : TargetOperation) : Board × String :=
  let (b, texts) := readEach op.request b op.targets
  (b, "[\n" ++ ",\n".intercalate texts ++ "\n]")

/-- Writes assignments to a hub, within the open transaction. -/
def assignAll (b : Board) (h : HubId) (values : List (String × Literal)) : Board :=
  values.foldl (fun b e => (b.setValue h e.1 e.2).1) b

/-- Writes the assignments of the parameters to all hubs of a request, in one transaction. The
published hubs are counted. -/
def writeTargets (b : Board) (op : TargetOperation) (p : Params) : Board × Nat :=
  let values := p.assignments (op.request.space.getD Name.base)
  (op.targets.foldl (fun b h => b.assignAll h values) (b.openTransaction .batch)).finish

/-- Does what a request with known hubs asks for. -/
def perform (b : Board) (op : TargetOperation) (p : Params) : Board × Response :=
  match op.request.operation with
  | .read =>
    let (b, body) := b.readTargets op
    (b, .values body)
  | .update =>
    let (b, n) := b.writeTargets op p
    (b, .updated n)

end Board

end Switchboard
