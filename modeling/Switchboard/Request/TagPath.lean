import Switchboard.Name
import Switchboard.Request.Error
import Switchboard.Request.Query
import Switchboard.Text.Blank

/-!
# Tag paths

A tag path names hubs by a walk over tagged structure nodes. Each segment but the last is the
tag of a node. From the second on, `link-tag` also names the relation from the node before, `*`
any relation, and a plain segment takes the default relation. The last segment is the relation
from the last node to its hub.

A path is answered by a graph query. Its labels are written between `<` and `>`, so characters
that could end or split a name there are refused.
-/

namespace Switchboard

/-- A relation between two structure nodes. -/
inductive Link
  | any
  | named (label : String)
  deriving DecidableEq, Inhabited

/-- A structure node and the relation that leads to it. -/
structure TagStep where
  link : Link
  tag : String
  deriving DecidableEq, Inhabited

/-- The structure nodes of a walk and the relation from the last of them to the hub. The
relation to the first node is not used. -/
structure TagPath where
  steps : List TagStep
  leafTag : String
  deriving DecidableEq, Inhabited

/-- The relation with a label, where `*` is any. -/
def Link.ofLabel (label : String) : Link := if label = "*" then .any else .named label

namespace TagPath

/-- Whether a text can stand between `<` and `>` without ending or splitting the name there. -/
def isSafe (text : String) : Bool :=
  text.toList.all fun c =>
    !(Text.isBlank c || Text.isControl c || "<>\"\x7b\x7d|^\x60\\".toList.contains c)

/-- Refuses a label that is not safe. -/
def check (label : String) : Except RequestError Unit :=
  if isSafe label then .ok () else .error (.illegalTag label)

/-- The node of a segment after the first one: `link-tag`, cut at the last `-`, if both parts
are there, else the whole segment as the tag. -/
def laterStep (default : Link) (segment : String) : TagStep :=
  match Text.cutLast '-' segment.toList with
  | some (link, tag) =>
    if link.isEmpty || tag.isEmpty then ⟨default, segment⟩
    else ⟨.ofLabel (String.ofList link), String.ofList tag⟩
  | none => ⟨default, segment⟩

/-- The nodes of the segments before the last one. -/
def nodes (default : Link) : List String → List TagStep
  | [] => []
  | first :: rest => ⟨.any, first⟩ :: rest.map (laterStep default)

/-- Reads the segments of a path. The segments are checked in order, then the default link. -/
def ofSegments (segments : List String) (defaultLink : Option String) :
    Except RequestError TagPath :=
  match segments.getLast? with
  | none => .error .noPathSpecified
  | some leafTag => do
    (segments ++ defaultLink.toList).forM check
    let default := (defaultLink.map Link.ofLabel).getD .any
    return ⟨nodes default segments.dropLast, leafTag⟩

/-- The pattern of the tag of the `i`-th node. -/
def tagPattern (i : Nat) (step : TagStep) : QueryPattern :=
  ⟨.node i, .iri Name.tagPredicate, .iri (Name.tagBase ++ step.tag)⟩

/-- The patterns of the nodes from the `i`-th on. `anys` is the number of `any` relations before
them, so that each has a variable of its own. -/
def stepPatterns (space : String) : (i anys : Nat) → List TagStep → List QueryPattern
  | _, _, [] => []
  | 0, anys, step :: steps => tagPattern 0 step :: stepPatterns space 1 anys steps
  | i + 1, anys, step :: steps =>
    match step.link with
    | .any =>
      ⟨.node i, .relation anys, .node (i + 1)⟩ :: tagPattern (i + 1) step ::
        stepPatterns space (i + 2) (anys + 1) steps
    | .named label =>
      ⟨.node i, .iri (space ++ label), .node (i + 1)⟩ :: tagPattern (i + 1) step ::
        stepPatterns space (i + 2) anys steps

/-- The patterns of a path: those of its nodes, and the relation from the last node to the hub. -/
def patterns (path : TagPath) (space : String) : List QueryPattern :=
  stepPatterns space 0 0 path.steps ++
    [⟨.node (path.steps.length - 1), .iri (space ++ path.leafTag), .hub⟩]

/-- The query that selects the names of the hubs at the end of the path. Tags lie in the tag
namespace, relations in `space`. -/
def selectQuery (path : TagPath) (space : String) : String :=
  String.ofList (selectHubs (path.patterns space))

end TagPath

end Switchboard
