import Switchboard.Text.Field

/-!
# Names

Hubs and leaves have names in the namespaces below. The id of a hub is the part of its name
after the hub namespace. It is also the name of its history file, so an id that could lead out
of the directory is refused.

* `hubId?_eq_some`: the names of hubs are exactly the hub namespace followed by a legal id.
-/

namespace Switchboard.Name

/-- The root namespace. -/
def base : String := "http://bizar.aitc.jp/ns/fos/0.1/"

/-- The namespace of tag labels. -/
def tagBase : String := base ++ "local/label#"

/-- The predicate from a structure node to its tag label. -/
def tagPredicate : String := base ++ "tag"

/-- The namespace of hubs. -/
def hubBase : String := base ++ "local/proxy/hub#"

/-- The namespace of scalar leaves. -/
def leafBase : String := base ++ "local/proxy/leaf#"

/-- The namespace of array leaves. -/
def arrayBase : String := base ++ "local/proxy/array#"

/-- The id of the hub with the statistics of the switchboard itself. -/
def systemId : String := "_system"

/-- The leaf that counts open sessions, and its predicate on the system hub. -/
def connectionsLeaf : String := leafBase ++ "_system_websocket"

@[inherit_doc connectionsLeaf]
def connectionsPredicate : String := base ++ "connections"

/-- The leaf that meters sent messages, and its predicate on the system hub. -/
def sendRateLeaf : String := leafBase ++ "_system_send"

@[inherit_doc sendRateLeaf]
def sendRatePredicate : String := base ++ "peak_send_rate"

/-- The predicates whose values a hub sets itself: the time of publication, as milliseconds and
as a date. -/
inductive Reserved
  | instant
  | datetime
  deriving DecidableEq

/-- The key of a reserved value in a published text. -/
def Reserved.label : Reserved → String
  | .instant => "instant"
  | .datetime => "datetime"

/-- The predicate of a reserved value. -/
def Reserved.predicate (r : Reserved) : String := base ++ r.label

/-- The reserved value of a predicate. -/
def Reserved.ofPredicate? (predicate : String) : Option Reserved :=
  if predicate = instant.predicate then some .instant
  else if predicate = datetime.predicate then some .datetime
  else none

/-- Two points in a row. -/
def hasDots : List Char → Bool
  | '.' :: '.' :: _ => true
  | _ :: s => hasDots s
  | [] => false

/-- Whether a text can be the id of a hub: not empty, without `/`, `\`, NUL or `..`. -/
def isHubId (id : List Char) : Bool :=
  !id.isEmpty && !id.any (fun c => c = '/' || c = '\\' || c = '\x00') && !hasDots id

/-- The name of the hub with an id. -/
def hubName (id : String) : String := hubBase ++ id

/-- The id in the name of a hub, if the name lies in the hub namespace and the id is legal. -/
def hubId? (name : String) : Option String :=
  match Text.after? hubBase.toList name.toList with
  | some id => if isHubId id then some (String.ofList id) else none
  | none => none

/-- The characters that end a segment of a name. -/
def isSeparator (c : Char) : Bool := c = '#' || c = '|' || c = '/'

/-- The trailing segment of a name: what follows the last separator that is not its last
character. -/
def localChars (name : List Char) : List Char :=
  match name.reverse with
  | [] => []
  | c :: r => (c :: r.takeWhile fun d => !isSeparator d).reverse

@[inherit_doc localChars]
def localName (name : String) : String := String.ofList (localChars name.toList)

/-- The id that a hub goes by: the one in its name, or else the trailing segment of the name. -/
def hubId (name : String) : String := (hubId? name).getD (localName name)

/-- The kinds of leaves that a name can ask for. -/
inductive LeafKind
  | scalar
  | array
  deriving DecidableEq

/-- Whether `name` is a namespace followed by at least one character. -/
def isIn (space name : String) : Bool :=
  match Text.after? space.toList name.toList with
  | some id => !id.isEmpty
  | none => false

/-- The kind of leaf that a name asks for. -/
def leafKind? (name : String) : Option LeafKind :=
  if isIn leafBase name then some .scalar
  else if isIn arrayBase name then some .array
  else none

/-- The names of hubs are exactly the hub namespace followed by a legal id. -/
theorem hubId?_eq_some {name id : String} :
    hubId? name = some id ↔ name = hubName id ∧ isHubId id.toList = true := by
  unfold hubId?
  constructor
  · intro h
    split at h
    · rename_i cs hcs
      split at h
      · rename_i hid
        cases h
        rw [Text.after?_eq_some] at hcs
        refine ⟨?_, by simpa using hid⟩
        rw [← String.toList_inj, hcs, hubName, String.toList_append, String.toList_ofList]
      · cases h
    · cases h
  · rintro ⟨rfl, h⟩
    simp [hubName, h]

@[simp] theorem hubId?_hubName {id : String} (h : isHubId id.toList = true) :
    hubId? (hubName id) = some id :=
  hubId?_eq_some.2 ⟨rfl, h⟩

/-- The reserved predicates are those of the two reserved values. -/
theorem ofPredicate?_eq_some {predicate : String} {r : Reserved} :
    Reserved.ofPredicate? predicate = some r ↔ predicate = r.predicate := by
  have hne : Reserved.datetime.predicate ≠ Reserved.instant.predicate := by decide
  unfold Reserved.ofPredicate?
  constructor
  · intro h
    split at h
    · cases h
      assumption
    · split at h
      · cases h
        assumption
      · cases h
  · rintro rfl
    cases r
    · rw [if_pos rfl]
    · rw [if_neg hne, if_pos rfl]

end Switchboard.Name
