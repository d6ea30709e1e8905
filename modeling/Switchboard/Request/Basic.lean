import Switchboard.Request.Params
import Switchboard.Request.TagPath

/-!
# Requests

A request is a path with parameters:

* `/<root>/<dataset>/<read|update>/id/<hub id>`,
* `/<root>/<dataset>/<read|update>/path/<tag>/…/<leaf tag>`,
* `/<root>/<dataset>/<read|update>/query` with a parameter `-query`.

The path is percent-decoded before it is cut into segments. Slashes at its end do not count.
-/

namespace Switchboard

/-- What a request asks for. -/
inductive Operation
  | read
  | update
  deriving DecidableEq, Inhabited

/-- How a request names its hubs. -/
inductive Selector
  /-- The hub with an id. -/
  | id (id : String)
  /-- The hubs at the end of a tag path, with relations in a namespace. -/
  | path (path : TagPath) (space : String)
  /-- The hubs in the answer to a query. -/
  | query (text : String)
  deriving DecidableEq, Inhabited

/-- A request, read but not yet answered. -/
structure Request where
  operation : Operation
  dataset : String
  selector : Selector
  /-- The number of history lines wanted, 0 for all. -/
  history : Option Nat := none
  /-- Whether the current value is wanted although history was asked for. -/
  latest : Bool := false
  /-- The namespace given for predicates and relations. -/
  space : Option String := none
  deriving DecidableEq, Inhabited

namespace Request

/-- The operation that a path segment names, in any case. -/
def operation? (word : String) : Option Operation :=
  let w := String.ofList (word.toList.map Char.toLower)
  if w = "read" then some .read else if w = "update" then some .update else none

/-- The segments of a decoded path, without empty ones at its end. -/
def segments (path : List Char) : List String :=
  ((Text.fields '/' path).reverse.dropWhile List.isEmpty).reverse.map String.ofList

/-- The number of history lines that the parameters ask for. -/
def history? (p : Params) : Except RequestError (Option Nat) :=
  match p.first? Params.historyKey with
  | none => .ok none
  | some text =>
    match Decimal.unsigned64? (Text.trim text.toList) with
    | some n => .ok (some n)
    | none => .error (.invalidParam Params.historyKey text)

/-- Whether the parameters ask for the current value. -/
def latest? (p : Params) : Except RequestError Bool :=
  match p.first? Params.latestKey with
  | none => .ok false
  | some text =>
    match Decimal.signed64? (Text.trim text.toList) with
    | some i => .ok (i ≠ 0)
    | none => .error (.invalidParam Params.latestKey text)

/-- The selector of a tag path. -/
def pathSelector (rest : List String) (p : Params) : Except RequestError Selector := do
  let path ← TagPath.ofSegments rest (p.first? Params.linkKey)
  let space := (p.first? Params.namespaceKey).getD Name.tagBase
  if TagPath.isSafe space then return .path path space
  else throw (.invalidParam Params.namespaceKey space)

/-- The selector of a query. -/
def querySelector (decoded : String) (rest : List String) (p : Params) :
    Except RequestError Selector :=
  match rest, p.get? Params.queryKey with
  | _ :: _, _ => .error (.tooManyPathElements decoded)
  | [], none => .error .missingQuery
  | [], some [text] => .ok (.query text)
  | [], some _ => .error .duplicateQuery

/-- The selector that a word and the segments after it name. -/
def selector? (decoded word : String) (rest : List String) (p : Params) :
    Except RequestError Selector :=
  match word with
  | "id" =>
    match rest with
    | [id] => .ok (.id id)
    | _ => .error (.missingId decoded)
  | "path" => pathSelector rest p
  | "query" => querySelector decoded rest p
  | _ => .error (.undefinedSelector word)

/-- Reads a request. Of several faults the first one counts: the encoding of the path, the
parameters for history and current value, the number of segments, the operation, the selector. -/
def ofPath? (path : String) (p : Params) : Except RequestError Request :=
  match Text.Percent.decodePath? path.toList with
  | none => .error (.illegalPath path)
  | some chars => do
    let decoded := String.ofList chars
    let history ← history? p
    let latest ← latest? p
    match segments chars with
    | _ :: _ :: dataset :: word :: name :: rest =>
      match operation? word with
      | none => throw (.unknownOperation word)
      | some operation =>
        let selector ← selector? decoded name rest p
        return { operation, dataset, selector, history, latest, space := p.first? Params.namespaceKey }
    | _ => throw (.illegalPath decoded)

end Request

end Switchboard
