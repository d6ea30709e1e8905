import Switchboard.Datum.Header
import Switchboard.Datum.Number

/-!
# Data within data

Lists, tables, options, tuples and records, which hold data. They may be nested up to a depth: an
option is one level deep, any other of them two, itself and what stands in it. So the readers of a
depth are made of those of all lesser depths.
-/

namespace Switchboard.Datum

/-! ### Sequences -/

/-- Reads elements up to a closing character, with commas between them. Each takes at least one
character, so that the number of characters is enough `fuel`. -/
def readElements {α : Type} (close : Char) (element : Reader α) : (fuel : Nat) → Reader (List α)
  | 0, _ => none
  | n + 1, s =>
    match skip s with
    | none | some [] => none
    | some (c :: t) =>
      if c = close then some ([], t)
      else match element (c :: t) with
        | none => none
        | some (x, r) =>
          match skip r with
          | some (',' :: r) => (readElements close element n r).map fun p => (x :: p.1, p.2)
          | some (e :: r) => if e = close then some ([x], r) else none
          | _ => none

/-- Reads elements up to a closing character. -/
def readUpTo {α : Type} (close : Char) (element : Reader α) (s : List Char) :
    Option (List α × List Char) :=
  readElements close element s.length s

/-- A datum after a colon. -/
def readValue (datum : Reader Datum) (s : List Char) : Option (Datum × List Char) :=
  match skip s with
  | some (':' :: t) => (skip t).bind datum
  | _ => none

/-- A member of a record: a word, a colon and a datum. -/
def readMember (datum : Reader Datum) (s : List Char) : Option ((String × Datum) × List Char) :=
  match readWord s with
  | some (key, t) => (readValue datum t).map fun p => ((key, p.1), p.2)
  | none => none

/-- An entry of a table: two data with a colon between them. -/
def readEntry (datum : Reader Datum) (s : List Char) : Option ((Datum × Datum) × List Char) :=
  match datum s with
  | some (key, t) => (readValue datum t).map fun p => ((key, p.1), p.2)
  | none => none

/-! ### Parentheses -/

/-- What stands in parentheses: one datum, the items of a tuple, or the members of a record. -/
inductive Shape
  | single
  | items
  | members
  deriving DecidableEq

/-- Whether the members of a record come first: a word and a colon. -/
def isMemberAhead (s : List Char) : Bool :=
  ((readWord s).bind fun w => skip w.2).any (·.head? = some ':')

/-- The text after a quoted character, text or byte text. -/
def afterQuoted (s : List Char) : Option (List Char) :=
  ((readChar s).map Prod.snd).or (((readText s).map Prod.snd).or (afterBytes s))

/-- The shape of what stands in parentheses without members: one datum, unless a comma comes that
something follows. `depth` brackets are open within the parentheses. Blanks, comments and quoted
texts are passed over. -/
def shapeFrom : (fuel depth : Nat) → List Char → Option Shape
  | 0, _, _ => none
  | n + 1, d, s =>
    match skip s with
    | none | some [] => none
    | some (c :: t) =>
      match afterQuoted (c :: t) with
      | some r => shapeFrom n d r
      | none =>
        if c = '(' ∨ c = '[' ∨ c = '\x7b' then shapeFrom n (d + 1) t
        else if c = ')' ∨ c = ']' ∨ c = '\x7d' then
          match d with
          | 0 => some .single
          | d + 1 => shapeFrom n d t
        else if c = ',' ∧ d = 0 then
          (skip t).map fun r => if r.head? = some ')' then .single else .items
        else shapeFrom n d t

/-- The shape of what stands in parentheses, which start before the text. -/
def shape? (s : List Char) : Option Shape :=
  if isMemberAhead s then some .members
  else shapeFrom s.length 0 (((readWord s).map Prod.snd).getD s)

/-- What follows an opening parenthesis: the members of a record if they come first, else the items
of a tuple. -/
def readBody (name : Option String) (datum : Reader Datum) (s : List Char) :
    Option (Datum × List Char) :=
  match skip s with
  | none => none
  | some s =>
    if isMemberAhead s then
      (readUpTo ')' (readMember datum) s).map fun p => (.record name p.1, p.2)
    else (readUpTo ')' datum s).map fun p => (.tuple name p.1, p.2)

/-! ### Depth -/

/-- The reader of what stands in a list, a table, a tuple or a record, `none` if there is no depth
left for one of them. `deeper` are the readers of lesser depths, the greatest first. -/
def element? : (deeper : List (Reader Datum)) → Option (Reader Datum)
  | [] => none
  | [_] => some fun _ => none
  | _ :: element :: _ => some element

/-- What follows the opening parenthesis of an option: one datum or, if contents may be bare, what a
tuple or a record would hold. -/
def readContent (bare : Bool) (deeper : List (Reader Datum)) (s : List Char) :
    Option (Datum × List Char) :=
  match deeper, skip s with
  | content :: deeper, some s =>
    let single := match content s with
      | some (d, t) => (skipEnd t).map (d, ·)
      | none => none
    if bare then
      if s.head? = some ')' then some (.tuple none [], s.tail)
      else match shape? s with
        | some .single => single
        | some _ => (element? deeper).bind fun element => readBody none element s
        | none => none
    else single
  | _, _ => none

/-- An option after its word. Its parentheses may be left out if a text asks for that. -/
def readOption (features : List Feature) (deeper : List (Reader Datum)) (s : List Char) :
    Option (Datum × List Char) :=
  let inner := match skip s, deeper with
    | some ('(' :: t), _ => readContent (features.contains .bareContents) deeper t
    | some t, content :: _ => if features.contains .bareOptions then content t else none
    | _, _ => none
  inner.map fun p => (.option (some p.1), p.2)

/-- The words that are a datum of their own. -/
def constants : List (String × Datum) :=
  [("true", .bool true), ("false", .bool false), ("None", .option none)]

/-- A datum that starts with a bracket or a quote. -/
def readEnclosed (deeper : List (Reader Datum)) (s : List Char) : Option (Datum × List Char) :=
  match s with
  | '(' :: ')' :: t => some (.tuple none [], t)
  | '(' :: t => (element? deeper).bind fun e => readBody none e t
  | '[' :: t => (element? deeper).bind fun e =>
    (readUpTo ']' e t).map fun p => (.list p.1, p.2)
  | '\x7b' :: t => (element? deeper).bind fun e =>
    (readUpTo '\x7d' (readEntry e) t).map fun p => (.table p.1, p.2)
  | '\'' :: _ => (readChar s).map fun p => (.char p.1, p.2)
  | 'b' :: _ => (afterBytes s).map (.bytes, ·)
  | _ => (readText s).map fun p => (.text p.1, p.2)

/-- Reads a datum that may hold the data of lesser depths. -/
def readAt (features : List Feature) (deeper : List (Reader Datum)) (s : List Char) :
    Option (Datum × List Char) :=
  match constants.findSome? fun c => (afterWord c.1 s).map (c.2, ·) with
  | some r => some r
  | none =>
    match afterWord "Some" s with
    | some t => readOption features deeper t
    | none =>
      if startsNumber s then readNumeric s
      else match readWord s with
        | none => readEnclosed deeper s
        | some (name, t) =>
          match skip t with
          | none => none
          | some ('(' :: t) => (element? deeper).bind fun e => readBody (some name) e t
          | some t => some (.word name, t)

/-- The readers of all depths below `depth`, the greatest first. -/
def readers (features : List Feature) : (depth : Nat) → List (Reader Datum)
  | 0 => []
  | n + 1 =>
    let deeper := readers features n
    readAt features deeper :: deeper

/-- The number of levels that data may be nested. -/
def maxDepth : Nat := 128

/-- Reads a text that is one datum, after the features it asks for. -/
def read (s : List Char) : Option (List Feature × Datum) :=
  match readHeader (s.length + 1) s with
  | none => none
  | some (features, t) =>
    match readAt features (readers features maxDepth) t with
    | some (d, r) => if skip r = some [] then some (features, d) else none
    | none => none

end Switchboard.Datum
