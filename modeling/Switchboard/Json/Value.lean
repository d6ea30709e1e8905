import Switchboard.Json.Quoted

/-!
# JSON texts

The values of RFC 8259 and a reader for texts. Numbers keep their spelling. Members keep their
order, repeated names too. A string that names an unpaired surrogate has no characters.
-/

namespace Switchboard

/-- A JSON value. The content of a string is `none` if an unpaired surrogate is named in it. -/
inductive Json
  | null
  | bool (b : Bool)
  | number (spelling : List Char)
  | string (content : Option (List Char))
  | array (items : List Json)
  | object (members : List (Option (List Char) × Json))
  deriving Inhabited

namespace Json

/-- The text after the white space of the grammar. -/
def skipSpace (s : List Char) : List Char :=
  s.dropWhile fun c => c = ' ' || c = '\n' || c = '\t' || c = '\r'

/-- The digits at the start of a text, at least one, and the rest. -/
def readDigits (s : List Char) : Option (List Char × List Char) :=
  match s.takeWhile Char.isDigit with
  | [] => none
  | ds => some (ds, s.dropWhile Char.isDigit)

/-- The integer part of a number: no leading zero before another digit. -/
def readInteger : List Char → Option (List Char × List Char)
  | '0' :: s => some (['0'], s)
  | s => readDigits s

/-- The fraction of a number, which may be absent. -/
def readFraction : List Char → Option (List Char × List Char)
  | '.' :: s => (readDigits s).map fun p => ('.' :: p.1, p.2)
  | s => some ([], s)

/-- The exponent of a number, which may be absent. -/
def readExponent : List Char → Option (List Char × List Char)
  | c :: s =>
    if c = 'e' ∨ c = 'E' then
      match s with
      | d :: t =>
        if d = '+' ∨ d = '-' then (readDigits t).map fun p => (c :: d :: p.1, p.2)
        else (readDigits s).map fun p => (c :: p.1, p.2)
      | [] => none
    else some ([], c :: s)
  | [] => some ([], [])

/-- The spelling of a number without its sign, and the rest. -/
def readMagnitude (s : List Char) : Option (List Char × List Char) := do
  let (i, s) ← readInteger s
  let (f, s) ← readFraction s
  let (e, s) ← readExponent s
  return (i ++ f ++ e, s)

/-- The spelling of a number, and the rest. -/
def readNumber : List Char → Option (List Char × List Char)
  | '-' :: s => (readMagnitude s).map fun p => ('-' :: p.1, p.2)
  | s => readMagnitude s

mutual

/-- Reads a value and the text after it. The fuel bounds the nesting and the items together. -/
def readValue : Nat → List Char → Option (Json × List Char)
  | 0, _ => none
  | n + 1, s =>
    match skipSpace s with
    | 'n' :: 'u' :: 'l' :: 'l' :: r => some (.null, r)
    | 't' :: 'r' :: 'u' :: 'e' :: r => some (.bool true, r)
    | 'f' :: 'a' :: 'l' :: 's' :: 'e' :: r => some (.bool false, r)
    | '"' :: r => (readPieces r).map fun p => (.string (joinPieces p.1), p.2)
    | '[' :: r =>
      match skipSpace r with
      | ']' :: t => some (.array [], t)
      | _ => (readItems n r).map fun p => (.array p.1, p.2)
    | '{' :: r =>
      match skipSpace r with
      | '}' :: t => some (.object [], t)
      | _ => (readMembers n r).map fun p => (.object p.1, p.2)
    | r => (readNumber r).map fun p => (.number p.1, p.2)

/-- Reads one or more items and the closing bracket. -/
def readItems : Nat → List Char → Option (List Json × List Char)
  | 0, _ => none
  | n + 1, s =>
    match readValue n s with
    | none => none
    | some (v, r) =>
      match skipSpace r with
      | ',' :: t => (readItems n t).map fun p => (v :: p.1, p.2)
      | ']' :: t => some ([v], t)
      | _ => none

/-- Reads one or more members and the closing brace. -/
def readMembers : Nat → List Char → Option (List (Option (List Char) × Json) × List Char)
  | 0, _ => none
  | n + 1, s =>
    match skipSpace s with
    | '"' :: q =>
      match readPieces q with
      | none => none
      | some (ps, q) =>
        match skipSpace q with
        | ':' :: r =>
          match readValue n r with
          | none => none
          | some (v, r) =>
            match skipSpace r with
            | ',' :: t => (readMembers n t).map fun p => ((joinPieces ps, v) :: p.1, p.2)
            | '}' :: t => some ([(joinPieces ps, v)], t)
            | _ => none
        | _ => none
    | _ => none

end

/-- Reads a text that is one value. Each character read uses at most two units of fuel. -/
def read (s : List Char) : Option Json :=
  match readValue (2 * s.length + 2) s with
  | some (v, r) => if skipSpace r = [] then some v else none
  | none => none

end Json

end Switchboard
