import Switchboard.Datum.Basic
import Switchboard.Text.Hex
import Switchboard.Text.Utf8

/-!
# Quoted texts and characters

Texts and byte texts in double quotes with escapes, or after an `r` without them, and characters
and bytes in single quotes. A backslash at the end of a line joins a quoted text with what follows
the indentation of the next one.
-/

namespace Switchboard.Datum

/-- A part of a quoted text: a character, a byte given by its value, or the gap between two
lines. -/
inductive Part
  | char (c : Char)
  | byte (b : UInt8)
  | gap

/-- The character of an escape up to six hexadecimal digits in braces. -/
def readScalar (s : List Char) : Option (Char × List Char) :=
  let ds := s.takeWhile (· ≠ '\x7d')
  match Text.Hex.number? ds, s.dropWhile (· ≠ '\x7d') with
  | some n, _ :: rest =>
    if 0 < ds.length ∧ ds.length ≤ 6 ∧ n.isValidChar then some (Char.ofNat n, rest) else none
  | _, _ => none

/-- The part that an escape stands for, after its backslash. -/
def readEscape : Reader Part
  | 'x' :: a :: b :: s => (Text.Hex.number? [a, b]).map fun n => (.byte (UInt8.ofNat n), s)
  | 'u' :: '\x7b' :: s => (readScalar s).map fun p => (.char p.1, p.2)
  | c :: s =>
    match c with
    | '\'' | '"' | '\\' => some (.char c, s)
    | 'n' => some (.char '\n', s)
    | 'r' => some (.char '\r', s)
    | 't' => some (.char '\t', s)
    | '0' => some (.char '\x00', s)
    | _ => none
  | [] => none

/-- The characters that indent a line. -/
def isIndent (c : Char) : Bool := c = ' ' || c = '\t' || c = '\n' || c = '\r'

/-- The text after the end of a line and the indentation of the next one. -/
def afterLineEnd : List Char → Option (List Char)
  | '\n' :: s | '\r' :: '\n' :: s => some (s.dropWhile isIndent)
  | _ => none

/-- The parts of a quoted text after its opening quote. Each takes at least one character, so that
the number of characters is enough `fuel`. -/
def readParts : (fuel : Nat) → Reader (List Part)
  | 0, _ | _ + 1, [] => none
  | _ + 1, '"' :: s => some ([], s)
  | n + 1, '\\' :: s =>
    match afterLineEnd s with
    | some t => (readParts n t).map fun q => (.gap :: q.1, q.2)
    | none =>
      match readEscape s with
      | some (p, t) => (readParts n t).map fun q => (p :: q.1, q.2)
      | none => none
  | n + 1, c :: s => (readParts n s).map fun q => (.char c :: q.1, q.2)

/-- The characters of the parts. Neighbouring bytes have to be well-formed UTF-8. `bytes` are
those seen last. -/
def joinParts (bytes : List UInt8) : List Part → Option (List Char)
  | .byte b :: ps => joinParts (bytes ++ [b]) ps
  | .char c :: ps =>
    match Text.Utf8.decode? bytes, joinParts [] ps with
    | some s, some t => some (s ++ c :: t)
    | _, _ => none
  | .gap :: ps =>
    match Text.Utf8.decode? bytes, joinParts [] ps with
    | some s, some t => some (s ++ t)
    | _, _ => none
  | [] => Text.Utf8.decode? bytes

/-- The text up to a quote that is followed by `hashes`. -/
def cutAtQuote (hashes : List Char) : List Char → Option (List Char × List Char)
  | [] => none
  | c :: s =>
    if c = '"' ∧ hashes.isPrefixOf s then some ([], s.drop hashes.length)
    else (cutAtQuote hashes s).map fun p => (c :: p.1, p.2)

/-- A text without escapes after its `r`: hashes, a quote, and the text up to a quote followed
by as many hashes. -/
def readRaw (s : List Char) : Option (List Char × List Char) :=
  match s.dropWhile (· = '#') with
  | '"' :: t => cutAtQuote (s.takeWhile (· = '#')) t
  | _ => none

/-- A quoted text, with or without escapes. -/
def readText : Reader String
  | '"' :: s =>
    match readParts s.length s with
    | some (ps, rest) => (joinParts [] ps).map fun t => (String.ofList t, rest)
    | none => none
  | 'r' :: s => (readRaw s).map fun p => (String.ofList p.1, p.2)
  | _ => none

/-- The text after a byte text, with or without escapes. -/
def afterBytes : List Char → Option (List Char)
  | 'b' :: '"' :: s => (readParts s.length s).map Prod.snd
  | 'b' :: 'r' :: s => (readRaw s).map Prod.snd
  | _ => none

/-- A character in single quotes. One that is given by its value is one of plain text. -/
def readChar : Reader Char
  | '\'' :: '\\' :: s =>
    match readEscape s with
    | some (.char c, '\'' :: t) => some (c, t)
    | some (.byte b, '\'' :: t) => if b < 128 then some (Char.ofNat b.toNat, t) else none
    | _ => none
  | '\'' :: c :: '\'' :: s => some (c, s)
  | _ => none

/-- A byte: a character of plain text in single quotes after a `b`, or any value. -/
def readByte : Reader UInt8
  | 'b' :: '\'' :: '\\' :: 'u' :: _ => none
  | 'b' :: '\'' :: '\\' :: s =>
    match readEscape s with
    | some (.char c, '\'' :: t) => some (UInt8.ofNat c.toNat, t)
    | some (.byte b, '\'' :: t) => some (b, t)
    | _ => none
  | 'b' :: '\'' :: c :: '\'' :: s =>
    if c.toNat < 128 then some (UInt8.ofNat c.toNat, s) else none
  | _ => none

end Switchboard.Datum
