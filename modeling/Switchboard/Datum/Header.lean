import Switchboard.Datum.Blank
import Switchboard.Datum.Quoted
import Switchboard.Datum.Word

/-!
# Headers of settings texts

A settings text may start with attributes `#![…]`: one asks for features of the notation, others
name the type or the schema of what follows, which changes nothing.
-/

namespace Switchboard

/-- What a settings text may ask for. -/
inductive Feature
  /-- The item of a tuple of one stands for the tuple. No setting is such a tuple. -/
  | bareTuples
  /-- An option needs no parentheses. -/
  | bareOptions
  /-- The content of an option may be what a tuple or a record would hold. -/
  | bareContents
  /-- A record has to be named. -/
  | namedRecords
  deriving DecidableEq, Inhabited

namespace Feature

/-- The name that a text asks for a feature by. -/
def name : Feature → String
  | bareTuples => "unwrap_newtypes"
  | bareOptions => "implicit_some"
  | bareContents => "unwrap_variant_newtypes"
  | namedRecords => "explicit_struct_names"

/-- All features. -/
def all : List Feature :=
  [bareTuples, bareOptions, bareContents, namedRecords]

/-- The feature of a name. -/
def ofName? (s : String) : Option Feature := all.find? (·.name = s)

end Feature

namespace Datum

/-- The text after a mark and the blanks that follow it. -/
def skipMark (mark : String) (s : List Char) : Option (List Char) :=
  if mark.toList.isPrefixOf s then skip (s.drop mark.toList.length) else none

/-- The features up to a closing parenthesis, with commas between them. Each takes at least one
character, so that the number of characters is enough `fuel`. -/
def readFeatures : (fuel : Nat) → Reader (List Feature)
  | 0, _ => none
  | n + 1, s =>
    match readWord s with
    | none => none
    | some (name, t) =>
      match Feature.ofName? name, skip t with
      | some f, some (')' :: t) => some ([f], t)
      | some f, some (',' :: t) =>
        match skip t with
        | some (')' :: t) => some ([f], t)
        | some t => (readFeatures n t).map fun p => (f :: p.1, p.2)
        | none => none
      | _, _ => none

/-- The content of an attribute: the features that it asks for. -/
def readAttribute (s : List Char) : Option (List Feature × List Char) :=
  match skipMark "enable" s with
  | some t => do
    let t ← skipMark "(" t
    readFeatures t.length t
  | none => do
    let t ← (skipMark "type" s).or (skipMark "schema" s)
    let t ← skipMark "=" t
    let (_, t) ← readText t
    return ([], t)

/-- The features asked for at the start of a text, in any number of attributes. -/
def readHeader : (fuel : Nat) → Reader (List Feature)
  | 0, _ => none
  | n + 1, s =>
    match skip s with
    | some ('#' :: t) => do
      let t ← skip t
      let t ← skipMark "!" t
      let t ← skipMark "[" t
      let (features, t) ← readAttribute t
      let t ← skip t
      let t ← skipMark "]" t
      let (more, t) ← readHeader n t
      return (features ++ more, t)
    | some t => some ([], t)
    | none => none

end Datum

end Switchboard
