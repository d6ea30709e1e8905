import Switchboard.Datum.Nested

/-!
# Settings

Where history is kept, how many workers publish a commit, and how rates are sampled. Every
setting has a default. A settings text is a record of the settings that differ from it. Members
it does not know are ignored, a member given twice is refused. How many workers the machine runs
at once is no setting of the text: it comes with the machine.
-/

namespace Switchboard

/-- The settings of a switchboard, on a machine that runs `cores` workers at once. `givenWorkers` is
the number of workers as it was given. -/
structure Settings where
  historyDir : String := "./run/timeseries"
  givenWorkers : Nat := 1
  sampleIntervalMs : Nat := 1000
  leastWindowMs : Nat := 500
  startSampler : Bool := true
  cores : Nat := 1
  deriving DecidableEq, Inhabited

/-- Why no settings could be read: the file is missing or no text, or the text is malformed. -/
inductive SettingsError
  | unreadable
  | malformed
  deriving DecidableEq

namespace Settings

/-- A number of workers within the bounds of the machine. -/
def clampWorkers (s : Settings) (n : Nat) : Nat := max 1 (min n s.cores)

/-- The number of workers that publish a commit. -/
def workers (s : Settings) : Nat := s.clampWorkers s.givenWorkers

/-- The settings with another number of workers, kept within the bounds of the machine. -/
def withWorkers (s : Settings) (n : Nat) : Settings := { s with givenWorkers := s.clampWorkers n }

/-- The time between two samples of all rates, at least one millisecond. -/
def sampleInterval (s : Settings) : Nat := max 1 s.sampleIntervalMs * 1000000

/-- The time that a rate window has to exceed, in nanoseconds. -/
def leastWindow (s : Settings) : Nat := s.leastWindowMs * 1000000

/-- The number of an unsigned 64-bit setting. Of the marked integers only those of its own width
are meant. -/
def word? : Datum → Option Nat
  | .number (.integer i width) =>
    if width.all (· = Width.word64) ∧ Width.word64.holds i then some i.toNat else none
  | _ => none

/-- The settings after one member of a record. -/
def setMember (s : Settings) : String × Datum → Option Settings
  | ("history_dir", .text dir) => some { s with historyDir := dir }
  | ("history_dir", _) => none
  | ("commit_workers", d) => (word? d).map fun n => { s with givenWorkers := n }
  | ("rate_sample_interval_ms", d) => (word? d).map fun n => { s with sampleIntervalMs := n }
  | ("rate_min_window_ms", d) => (word? d).map fun n => { s with leastWindowMs := n }
  | ("start_sampler", .bool b) => some { s with startSampler := b }
  | ("start_sampler", _) => none
  | _ => some s

/-- The names of the settings in a record. -/
def keys : List String :=
  ["history_dir", "commit_workers", "rate_sample_interval_ms", "rate_min_window_ms",
    "start_sampler"]

/-- The members of a record of settings. Its name may be left out unless names are asked for. -/
def members? (named : Bool) : Datum → Option (List (String × Datum))
  | .record name ms => if nameFits name then some ms else none
  | .tuple name [] => if nameFits name then some [] else none
  | _ => none
where
  /-- Whether a record may have this name. -/
  nameFits : Option String → Bool
    | some name => name = "BrokerConfig"
    | none => !named

/-- The settings that a record gives on a machine. -/
def ofMembers? (cores : Nat) (ms : List (String × Datum)) : Option Settings :=
  if ((ms.map Prod.fst).filter keys.contains).Nodup then ms.foldlM setMember { cores } else none

/-- Reads a settings text on a machine. -/
def read (cores : Nat) (text : List Char) : Except SettingsError Settings :=
  match Datum.read text with
  | none => .error .malformed
  | some (features, d) =>
    match (members? (features.contains .namedRecords) d).bind (ofMembers? cores) with
    | some s => .ok s
    | none => .error .malformed

/-- Reads the content of a settings file, `none` if there is no file. -/
def load (cores : Nat) (content : Option (List UInt8)) : Except SettingsError Settings :=
  match content.bind Text.Utf8.decode? with
  | some text => read cores text
  | none => .error .unreadable

end Settings

end Switchboard
