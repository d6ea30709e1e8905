import Switchboard.Name
import Switchboard.Series.Disk
import Switchboard.Series.Lines
import Switchboard.Series.Tail

/-!
# Time series

The history of a hub: a file named by the id of the hub, to which a line is appended at each
publication. A series whose file cannot be opened drops what is written to it.
-/

namespace Switchboard

/-- The log of a hub. `file` is the file it appends to, if that could be opened. Reading goes by
the name of the file. -/
structure TimeSeries where
  hubName : String
  id : String
  file : Option FileId
  deriving DecidableEq, Inhabited

/-- Why a name is refused. -/
inductive NameError
  | illegalHubName (name : String)
  | illegalLeafName (name : String)
  deriving DecidableEq

/-- The wording of a refusal. -/
def NameError.message : NameError → String
  | .illegalHubName name => "Illegal hub name: " ++ name
  | .illegalLeafName name => "Illegal leaf name: " ++ name

namespace TimeSeries

/-- Opens the series of a hub. The name has to lie in the hub namespace. A file that cannot be
opened does not prevent it. -/
def openAt (d : Disk) (hubName : String) : Except NameError (Disk × TimeSeries) :=
  match Name.hubId? hubName with
  | none => .error (.illegalHubName hubName)
  | some id =>
    let (d, file) := d.openFile id
    .ok (d, ⟨hubName, id, file⟩)

/-- Whether written lines are kept. -/
def isWritable (s : TimeSeries) : Bool := s.file.isSome

/-- The path of the file below the directory. The id `.` names the directory itself. -/
def path (s : TimeSeries) : String := if s.id = "." then "" else s.id

/-- Appends a line. -/
def write (s : TimeSeries) (d : Disk) (line : String) : Disk :=
  match s.file with
  | some f => d.append f (Lines.write line)
  | none => d

/-- All lines, oldest first. -/
def history (s : TimeSeries) (d : Disk) : List String :=
  match d.read? s.id with
  | some bytes => Lines.read bytes
  | none => []

/-- The last lines up to a limit, oldest first. A limit of 0 gives all. -/
def tail (s : TimeSeries) (d : Disk) (limit : Nat) : List String :=
  if limit = 0 then s.history d
  else ((TailBuffer.empty limit).extend (s.history d)).toList

end TimeSeries

end Switchboard
