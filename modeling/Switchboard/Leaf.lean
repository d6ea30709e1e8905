import Switchboard.Identity
import Switchboard.Literal.Basic
import Switchboard.Rate
import Switchboard.Time

/-!
# Leaves

A leaf holds the present value of one named quantity. Scalars and arrays are written. A counter
moves by steps and ignores writes. A meter counts events and shows the highest rate that its
windows have had since it was last written, which resets it.

* `Leaf.values_ne_nil`: a leaf that is not an array has exactly one value.
-/

namespace Switchboard

/-- A meter of the peak rate of events. `least` is the time that a window has to exceed. -/
structure Meter where
  count : Int := 0
  peak : Int := 0
  least : Nat
  window : RateWindow := {}
  deriving DecidableEq, Inhabited

namespace Meter

/-- The least window of a meter for which none is given: half a second. -/
def defaultLeast : Nat := 500000000

/-- Closes the window at `now`. The flag says whether its rate raised the peak. -/
def sample (m : Meter) (now : Int) : Meter × Bool :=
  match m.window.observe m.count now m.least with
  | (w, some rate) =>
    if m.peak < rate then ({ m with window := w, peak := rate }, true)
    else ({ m with window := w }, false)
  | (w, none) => ({ m with window := w }, false)

end Meter

/-- The content of a leaf. -/
inductive LeafBody
  | scalar (value : Literal)
  | array (values : List Literal)
  | counter (count : Int)
  | meter (m : Meter)
  deriving DecidableEq, Inhabited

/-- A named quantity. `owner` is the hub that the leaf was last registered on, which a counter or
meter publishes when it changes by itself. -/
structure Leaf where
  name : String
  body : LeafBody
  updatedAt : Option Timestamp := none
  owner : Option HubId := none
  deriving DecidableEq, Inhabited

namespace Leaf

/-- A scalar that has not been set. -/
def scalar (name : String) : Leaf := { name, body := .scalar .placeholder }

/-- An empty array. -/
def array (name : String) : Leaf := { name, body := .array [] }

/-- A counter at 0. -/
def counter (name : String) : Leaf := { name, body := .counter 0 }

/-- A meter whose first window opens at `now`. -/
def meter (name : String) (least : Nat) (now : Int) : Leaf :=
  { name, body := .meter { least, window := { openedAt := now } } }

/-- The present values. -/
def values (l : Leaf) : List Literal :=
  match l.body with
  | .scalar v => [v]
  | .array vs => vs
  | .counter n => [.integer n]
  | .meter m => [.integer m.peak]

/-- Whether the leaf holds an array. -/
def isArray (l : Leaf) : Bool :=
  match l.body with
  | .array _ => true
  | _ => false

/-- Replaces the content by values. A scalar keeps the first, or the placeholder if there is
none. A meter is reset. A counter stays as it is, the time of its last change too. -/
def writeAll (l : Leaf) (vs : List Literal) (time : Timestamp) : Leaf :=
  match l.body with
  | .scalar _ => { l with body := .scalar (vs.headD .placeholder), updatedAt := some time }
  | .array _ => { l with body := .array vs, updatedAt := some time }
  | .counter _ => l
  | .meter m => { l with body := .meter { m with peak := 0 }, updatedAt := some time }

/-- Replaces the content by one value. -/
def write (l : Leaf) (v : Literal) (time : Timestamp) : Leaf := l.writeAll [v] time

/-- Makes a hub the owner. -/
def attach (l : Leaf) (owner : HubId) : Leaf := { l with owner := some owner }

theorem values_ne_nil {l : Leaf} (h : l.isArray = false) : l.values.length = 1 := by
  unfold isArray at h
  unfold values
  split <;> simp_all

end Leaf

end Switchboard
