import Switchboard.Board.Registry

/-!
# Time and sampling

All meters of a board are sampled together: on request, and by the sampler each time its
interval has passed. A meter that is gone falls out of the set.
-/

namespace Switchboard

namespace Board

/-- Samples a meter at a time of the steady clock. If the peak rose, its owner is published. The
flag says whether it did. -/
def sample (b : Board) (l : LeafId) (now : Int) : Board × Bool :=
  match (b.leaf l).body with
  | .meter m =>
    match m.sample now with
    | (m, true) =>
      let b := b.modifyLeaf l ({ · with body := .meter m, updatedAt := some b.wall })
      (b.refresh publish l, true)
    | (m, false) => (b.modifyLeaf l ({ · with body := .meter m }), false)
  | _ => (b, false)

/-- Samples meters in order, and counts those whose peak rose. -/
def sampleEach (b : Board) (ls : List LeafId) (now : Int) : Board × Nat :=
  ls.foldl (fun (b, raised) l =>
    match b.sample l now with
    | (b, true) => (b, raised + 1)
    | (b, false) => (b, raised)) (b, 0)

/-- Samples the meters of a set that are still held. The others leave the set. -/
def sampleSet (b : Board) (set : List LeafId) (now : Int) : Board × List LeafId × Nat :=
  let live := set.filter b.isLeafHeld
  let (b, raised) := b.sampleEach live now
  (b, live, raised)

/-- Samples all meters of the board now. -/
def sampleAll (b : Board) : Board × Nat :=
  let live := b.registry.meters.filter b.isLeafHeld
  { b with registry := { b.registry with meters := live } }.sampleEach live b.now

/-- Lets time pass on both clocks. If a sampling is due, it is done once, at the new time. -/
def advance (b : Board) (nanos : Int) : Board :=
  let b := { b with wall := .ofNanos (b.wall.totalNanos + nanos), now := b.now + nanos }
  match b.sampleDue with
  | some due =>
    if due ≤ b.now then { b.sampleAll.1 with sampleDue := some (b.now + b.settings.sampleInterval) }
    else b
  | none => b

/-- Sets the wall clock. -/
def setWall (b : Board) (t : Timestamp) : Board := { b with wall := t }

/-- Stops the sampler. -/
def stopSampler (b : Board) : Board := { b with sampleDue := none }

end Board

end Switchboard
