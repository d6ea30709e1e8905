import Switchboard.Board.Registry

/-!
# Transactions

A transaction fixes its time when it is opened. Writes apply at once and mark their hub as
touched. Finishing publishes each touched hub once, as of the time of the transaction. A
transaction that is dropped publishes nothing.

Several workers share the hubs in parts of equal length, in order, and publish their parts at the
same time. `Board.finish` publishes one part after the other. That is what a single worker does, and
one of the orders in which the steps of several workers can come, which are those of
`Board.finishBy`.

* `flatten_workParts`: sharing neither loses, repeats nor reorders hubs.
-/

namespace Switchboard

namespace Transaction

/-- The number of hubs touched so far. -/
def touchedCount (tx : Transaction) : Nat := tx.touched.size

/-- Whether the hub with a name was touched. -/
def isTouched (tx : Transaction) (name : String) : Bool := tx.touched.contains name

/-- The hubs touched so far, in order of their first write. -/
def hubs (tx : Transaction) : List HubId := tx.touched.values

end Transaction

/-- The parts of a list for a number of workers: as many items for each as the first needs. -/
def shares {α : Type} (workers : Nat) (xs : List α) : List (List α) :=
  let size := (xs.length + workers - 1) / workers
  (List.range workers).map fun i => (xs.drop (i * size)).take size

/-- The parts that workers get. A single worker, and a single hub, need no sharing. -/
def workParts {α : Type} (workers : Nat) (xs : List α) : List (List α) :=
  if 1 < workers ∧ 1 < xs.length then (shares workers xs).filter (!·.isEmpty) else [xs]

theorem flatten_parts {α : Type} (n size : Nat) (xs : List α) :
    ((List.range n).map fun i => (xs.drop (i * size)).take size).flatten = xs.take (n * size) := by
  induction n with
  | zero => simp
  | succ n ih =>
    rw [List.range_succ, List.map_append, List.flatten_append, ih, Nat.succ_mul, List.take_add]
    simp

theorem flatten_shares {α : Type} {workers : Nat} (h : 0 < workers) (xs : List α) :
    (shares workers xs).flatten = xs := by
  rw [shares, flatten_parts]
  refine List.take_of_length_le ?_
  have hd := Nat.div_add_mod (xs.length + workers - 1) workers
  have hm := Nat.mod_lt (xs.length + workers - 1) h
  have hc := Nat.mul_comm workers ((xs.length + workers - 1) / workers)
  omega

/-- **Sharing neither loses, repeats nor reorders hubs.** -/
theorem flatten_workParts {α : Type} {workers : Nat} (xs : List α) :
    (workParts workers xs).flatten = xs := by
  unfold workParts
  split
  · rename_i h
    rw [List.flatten_filter_not_isEmpty, flatten_shares (by omega)]
  · simp

namespace Board

/-- Opens a transaction at the present time. -/
def openTransaction (b : Board) (kind : UpdateKind) : Board :=
  { b with transaction := some { openedAt := b.wall, kind } }

/-- Marks a hub as touched in the open transaction. -/
def touch (b : Board) (h : HubId) : Board :=
  { b with transaction := b.transaction.map fun tx =>
      { tx with touched := tx.touched.putNew (b.hub h).name h } }

/-- Writes values to the leaf under a predicate of a hub, within the open transaction. The flag
says whether there is such a leaf. Otherwise the hub is not touched. -/
def setValues (b : Board) (h : HubId) (predicate : String) (vs : List Literal) : Board × Bool :=
  match b.transaction, (b.hub h).table.byPredicate.get? predicate with
  | some tx, some l => ((b.modifyLeaf l (·.writeAll vs tx.openedAt)).touch h, true)
  | _, _ => (b, false)

/-- Writes one value to the leaf under a predicate of a hub, within the open transaction. -/
def setValue (b : Board) (h : HubId) (predicate : String) (v : Literal) : Board × Bool :=
  b.setValues h predicate [v]

/-- Publishes hubs in order. -/
def publishAll (b : Board) (hubs : List HubId) (time : Timestamp) : Board :=
  hubs.foldl (fun b h => b.publish h time) b

/-- Publishes the touched hubs, one part after the other, and closes the transaction. The hubs are
counted. -/
def finish (b : Board) : Board × Nat :=
  match b.transaction with
  | none => (b, 0)
  | some tx =>
    let parts := workParts b.settings.workers tx.hubs
    let b := parts.foldl (fun b part => b.publishAll part tx.openedAt) b
    -- open until the last hub is published
    ({ b with transaction := none }, tx.hubs.length)

/-- Closes the transaction without publishing. -/
def abandon (b : Board) : Board := { b with transaction := none }

end Board

end Switchboard
