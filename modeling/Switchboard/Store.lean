/-!
# Stores

A store holds the objects that are told apart by identity: leaves, hubs, consumers, files.
An identity is the index of a cell. Every cell has a content, the default one until
something is put there, so reading and writing need no side condition.

* `Store.get_put`: a cell holds what was put there, and no other cell is affected.
* `Store.get_add`: a new object takes the first unused cell.
-/

namespace Switchboard

universe u

/-- Cells numbered from 0. All but finitely many hold the default content. -/
structure Store (α : Type u) where
  cells : List α := []

namespace Store

variable {α : Type u}

instance : Inhabited (Store α) := ⟨{}⟩

/-- The number of cells in use, which is the first unused index. -/
def size (s : Store α) : Nat := s.cells.length

variable [Inhabited α]

/-- The content of a cell. -/
def get (s : Store α) (i : Nat) : α := s.cells.getD i default

/-- The cells after `a` is put into cell `i`. -/
def putCell (a : α) : Nat → List α → List α
  | 0, [] => [a]
  | 0, _ :: xs => a :: xs
  | i + 1, [] => default :: putCell a i []
  | i + 1, x :: xs => x :: putCell a i xs

/-- Puts `a` into cell `i`. -/
def put (s : Store α) (i : Nat) (a : α) : Store α := ⟨putCell a i s.cells⟩

/-- Applies `f` to the content of cell `i`. -/
def modify (s : Store α) (i : Nat) (f : α → α) : Store α := s.put i (f (s.get i))

/-- Puts `a` into the first unused cell. -/
def add (s : Store α) (a : α) : Store α := s.put s.size a

theorem getD_putCell (a : α) (i j : Nat) (xs : List α) :
    (putCell a i xs).getD j default = if i = j then a else xs.getD j default := by
  induction i generalizing j xs with
  | zero => cases xs <;> cases j <;> simp [putCell]
  | succ i ih =>
    cases xs with
    | nil =>
      cases j with
      | zero => simp [putCell]
      | succ j => simpa [putCell] using ih j []
    | cons x xs =>
      cases j with
      | zero => simp [putCell]
      | succ j => simpa [putCell] using ih j xs

theorem length_putCell (a : α) (i : Nat) (xs : List α) :
    (putCell a i xs).length = max (i + 1) xs.length := by
  induction i generalizing xs with
  | zero => cases xs <;> simp [putCell]
  | succ i ih => cases xs <;> simp [putCell, ih]

theorem putCell_getD {i : Nat} {xs : List α} (hi : i < xs.length) :
    putCell (xs.getD i default) i xs = xs := by
  induction xs generalizing i with
  | nil => cases hi
  | cons x xs ih =>
    cases i with
    | zero => rfl
    | succ i => exact congrArg (x :: ·) (ih (Nat.lt_of_succ_lt_succ hi))

/-- **A cell holds what was put there**, and no other cell is affected. -/
theorem get_put (s : Store α) (i j : Nat) (a : α) :
    (s.put i a).get j = if i = j then a else s.get j :=
  getD_putCell a i j s.cells

@[simp] theorem get_put_self (s : Store α) (i : Nat) (a : α) : (s.put i a).get i = a := by
  simp [get_put]

theorem size_put (s : Store α) (i : Nat) (a : α) : (s.put i a).size = max (i + 1) s.size :=
  length_putCell a i s.cells

/-- To put back what a cell holds changes nothing. -/
theorem put_get {s : Store α} {i : Nat} (hi : i < s.size) : s.put i (s.get i) = s :=
  congrArg Store.mk (putCell_getD hi)

/-- **A new object takes the first unused cell.** -/
theorem get_add (s : Store α) (a : α) (j : Nat) :
    (s.add a).get j = if s.size = j then a else s.get j :=
  get_put s s.size j a

theorem size_add (s : Store α) (a : α) : (s.add a).size = s.size + 1 := by
  rw [add, size_put]; omega

end Store

end Switchboard
