/-!
# Tail buffers

A buffer of fixed capacity that keeps the items pushed last. The slots form a ring: once they
are full, a new item takes the slot of the oldest one.

* `toList_extend`: what is held are the last items, as many as there is room for.
-/

namespace Switchboard

universe u

/-- A ring of at most `capacity` slots. `head` is the slot of the oldest item once all are full. -/
structure TailBuffer (α : Type u) where
  capacity : Nat
  slots : List α := []
  head : Nat := 0
  deriving Inhabited

/-- Why a buffer cannot be made. -/
inductive TailBuffer.Error
  | noCapacity
  deriving DecidableEq

/-- The wording of a refusal. -/
def TailBuffer.Error.message : TailBuffer.Error → String
  | .noCapacity => "Capacity must be greater than 0"

namespace TailBuffer

variable {α : Type u}

/-- An empty buffer. -/
def empty (capacity : Nat) : TailBuffer α := { capacity }

/-- An empty buffer, unless it could not hold anything. -/
def new? (capacity : Nat) : Except Error (TailBuffer α) :=
  if capacity = 0 then .error .noCapacity else .ok (empty capacity)

/-- The number of items held. -/
def size (b : TailBuffer α) : Nat := b.slots.length

/-- Adds an item, in the place of the oldest one if there is no other. -/
def push (b : TailBuffer α) (a : α) : TailBuffer α :=
  if b.slots.length < b.capacity then { b with slots := b.slots ++ [a] }
  -- full: the oldest slot is written, and the next one becomes the oldest
  else { b with slots := b.slots.set b.head a, head := (b.head + 1) % b.capacity }

/-- Adds items in order. -/
def extend (b : TailBuffer α) (as : List α) : TailBuffer α := as.foldl push b

/-- The items held, oldest first. -/
def toList (b : TailBuffer α) : List α := b.slots.drop b.head ++ b.slots.take b.head

/-! ### What is held -/

/-- A buffer in use: the slots are filled from the first on, and once all are full the oldest item
may be in any of them. -/
def IsRing (b : TailBuffer α) : Prop :=
  b.slots.length < b.capacity ∧ b.head = 0 ∨ b.slots.length = b.capacity ∧ b.head < b.capacity

theorem length_toList (b : TailBuffer α) : b.toList.length = b.slots.length := by
  rw [toList, List.length_append, Nat.add_comm, ← List.length_append, List.take_append_drop]

theorem isRing_empty {n : Nat} (h : 0 < n) : (empty n : TailBuffer α).IsRing := .inl ⟨h, rfl⟩

/-- **A new item comes last**, and the first one goes if there is no room. -/
theorem toList_push {b : TailBuffer α} (h : b.IsRing) (a : α) :
    (b.push a).toList = (b.toList ++ [a]).drop (b.toList.length + 1 - b.capacity) ∧
      (b.push a).IsRing ∧ (b.push a).capacity = b.capacity := by
  rw [length_toList]
  unfold push
  rcases h with ⟨hl, hh⟩ | ⟨hl, hh⟩
  · rw [if_pos hl]
    refine ⟨?_, ?_, rfl⟩
    · have hz : b.slots.length + 1 - b.capacity = 0 := by omega
      rw [hz, toList, toList, hh]
      simp
    · unfold IsRing
      simp only [List.length_append, List.length_singleton]
      omega
  · rw [if_neg (by omega)]
    have hone : b.slots.length + 1 - b.capacity = 1 := by omega
    rw [hone]
    refine ⟨?_, ?_, rfl⟩
    · have hlt : b.head < b.slots.length := by omega
      have hold : b.toList = b.slots[b.head] :: (b.slots.drop (b.head + 1) ++ b.slots.take b.head) := by
        rw [toList, List.drop_eq_getElem_cons hlt, List.cons_append]
      rw [hold, List.cons_append, List.drop_succ_cons, List.drop_zero, toList]
      dsimp only
      by_cases hlast : b.head + 1 = b.capacity
      · rw [hlast, Nat.mod_self, List.drop_zero, List.take_zero, List.append_nil, ← hl,
          List.drop_length, List.nil_append, List.set_eq_take_append_cons_drop, if_pos hlt,
          List.drop_of_length_le (by omega)]
      · rw [Nat.mod_eq_of_lt (by omega), List.drop_set_of_lt (by omega), List.append_assoc,
          List.take_succ_eq_append_getElem (by rw [List.length_set]; exact hlt), List.take_set,
          List.getElem_set_self, List.set_eq_of_length_le (by rw [List.length_take]; omega)]
    · refine .inr ⟨by rw [List.length_set]; exact hl, Nat.mod_lt _ (by omega)⟩

/-- **What is held are the last items**, as many as there is room for. -/
theorem toList_extend {b : TailBuffer α} (h : b.IsRing) (as : List α) :
    (b.extend as).toList = (b.toList ++ as).drop (b.toList.length + as.length - b.capacity) := by
  unfold extend
  induction as generalizing b with
  | nil =>
    have hl := length_toList b
    have hz : b.toList.length + ([] : List α).length - b.capacity = 0 := by
      rcases h with h | h
      · simp only [List.length_nil]
        omega
      · simp only [List.length_nil]
        omega
    rw [hz, List.append_nil]
    rfl
  | cons a as ih =>
    obtain ⟨ht, hr, hc⟩ := toList_push h a
    have hlen : (b.push a).toList.length = b.toList.length + 1 - (b.toList.length + 1 - b.capacity) := by
      rw [ht, List.length_drop, List.length_append]
      rfl
    rw [List.foldl_cons, ih hr, hlen, hc, ht]
    have hdrop : (b.toList ++ [a]).drop (b.toList.length + 1 - b.capacity) ++ as =
        ((b.toList ++ [a]) ++ as).drop (b.toList.length + 1 - b.capacity) := by
      refine (List.drop_append_of_le_length ?_).symm
      rw [List.length_append, List.length_singleton]
      omega
    rw [hdrop, List.drop_drop, List.append_assoc, List.singleton_append, List.length_cons]
    congr 1
    omega

/-- From the start on, the last items are held. -/
theorem toList_extend_empty {n : Nat} (h : 0 < n) (as : List α) :
    ((empty n).extend as).toList = as.drop (as.length - n) := by
  rw [toList_extend (isRing_empty h)]
  show ([] ++ as).drop (0 + as.length - n) = _
  rw [List.nil_append, Nat.zero_add]

end TailBuffer

end Switchboard
