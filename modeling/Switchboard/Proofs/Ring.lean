import Mathlib.Data.List.Induction
import Switchboard.Series.Tail

/-!
# The ring of a tail buffer

Items are added one by one or in batches. The head stays at the first slot until all slots are full.
From there on it is the number of items that are gone, modulo the capacity, so an item stands in the
slot of its number modulo the capacity as long as it is held, however often the ring has turned.

* `getElem?_toList`: the slot of an item, by its place among those that are held.
* `head_extend_empty`: the head after any number of items.
* `keeps_tail`: what is held at each moment, and where.
-/

namespace Switchboard

namespace TailBuffer

universe u

variable {α : Type u} {b : TailBuffer α} {n : Nat}

/-! ### Use of a buffer -/

/-- What is added by one call: an item, or a batch of items in order. -/
inductive Addition (α : Type u)
  | one (item : α)
  | batch (items : List α)

/-- The items of an addition. -/
def Addition.items : Addition α → List α
  | .one a => [a]
  | .batch as => as

/-- The buffer after an addition. -/
def add (b : TailBuffer α) : Addition α → TailBuffer α
  | .one a => b.push a
  | .batch as => b.extend as

/-- A moment in the use of a buffer: the additions that are done, and the items of the next one that
are pushed already. -/
structure Moment (α : Type u) where
  done : List (Addition α)
  begun : List α

/-- The items pushed so far. -/
def Moment.pushed (m : Moment α) : List α := m.done.flatMap Addition.items ++ m.begun

/-- The buffer at a moment, from an empty one on. -/
def Moment.buffer (m : Moment α) (capacity : Nat) : TailBuffer α :=
  (m.done.foldl add (empty capacity)).extend m.begun

/-- The indices that the operations use are in range: the slot that is written if none is free, the
head behind it, and the place where the slots are cut to read them in order. -/
structure IsInRange (b : TailBuffer α) : Prop where
  written : b.capacity ≤ b.slots.length → b.head < b.slots.length
  next : b.head + 1 ≤ b.capacity
  cut : b.head ≤ b.slots.length

theorem IsRing.isInRange (h : b.IsRing) : b.IsInRange := by
  rcases h with ⟨hfree, hhead⟩ | ⟨hfull, hhead⟩
  · exact ⟨by omega, by omega, by omega⟩
  · exact ⟨by omega, by omega, by omega⟩

theorem extend_append (b : TailBuffer α) (as as' : List α) :
    b.extend (as ++ as') = (b.extend as).extend as' := List.foldl_append

theorem add_eq_extend (b : TailBuffer α) (x : Addition α) : b.add x = b.extend x.items := by
  cases x <;> rfl

theorem foldl_add (b : TailBuffer α) (xs : List (Addition α)) :
    xs.foldl add b = b.extend (xs.flatMap Addition.items) := by
  induction xs generalizing b with
  | nil => rfl
  | cons x xs ih => rw [List.foldl_cons, ih, add_eq_extend, List.flatMap_cons, extend_append]

/-- How the items were split into calls makes no difference. -/
theorem Moment.buffer_eq (m : Moment α) (capacity : Nat) :
    m.buffer capacity = (empty capacity).extend m.pushed := by
  rw [buffer, foldl_add, pushed, extend_append]

/-! ### The head -/

theorem head_push (b : TailBuffer α) (a : α) :
    (b.push a).head =
      if b.slots.length < b.capacity then b.head else (b.head + 1) % b.capacity := by
  unfold push
  split <;> rfl

theorem isRing_extend (h : b.IsRing) (as : List α) :
    (b.extend as).IsRing ∧ (b.extend as).capacity = b.capacity := by
  unfold extend
  induction as generalizing b with
  | nil => exact ⟨h, rfl⟩
  | cons a as ih =>
    obtain ⟨-, hring, hcap⟩ := toList_push h a
    obtain ⟨hring', hcap'⟩ := ih hring
    exact ⟨hring', hcap'.trans hcap⟩

theorem capacity_extend_empty (hn : 0 < n) (as : List α) :
    ((empty n).extend as).capacity = n := (isRing_extend (isRing_empty hn) as).2

theorem size_extend_empty (hn : 0 < n) (as : List α) :
    ((empty n).extend as).size = min n as.length := by
  have hlen := length_toList ((empty n).extend as)
  rw [toList_extend_empty hn, List.length_drop] at hlen
  unfold size
  omega

/-- **The head is the number of items that are gone**, modulo the capacity. -/
theorem head_extend_empty (hn : 0 < n) (as : List α) :
    ((empty n).extend as).head = (as.length - n) % n := by
  induction as using List.reverseRecOn with
  | nil =>
    show 0 = (0 - n) % n
    rw [Nat.zero_sub, Nat.zero_mod]
  | append_singleton as a ih =>
    have hsize : ((empty n).extend as).slots.length = min n as.length := size_extend_empty hn as
    have hpush : (empty n).extend (as ++ [a]) = ((empty n).extend as).push a := extend_append _ _ _
    rw [hpush, head_push, hsize, capacity_extend_empty hn, ih, List.length_append,
      List.length_singleton]
    by_cases hfree : as.length < n
    · -- nothing is gone, before and after
      have hgone : as.length - n = 0 := by omega
      have hgone' : as.length + 1 - n = 0 := by omega
      rw [if_pos (by omega), hgone, hgone']
    · have hgone : as.length + 1 - n = as.length - n + 1 := by omega
      rw [if_neg (by omega), Nat.mod_add_mod, hgone]

/-! ### The slots -/

/-- The items that are held follow each other from the head on, round the ring. -/
theorem getElem?_toList (h : b.IsRing) {k : Nat} (hk : k < b.size) :
    b.toList[k]? = b.slots[(b.head + k) % b.capacity]? := by
  unfold size at hk
  unfold toList
  rcases h with ⟨hfree, hhead⟩ | ⟨hfull, hhead⟩
  · have hmod : k % b.capacity = k := Nat.mod_eq_of_lt (by omega)
    rw [hhead, List.drop_zero, List.take_zero, List.append_nil, Nat.zero_add, hmod]
  · by_cases hturn : b.head + k < b.capacity
    · have hleft : k < (b.slots.drop b.head).length := by
        rw [List.length_drop]
        omega
      rw [List.getElem?_append_left hleft, List.getElem?_drop, Nat.mod_eq_of_lt hturn]
    · have hright : (b.slots.drop b.head).length ≤ k := by
        rw [List.length_drop]
        omega
      have hmod : (b.head + k) % b.capacity = b.head + k - b.capacity := by
        rw [Nat.mod_eq_sub_mod (by omega), Nat.mod_eq_of_lt (by omega)]
      have hplace : k - (b.slots.length - b.head) = b.head + k - b.capacity := by omega
      rw [List.getElem?_append_right hright, List.length_drop, hplace, hmod,
        List.getElem?_take_of_lt (by omega)]

/-- **An item stands in the slot of its number** modulo the capacity, as long as it is held. -/
theorem getElem?_slots (hn : 0 < n) (as : List α) {i : Nat} (hi : i < as.length)
    (hheld : as.length ≤ i + n) : ((empty n).extend as).slots[i % n]? = as[i]? := by
  have hring := (isRing_extend (isRing_empty hn) as).1
  obtain ⟨k, rfl⟩ : ∃ k, i = as.length - n + k := ⟨i - (as.length - n), by omega⟩
  have hk : k < ((empty n).extend as).size := by
    rw [size_extend_empty hn]
    omega
  have hslot := getElem?_toList hring hk
  rw [toList_extend_empty hn, List.getElem?_drop, head_extend_empty hn,
    capacity_extend_empty hn, Nat.mod_add_mod] at hslot
  exact hslot.symm

/-! ### What is kept -/

/-- **A buffer keeps the tail.** With a capacity of at least 1 it can be made, and at every moment of
its use it holds as many of the items pushed so far as there is room for, all indices are in range,
what is read are exactly the last items in the order in which they were pushed, and each of them
stands in the slot of its number modulo the capacity. -/
theorem keeps_tail {capacity : Nat} (hcap : 1 ≤ capacity) :
    new? capacity = .ok (empty capacity : TailBuffer α) ∧
      ∀ m : Moment α,
        (m.buffer capacity).size = min capacity m.pushed.length ∧
        (m.buffer capacity).IsInRange ∧
        (m.buffer capacity).toList =
          m.pushed.drop (m.pushed.length - (m.buffer capacity).size) ∧
        ∀ i, m.pushed.length - (m.buffer capacity).size ≤ i → i < m.pushed.length →
          (m.buffer capacity).slots[i % capacity]? = m.pushed[i]? := by
  refine ⟨if_neg (by omega), fun m => ?_⟩
  rw [m.buffer_eq]
  have hsize := size_extend_empty hcap m.pushed
  have hring := (isRing_extend (isRing_empty hcap) m.pushed).1
  refine ⟨hsize, hring.isInRange, ?_, fun i hheld hi => ?_⟩
  · have hgone : m.pushed.length - min capacity m.pushed.length = m.pushed.length - capacity := by
      omega
    rw [toList_extend_empty hcap, hsize, hgone]
  · exact getElem?_slots hcap m.pushed hi (by omega)

/-- Eight items in three slots: a batch is under way, and the ring turns for the second time. -/
def secondTurn : Moment Nat := ⟨[.one 1, .batch [2, 3, 4, 5], .one 6], [7, 8]⟩

theorem keeps_tail_secondTurn :
    1 ≤ 3 ∧ new? 3 = .ok (empty 3 : TailBuffer Nat) ∧
      (secondTurn.buffer 3).size = 3 ∧ (secondTurn.buffer 3).IsInRange ∧
      (secondTurn.buffer 3).toList = [6, 7, 8] ∧ (secondTurn.buffer 3).slots[5 % 3]? = some 6 := by
  obtain ⟨hnew, hm⟩ := keeps_tail (α := Nat) (by decide : 1 ≤ 3)
  obtain ⟨hsize, hrange, hlist, hslots⟩ := hm secondTurn
  have hthree : (secondTurn.buffer 3).size = 3 := hsize
  refine ⟨by decide, hnew, hthree, hrange, ?_, ?_⟩
  · rw [hlist, hthree]
    rfl
  · exact hslots 5 (by rw [hthree]; decide) (by decide)

end TailBuffer

end Switchboard
