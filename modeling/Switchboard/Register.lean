/-!
# Registers

A register maps names to values and remembers the order in which the names were first
entered. Hubs keep their leaves in one, a snapshot its values, a request its parameters.

* `Register.get?_put`: a value that was put is found, and no other name is affected.
* `Register.keys_put`: a known name keeps its place, a new one is entered last.
-/

namespace Switchboard

universe u

/-- Values by name, in the order of first entry. A name occurs once. -/
structure Register (α : Type u) where
  entries : List (String × α) := []
  distinct : (entries.map Prod.fst).Nodup := by exact List.nodup_nil

namespace Register

variable {α : Type u}

/-- The register without entries. -/
def empty : Register α := {}

instance : Inhabited (Register α) := ⟨empty⟩

instance [DecidableEq α] : DecidableEq (Register α) := fun r s =>
  decidable_of_iff (r.entries = s.entries)
    ⟨fun h => by cases r; cases s; cases h; rfl, fun h => h ▸ rfl⟩

/-- The names, in order of first entry. -/
def keys (r : Register α) : List String := r.entries.map Prod.fst

/-- The values, in order of first entry of their names. -/
def values (r : Register α) : List α := r.entries.map Prod.snd

/-- The number of names. -/
def size (r : Register α) : Nat := r.entries.length

/-- The value of the entry for `key`. -/
def findEntry (key : String) : List (String × α) → Option α
  | [] => none
  | e :: es => if e.1 = key then some e.2 else findEntry key es

/-- The value entered under a name. -/
def get? (r : Register α) (key : String) : Option α := findEntry key r.entries

/-- Whether a name has been entered. -/
def contains (r : Register α) (key : String) : Bool := (r.get? key).isSome

/-- The entries after `value` is put under `key`: in the place of an old value, else last. -/
def putEntry (key : String) (value : α) : List (String × α) → List (String × α)
  | [] => [(key, value)]
  | e :: es => if e.1 = key then (key, value) :: es else e :: putEntry key value es

theorem map_fst_putEntry (key : String) (value : α) (es : List (String × α)) :
    (putEntry key value es).map Prod.fst =
      if key ∈ es.map Prod.fst then es.map Prod.fst else es.map Prod.fst ++ [key] := by
  induction es with
  | nil => simp [putEntry]
  | cons e es ih =>
    by_cases h : e.1 = key
    · simp [putEntry, h]
    · have h' : key ≠ e.1 := fun hk => h hk.symm
      rw [putEntry, if_neg h, List.map_cons, ih]
      by_cases hm : key ∈ es.map Prod.fst <;> simp [h', hm]

theorem nodup_putEntry (key : String) (value : α) {es : List (String × α)}
    (h : (es.map Prod.fst).Nodup) : ((putEntry key value es).map Prod.fst).Nodup := by
  rw [map_fst_putEntry]
  split
  · exact h
  · rename_i hk
    rw [List.nodup_append]
    refine ⟨h, by simp, ?_⟩
    intro a ha b hb hab
    rw [List.mem_singleton] at hb
    exact hk (hb ▸ hab ▸ ha)

/-- Enters `value` under `key`, in the place of an earlier value if there is one. -/
def put (r : Register α) (key : String) (value : α) : Register α where
  entries := putEntry key value r.entries
  distinct := nodup_putEntry key value r.distinct

/-- Enters `value` under `key` unless the name is already known. -/
def putNew (r : Register α) (key : String) (value : α) : Register α :=
  if r.contains key then r else r.put key value

/-- Removes a name and its value. -/
def erase (r : Register α) (key : String) : Register α where
  entries := r.entries.filter fun e => e.1 ≠ key
  distinct := by
    have h := r.distinct
    rw [List.Nodup, List.pairwise_map] at h ⊢
    exact h.filter _

/-- The register of a list of entries, later values replacing earlier ones. -/
def ofList (es : List (String × α)) : Register α :=
  es.foldl (fun r e => r.put e.1 e.2) empty

theorem findEntry_putEntry (key other : String) (value : α) (es : List (String × α)) :
    findEntry other (putEntry key value es) =
      if key = other then some value else findEntry other es := by
  induction es with
  | nil => rfl
  | cons e es ih =>
    by_cases hk : e.1 = key
    · by_cases h : key = other
      · simp [putEntry, findEntry, hk, h]
      · simp [putEntry, findEntry, hk, h]
    · rw [putEntry, if_neg hk, findEntry, ih, findEntry]
      by_cases ho : e.1 = other
      · have hne : key ≠ other := fun h => hk (ho.trans h.symm)
        simp [ho, hne]
      · simp [ho]

/-- **What was put is found**, and nothing else changes. -/
theorem get?_put (r : Register α) (key other : String) (value : α) :
    (r.put key value).get? other = if key = other then some value else r.get? other :=
  findEntry_putEntry key other value r.entries

@[simp] theorem get?_put_self (r : Register α) (key : String) (value : α) :
    (r.put key value).get? key = some value := by simp [get?_put]

theorem get?_put_of_ne (r : Register α) {key other : String} (h : key ≠ other) (value : α) :
    (r.put key value).get? other = r.get? other := by simp [get?_put, h]

@[simp] theorem get?_empty (key : String) : (empty : Register α).get? key = none := rfl

theorem mem_of_findEntry {key : String} {a : α} {es : List (String × α)}
    (h : findEntry key es = some a) : (key, a) ∈ es := by
  induction es with
  | nil => cases h
  | cons e es ih =>
    rw [findEntry] at h
    split at h
    · rename_i hk
      cases h
      subst hk
      exact List.mem_cons_self
    · exact List.mem_cons_of_mem e (ih h)

theorem mem_values_of_get? {r : Register α} {key : String} {a : α} (h : r.get? key = some a) :
    a ∈ r.values :=
  List.mem_map_of_mem (f := Prod.snd) (mem_of_findEntry h)

theorem keys_put (r : Register α) (key : String) (value : α) :
    (r.put key value).keys = if key ∈ r.keys then r.keys else r.keys ++ [key] :=
  map_fst_putEntry key value r.entries

theorem mem_values_put {r : Register α} {key : String} {a x : α}
    (h : x ∈ (r.put key a).values) : x = a ∨ x ∈ r.values := by
  rw [values, List.mem_map] at h
  obtain ⟨e, he, rfl⟩ := h
  change e ∈ putEntry key a r.entries at he
  have hg : ∀ es : List (String × α), e ∈ putEntry key a es → e.2 = a ∨ e ∈ es := by
    intro es
    induction es with
    | nil =>
      intro h
      rw [putEntry, List.mem_singleton] at h
      exact .inl (by rw [h])
    | cons f es ih =>
      intro h
      rw [putEntry] at h
      split at h
      · rcases List.mem_cons.1 h with rfl | h
        · exact .inl rfl
        · exact .inr (List.mem_cons_of_mem f h)
      · rcases List.mem_cons.1 h with rfl | h
        · exact .inr List.mem_cons_self
        · rcases ih h with h | h
          · exact .inl h
          · exact .inr (List.mem_cons_of_mem f h)
  rcases hg r.entries he with h | h
  · exact .inl h
  · exact .inr (List.mem_map_of_mem h)

theorem findEntry_of_mem {key : String} {a : α} {es : List (String × α)}
    (hd : (es.map Prod.fst).Nodup) (h : (key, a) ∈ es) : findEntry key es = some a := by
  induction es with
  | nil => cases h
  | cons e es ih =>
    rw [List.map_cons, List.nodup_cons] at hd
    rcases List.mem_cons.1 h with rfl | h
    · rw [findEntry, if_pos rfl]
    · have hne : e.1 ≠ key := by
        intro he
        have hm : key ∈ es.map Prod.fst := List.mem_map.2 ⟨(key, a), h, rfl⟩
        exact hd.1 (he ▸ hm)
      rw [findEntry, if_neg hne, ih hd.2 h]

theorem get?_eq_some_iff {r : Register α} {key : String} {a : α} :
    r.get? key = some a ↔ (key, a) ∈ r.entries :=
  ⟨mem_of_findEntry, findEntry_of_mem r.distinct⟩

theorem contains_iff {r : Register α} {key : String} : r.contains key = true ↔ key ∈ r.keys := by
  rw [contains, Option.isSome_iff_exists, keys, List.mem_map]
  constructor
  · rintro ⟨a, ha⟩
    exact ⟨(key, a), mem_of_findEntry ha, rfl⟩
  · rintro ⟨e, he, rfl⟩
    exact ⟨e.2, get?_eq_some_iff.2 he⟩

/-- A new name is entered last. -/
theorem entries_put_of_free {r : Register α} {key : String} (a : α)
    (free : r.contains key = false) : (r.put key a).entries = r.entries ++ [(key, a)] := by
  have hk : key ∉ r.entries.map Prod.fst := by
    intro hk
    rw [contains_iff.2 hk] at free
    cases free
  show putEntry key a r.entries = _
  generalize r.entries = es at hk
  induction es with
  | nil => rfl
  | cons e es ih =>
    rw [List.map_cons, List.mem_cons, not_or] at hk
    rw [putEntry, if_neg fun he => hk.1 he.symm, ih hk.2, List.cons_append]

theorem mem_values_put_of_free {r : Register α} {key : String} (a : α)
    (free : r.contains key = false) {x : α} :
    x ∈ (r.put key a).values ↔ x = a ∨ x ∈ r.values := by
  rw [values, entries_put_of_free a free, List.map_append, List.mem_append, List.map_singleton,
    List.mem_singleton, or_comm]
  rfl

/-- Entries with different names are entered as they are. -/
theorem entries_ofList {es : List (String × α)} (h : (es.map Prod.fst).Nodup) :
    (ofList es).entries = es := by
  have hg : ∀ (es : List (String × α)) (r : Register α),
      ((r.entries ++ es).map Prod.fst).Nodup →
        (es.foldl (fun r e => r.put e.1 e.2) r).entries = r.entries ++ es := by
    intro es
    induction es with
    | nil =>
      intro r _
      exact (List.append_nil _).symm
    | cons e es ih =>
      intro r hd
      have hfree : r.contains e.1 = false := by
        rw [Bool.eq_false_iff]
        intro hc
        rw [List.map_append, List.nodup_append] at hd
        exact hd.2.2 e.1 (contains_iff.1 hc) e.1 List.mem_cons_self rfl
      have he := entries_put_of_free e.2 hfree
      rw [List.foldl_cons, ih]
      · rw [he, List.append_assoc]
        rfl
      · rw [he, List.append_assoc]
        exact hd
  exact hg es empty h

theorem nodup_keys (r : Register α) : r.keys.Nodup := r.distinct

end Register

end Switchboard
