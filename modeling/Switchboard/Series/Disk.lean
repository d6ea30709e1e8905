import Switchboard.Identity
import Switchboard.Register
import Switchboard.Store
import Switchboard.Text.Utf8

/-!
# The history directory

Files by name. A file that is open stays what it is when its name is removed or given to a new
file, so a name leads to an identity and the identity to the content.

* `Disk.read?_append`: what is appended to a file is read at its name, and nowhere else if no
  two names lead to it.
-/

namespace Switchboard

/-- A directory of files. It cannot hold files if it could not be made. -/
structure Disk where
  usable : Bool := true
  names : Register FileId := Register.empty
  contents : Store (List UInt8) := {}
  deriving Inhabited

namespace Disk

/-- Whether a text can be the name of a file: 1 to 255 bytes without `/` and NUL, and neither
`.` nor `..`. -/
def isFileName (name : String) : Bool :=
  let bytes := Text.Utf8.encode name.toList
  1 ≤ bytes.length && bytes.length ≤ 255 && name ≠ "." && name ≠ ".." &&
    !name.toList.any fun c => c = '/' || c = '\x00'

/-- The content of the file with an identity. -/
def content (d : Disk) (f : FileId) : List UInt8 := d.contents.get f.index

/-- The content of the file with a name. -/
def read? (d : Disk) (name : String) : Option (List UInt8) := (d.names.get? name).map d.content

/-- Replaces the content of the file with an identity. -/
def setContent (d : Disk) (f : FileId) (bytes : List UInt8) : Disk :=
  { d with contents := d.contents.put f.index bytes }

/-- Appends to the file with an identity. -/
def append (d : Disk) (f : FileId) (bytes : List UInt8) : Disk :=
  d.setContent f (d.content f ++ bytes)

/-- Opens the file with a name for appending, and makes it if there is none. -/
def openFile (d : Disk) (name : String) : Disk × Option FileId :=
  if d.usable && isFileName name then
    match d.names.get? name with
    | some f => (d, some f)
    -- a name that was removed leads to a new file
    | none =>
      let f : FileId := ⟨d.contents.size⟩
      ({ d with names := d.names.put name f, contents := d.contents.add [] }, some f)
  else (d, none)

/-- Writes the file with a name anew. The flag says whether it could be opened. -/
def replace (d : Disk) (name : String) (bytes : List UInt8) : Disk × Bool :=
  match d.openFile name with
  | (d, some f) => (d.setContent f bytes, true)
  | (d, none) => (d, false)

/-- Removes a name. The flag says whether there was a file. -/
def remove (d : Disk) (name : String) : Disk × Bool :=
  ({ d with names := d.names.erase name }, d.names.contains name)

/-- The names of all files. -/
def fileNames (d : Disk) : List String := d.names.keys

theorem read?_append (d : Disk) (f : FileId) (bytes : List UInt8) (name : String) :
    (d.append f bytes).read? name =
      if d.names.get? name = some f then some (d.content f ++ bytes) else d.read? name := by
  unfold read?
  cases h : d.names.get? name with
  | none => simp [append, setContent, h]
  | some g =>
    by_cases hg : g = f
    · subst hg
      simp [append, setContent, content, h]
    · have hi : f.index ≠ g.index := fun hi => hg (by cases f; cases g; simp_all)
      simp [append, setContent, content, h, hg, Store.get_put, hi]

/-- A directory in which every name leads to a file, and no two to the same. -/
structure Sound (d : Disk) : Prop where
  room : ∀ name f, d.names.get? name = some f → f.index < d.contents.size
  apart : ∀ name other f, d.names.get? name = some f → d.names.get? other = some f → name = other

theorem sound_empty : Sound {} := by
  constructor
  · intro name f h
    cases h
  · intro name other f h
    cases h

/-- A directory after a file was opened in it. -/
theorem names_openFile (d : Disk) (name other : String) (f : FileId)
    (h : d.names.get? other = some f) : (d.openFile name).1.names.get? other = some f := by
  unfold openFile
  split
  · split
    · exact h
    · rename_i hn
      have hne : name ≠ other := by
        rintro rfl
        rw [hn] at h
        cases h
      show (d.names.put name _).get? other = some f
      rw [Register.get?_put_of_ne _ hne]
      exact h
  · exact h

/-- An opened file goes by the name it was opened by. -/
theorem names_openFile_self (d : Disk) {name : String} {f : FileId}
    (h : (d.openFile name).2 = some f) : (d.openFile name).1.names.get? name = some f := by
  unfold openFile at h ⊢
  split at h
  · rename_i hu
    rw [if_pos hu]
    split at h
    · rename_i hn
      cases h
      rw [hn]
    · rename_i hn
      cases h
      exact Register.get?_put_self ..
  · cases h

theorem sound_openFile {d : Disk} (hd : d.Sound) (name : String) : (d.openFile name).1.Sound := by
  unfold openFile
  split
  · split
    · exact hd
    · refine ⟨fun other f hf => ?_, fun other third f ho ht => ?_⟩
      · have hs : (d.contents.add []).size = d.contents.size + 1 := Store.size_add ..
        show f.index < (d.contents.add []).size
        change (d.names.put name _).get? other = some f at hf
        rw [Register.get?_put] at hf
        split at hf
        · cases hf
          rw [hs]
          exact Nat.lt_succ_self _
        · have := hd.room other f hf
          omega
      · change (d.names.put name _).get? other = some f at ho
        change (d.names.put name _).get? third = some f at ht
        rw [Register.get?_put] at ho ht
        split at ho <;> split at ht
        · rename_i h1 h2
          exact h1.symm.trans h2
        · cases ho
          exact absurd (hd.room third _ ht) (Nat.lt_irrefl _)
        · cases ht
          exact absurd (hd.room other _ ho) (Nat.lt_irrefl _)
        · exact hd.apart other third f ho ht
  · exact hd

/-- A file that is made is empty, and no other file changes. -/
@[simp] theorem content_openFile (d : Disk) (name : String) (f : FileId) :
    (d.openFile name).1.content f = d.content f := by
  unfold openFile
  split
  · split
    · rfl
    · show (d.contents.add []).get f.index = d.contents.get f.index
      rw [Store.get_add]
      split
      · rename_i hi
        rw [Store.get, List.getD_eq_getElem?_getD, List.getElem?_eq_none (Nat.le_of_eq hi)]
        rfl
      · rfl
  · rfl

/-- What becomes of a directory while it is used: names keep their files, and a new name leads to
a new file. -/
structure Grows (d e : Disk) : Prop where
  kept : ∀ name f, d.names.get? name = some f → e.names.get? name = some f
  fresh : ∀ name f, e.names.get? name = some f →
    d.names.get? name = some f ∨ d.names.get? name = none ∧ d.contents.size ≤ f.index
  size : d.contents.size ≤ e.contents.size

theorem grows_of_names {d e : Disk} (hn : e.names = d.names)
    (hs : d.contents.size ≤ e.contents.size) : Grows d e where
  kept name f h := by rw [hn]; exact h
  fresh name f h := .inl (by rw [← hn]; exact h)
  size := hs

theorem Grows.trans {d e c : Disk} (h : Grows d e) (h' : Grows e c) : Grows d c where
  kept name f hf := h'.kept name f (h.kept name f hf)
  fresh name f hf := by
    rcases h'.fresh name f hf with hf | ⟨hn, hs⟩
    · exact h.fresh name f hf
    · refine .inr ⟨?_, Nat.le_trans h.size hs⟩
      cases hd : d.names.get? name with
      | none => rfl
      | some g =>
        rw [h.kept name g hd] at hn
        cases hn
  size := Nat.le_trans h.size h'.size

theorem grows_openFile (d : Disk) (name : String) : Grows d (d.openFile name).1 := by
  refine ⟨fun other f h => names_openFile d name other f h, fun other f h => ?_, ?_⟩
  · unfold openFile at h
    split at h
    · split at h
      · exact .inl h
      · rename_i hn
        change (d.names.put name _).get? other = some f at h
        rw [Register.get?_put] at h
        split at h
        · rename_i he
          cases h
          exact .inr ⟨he ▸ hn, Nat.le_refl _⟩
        · exact .inl h
    · exact .inl h
  · unfold openFile
    split
    · split
      · exact Nat.le_refl _
      · show d.contents.size ≤ (d.contents.add []).size
        rw [Store.size_add]
        exact Nat.le_succ _
    · exact Nat.le_refl _

/-- What is at a name now was at it before, or it was not there. -/
theorem read?_of_grows {d e : Disk} (h : Grows d e) {name : String} {f : FileId}
    (hf : e.names.get? name = some f) : (d.read? name).getD [] = d.content f := by
  rcases h.fresh name f hf with hd | ⟨hd, hs⟩
  · rw [read?, hd]
    rfl
  · rw [read?, hd, content, Store.get, List.getD_eq_getElem?_getD, List.getElem?_eq_none hs]
    rfl

end Disk

end Switchboard
