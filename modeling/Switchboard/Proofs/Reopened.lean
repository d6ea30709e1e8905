import Mathlib.Data.List.Induction
import Switchboard.Proofs.History

/-!
# Writing behind what a file holds

A history file may hold anything when it is opened: lines of earlier times, bytes that are no text,
or the beginning of a line whose end was never written. What is written now goes behind all that.

Reading ends at the first line that is no text. So what is written is read if all lines before it
are texts, and else nothing of it is. A line that was left without its line feed goes on with the
first line that is written, and the lines after that one stand for themselves.

* `Lines.exists_torn`: a file holds whole lines and the beginning of another one, maybe nothing of
  it.
* `Lines.read_torn`: how the beginning of a line is read when a line is written behind it.
* `TimeSeries.tail_reopened`: which lines are read back after they were written to an old file.
-/

namespace Switchboard

namespace Lines

open Text.Utf8

/-- A file in which nothing stands behind the last line feed. -/
def Ended (bytes : List UInt8) : Prop := bytes = [] ∨ bytes.getLast? = some 10

/-- A file whose lines are texts, also what stands behind the last line feed. -/
def Legible (bytes : List UInt8) : Prop := ∀ l ∈ (cut bytes).map dropReturn, decode? l ≠ none

instance (bytes : List UInt8) : Decidable (Ended bytes) := inferInstanceAs (Decidable (_ ∨ _))

instance (bytes : List UInt8) : Decidable (Legible bytes) :=
  inferInstanceAs (Decidable (∀ l ∈ (cut bytes).map dropReturn, decode? l ≠ none))

variable {whole torn : List UInt8} {line : String} {lines : List String}

/-- **A file is whole lines and the beginning of another one.** -/
theorem exists_torn (bytes : List UInt8) :
    ∃ whole torn, bytes = whole ++ torn ∧ Ended whole ∧ 10 ∉ torn := by
  induction bytes using List.reverseRecOn with
  | nil => exact ⟨[], [], rfl, .inl rfl, List.not_mem_nil⟩
  | append_singleton bytes b ih =>
    by_cases hb : b = 10
    · subst hb
      exact ⟨bytes ++ [10], [], (List.append_nil _).symm, .inr List.getLast?_concat,
        List.not_mem_nil⟩
    · obtain ⟨whole, torn, rfl, hw, ht⟩ := ih
      refine ⟨whole, torn ++ [b], List.append_assoc _ _ _, hw, ?_⟩
      simp [ht, Ne.symm hb]

/-- Nothing is torn off in a file that ends in a line feed. -/
theorem torn_eq_nil (ht : 10 ∉ torn) (h : Ended (whole ++ torn)) : torn = [] := by
  rcases List.eq_nil_or_concat torn with rfl | ⟨t, b, rfl⟩
  · rfl
  · exfalso
    rw [List.concat_eq_append] at h ht
    have hb : b = 10 := by
      rcases h with h | h
      · simp at h
      · rw [← List.append_assoc, List.getLast?_concat] at h
        exact Option.some.inj h
    simp [hb] at ht

theorem decodeWhile_append_of_malformed {ls : List (List UInt8)} (h : ∃ l ∈ ls, decode? l = none)
    (ms : List (List UInt8)) : decodeWhile (ls ++ ms) = decodeWhile ls := by
  induction ls with
  | nil =>
    obtain ⟨l, hl, -⟩ := h
    cases hl
  | cons l ls ih =>
    rw [List.cons_append, decodeWhile, decodeWhile]
    cases hl : decode? l with
    | none => rfl
    | some s =>
      have hrest : ∃ m ∈ ls, decode? m = none := by
        obtain ⟨m, hm, hd⟩ := h
        rcases List.mem_cons.1 hm with rfl | hm
        · rw [hl] at hd
          cases hd
        · exact ⟨m, hm, hd⟩
      simp only [ih hrest]

/-- **Reading goes on behind whole lines** if all of them are texts, and else ends among them. -/
theorem read_whole (hw : Ended whole) (more : List UInt8) :
    read (whole ++ more) = if Legible whole then read whole ++ read more else read whole := by
  unfold read
  rw [cut_append hw, List.map_append]
  split
  · rename_i h
    exact decodeWhile_append (fun l hl => Option.ne_none_iff_exists'.1 (h l hl)) _
  · rename_i h
    refine decodeWhile_append_of_malformed ?_ _
    simpa [Legible] using h

theorem legible_append (hw : Ended whole) (more : List UInt8) :
    Legible (whole ++ more) ↔ Legible whole ∧ Legible more := by
  unfold Legible
  rw [cut_append hw, List.map_append, List.forall_mem_append]

/-- The beginning of a line is the only line of its file. -/
theorem cut_torn (hne : torn ≠ []) (ht : 10 ∉ torn) : cut torn = [(torn, false)] := by
  have h := cut_prefix hne ht []
  rwa [List.append_nil] at h

theorem legible_torn (ht : 10 ∉ torn) : Legible torn ↔ decode? torn ≠ none := by
  by_cases hne : torn = []
  · subst hne
    decide
  · unfold Legible
    rw [cut_torn hne ht]
    simp [dropReturn]

theorem read_of_malformed (ht : 10 ∉ torn) (h : decode? torn = none) : read torn = [] := by
  have hne : torn ≠ [] := by
    rintro rfl
    cases h
  unfold read
  rw [cut_torn hne ht]
  simp [dropReturn, decodeWhile, h]

/-- **The beginning of a line goes on** with the line that is written behind it. -/
theorem read_torn (ht : 10 ∉ torn) (hne : line ≠ "") (hl : IsLine line) (more : List UInt8) :
    read (torn ++ (write line ++ more)) =
      match decode? torn with
      | some t => String.ofList (t ++ line.toList) :: read more
      | none => [] := by
  have hchars : line.toList ≠ [] := by rwa [Ne, String.toList_eq_nil_iff]
  have hfeed : 10 ∉ torn ++ encode line.toList := by
    rw [List.mem_append, not_or]
    exact ⟨ht, feed_not_mem_encode hl.1⟩
  have hcut : cut (torn ++ (write line ++ more)) =
      (torn ++ encode line.toList, true) :: cut more := by
    have hassoc : torn ++ (write line ++ more) = ((torn ++ encode line.toList) ++ [10]) ++ more := by
      simp only [write, List.append_assoc]
    rw [hassoc, cut_append (.inr List.getLast?_concat), cut_line hfeed]
    rfl
  have hreturn : dropReturn (torn ++ encode line.toList, true) = torn ++ encode line.toList := by
    have hlast : (torn ++ encode line.toList).getLast? ≠ some 13 := by
      intro hlast
      have henc : (encode line.toList).getLast? = some 13 := by
        obtain ⟨c, s, hs⟩ := List.exists_cons_of_ne_nil hchars
        have hsome : encode line.toList ≠ [] := by
          rw [hs]
          exact List.append_ne_nil_of_left_ne_nil String.utf8EncodeChar_ne_nil _
        rwa [List.getLast?_append_of_ne_nil _ hsome] at hlast
      obtain ⟨t, c, ht', hc, -⟩ := getLast?_encode (by decide) henc
      have hr : c = '\r' := Char.toNat_inj.1 hc
      refine hl.2 ?_
      rw [ht', hr]
      exact List.getLast?_concat
    exact if_neg hlast
  have hdecode : decode? (torn ++ encode line.toList) = (decode? torn).map (· ++ line.toList) := by
    rw [decode?_append fun b => head?_encode, decode?_encode]
    cases decode? torn <;> rfl
  unfold read
  rw [hcut, List.map_cons, hreturn, decodeWhile, hdecode]
  cases decode? torn <;> rfl

/-- **What is read of lines that were written behind the content of a file.** -/
theorem read_written (bytes : List UInt8) (hne : lines ≠ []) (hl : ∀ l ∈ lines, l ≠ "" ∧ IsLine l) :
    (Legible bytes → (if Ended bytes then lines else lines.tail) <:+
      read (bytes ++ lines.flatMap write)) ∧
    (¬ Legible bytes → read (bytes ++ lines.flatMap write) = read bytes) := by
  obtain ⟨line, rest, rfl⟩ := List.exists_cons_of_ne_nil hne
  obtain ⟨whole, torn, rfl, hw, ht⟩ := exists_torn bytes
  obtain ⟨hfirst, hline⟩ := hl line List.mem_cons_self
  have hrest : read (rest.flatMap write) = rest := by
    have hempty : Complete [] := ⟨[], rfl, .inl rfl⟩
    exact (read_writes hempty fun l hm => (hl l (List.mem_cons_of_mem line hm)).2).1
  rw [List.flatMap_cons, List.append_assoc, read_whole hw, read_whole hw, read_torn ht hfirst hline,
    hrest, legible_append hw, legible_torn ht]
  by_cases hlegible : Legible whole
  · rw [if_pos hlegible, if_pos hlegible]
    cases hd : decode? torn with
    | none =>
      refine ⟨fun h => absurd rfl h.2, fun _ => ?_⟩
      rw [read_of_malformed ht hd]
    | some t =>
      refine ⟨fun _ => ?_, fun h => absurd ⟨hlegible, nofun⟩ h⟩
      split
      · rename_i hended
        obtain rfl := torn_eq_nil ht hended
        obtain rfl : [] = t := Option.some.inj hd
        dsimp only
        rw [List.nil_append, String.ofList_toList]
        exact List.suffix_append _ _
      · exact (List.suffix_cons _ _).trans (List.suffix_append _ _)
  · rw [if_neg hlegible, if_neg hlegible]
    exact ⟨fun h => absurd h.1 hlegible, fun _ => rfl⟩

end Lines

/-! ### Old files -/

namespace Disk

variable {d : Disk} {name : String}

/-- A file that is opened holds what was at its name. -/
theorem bytesAt_openFile (d : Disk) (name : String) :
    (d.openFile name).1.bytesAt name = d.bytesAt name := by
  have hgrows := grows_openFile d name
  unfold bytesAt
  cases hf : (d.openFile name).1.names.get? name with
  | some f =>
    rw [read?_of_grows hgrows hf, read?, hf, ← content_openFile d name f]
    rfl
  | none =>
    have hd : d.names.get? name = none := by
      refine Option.eq_none_iff_forall_ne_some.2 fun f h => ?_
      have hkept := hgrows.kept name f h
      rw [hf] at hkept
      cases hkept
    rw [read?, read?, hf, hd]
    rfl

end Disk

namespace TimeSeries

variable {d d' : Disk} {name : String} {s : TimeSeries} {lines : List String}

/-- A series that was opened goes by its id, and its file holds what was there. -/
theorem openAt_spec (opened : openAt d name = .ok (d', s)) :
    d'.bytesAt s.id = d.bytesAt s.id ∧ ∀ f, s.file = some f → d'.names.get? s.id = some f := by
  unfold openAt at opened
  cases hid : Name.hubId? name with
  | none => simp [hid] at opened
  | some id =>
    simp only [hid, Except.ok.injEq, Prod.mk.injEq] at opened
    obtain ⟨rfl, rfl⟩ := opened
    refine ⟨Disk.bytesAt_openFile d id, fun f hf => Disk.names_openFile_self d hf⟩

/-- Lines that a series writes go behind what its file holds. -/
theorem bytesAt_foldl_write {f : FileId} (hf : s.file = some f) (hn : d.names.get? s.id = some f) :
    (lines.foldl s.write d).bytesAt s.id = d.bytesAt s.id ++ lines.flatMap Lines.write := by
  induction lines generalizing d with
  | nil => exact (List.append_nil _).symm
  | cons line lines ih =>
    have hwrite : s.write d line = d.append f (Lines.write line) := by rw [write, hf]
    have hbytes : (d.append f (Lines.write line)).bytesAt s.id =
        d.bytesAt s.id ++ Lines.write line := by
      rw [Disk.bytesAt, Disk.read?_append, if_pos hn, Disk.bytesAt, Disk.read?, hn]
      rfl
    have hrest := ih (d := d.append f (Lines.write line)) hn
    rw [List.foldl_cons, hwrite, hrest, hbytes, List.append_assoc, List.flatMap_cons]

/-- The last entries of a list are those of any end of it that is long enough. -/
theorem drop_of_suffix {l m : List String} (h : l <:+ m) {k : Nat} (hk : k ≤ l.length) :
    m.drop (m.length - k) = l.drop (l.length - k) := by
  obtain ⟨p, rfl⟩ := h
  have hlen : (p ++ l).length - k = p.length + (l.length - k) := by
    rw [List.length_append]
    omega
  rw [hlen, List.drop_append]
  simp

/-- **Lines that were written behind an old content are read back**, if all lines before them are
texts: all that were written, if the old content was empty or ended in a line feed, and in any case
all but the first. If there is a line before them that is no text, then what is read does not
change. -/
theorem tail_reopened (opened : openAt d name = .ok (d', s)) (writable : s.isWritable = true)
    (plain : ∀ l ∈ lines, l ≠ "" ∧ '\n' ∉ l.toList ∧ '\r' ∉ l.toList) :
    (Lines.Legible (d.bytesAt s.id) → ∀ k, 1 ≤ k → k ≤ lines.length →
      Lines.Ended (d.bytesAt s.id) ∨ k < lines.length →
        s.tail (lines.foldl s.write d') k = lines.drop (lines.length - k)) ∧
    (¬ Lines.Legible (d.bytesAt s.id) → ∀ k, s.tail (lines.foldl s.write d') k = s.tail d k) := by
  obtain ⟨hbytes, hfile⟩ := openAt_spec opened
  obtain ⟨f, hf⟩ := Option.isSome_iff_exists.1 writable
  have hlines : ∀ l ∈ lines, l ≠ "" ∧ Lines.IsLine l := by
    intro l hl
    obtain ⟨hne, hfeed, hreturn⟩ := plain l hl
    exact ⟨hne, hfeed, fun hlast => hreturn (List.mem_of_getLast? hlast)⟩
  have hhistory : s.history (lines.foldl s.write d') =
      Lines.read (d.bytesAt s.id ++ lines.flatMap Lines.write) := by
    rw [history_eq, bytesAt_foldl_write hf (hfile f hf), hbytes]
  refine ⟨fun hlegible k hk hle hcase => ?_, fun hmalformed k => ?_⟩
  · have hne : lines ≠ [] := by
      rintro rfl
      simp at hle
      omega
    -- the lines that stand for themselves
    have hread := (Lines.read_written (d.bytesAt s.id) hne hlines).1 hlegible
    generalize hkept : (if Lines.Ended (d.bytesAt s.id) then lines else lines.tail) = kept at hread
    have hend : kept <:+ lines ∧ k ≤ kept.length := by
      subst hkept
      split
      · exact ⟨List.suffix_rfl, hle⟩
      · rename_i hended
        have hlt := hcase.resolve_left hended
        refine ⟨List.tail_suffix _, ?_⟩
        rw [List.length_tail]
        omega
    rw [tail_eq_drop _ _ hk, hhistory, drop_of_suffix hread hend.2, drop_of_suffix hend.1 hend.2]
  · have hsame : s.history (lines.foldl s.write d') = s.history d := by
      by_cases hne : lines = []
      · rw [hhistory, hne, history_eq, List.flatMap_nil, List.append_nil]
      · rw [hhistory, history_eq, (Lines.read_written (d.bytesAt s.id) hne hlines).2 hmalformed]
    rw [tail, tail, hsame]

/-- A directory with one file. -/
def fileWith (bytes : List UInt8) : Disk where
  names := Register.empty.put "r" ⟨0⟩
  contents := ⟨[bytes]⟩

/-- The series of the hub whose history is in that file. -/
def roomSeries : TimeSeries := ⟨Name.hubName "r", "r", some ⟨0⟩⟩

theorem openAt_fileWith (bytes : List UInt8) :
    openAt (fileWith bytes) (Name.hubName "r") = .ok (fileWith bytes, roomSeries) := by
  rfl

/-- A file that was left in the middle of its second line, and one whose first line is no text. -/
theorem tail_reopened_leftOpen :
    Lines.Legible (Lines.write "{}" ++ [123]) ∧ ¬ Lines.Legible [255, 10] ∧
      roomSeries.tail (["a", "b"].foldl roomSeries.write (fileWith (Lines.write "{}" ++ [123]))) 1 =
        ["b"] ∧
      ∀ k, roomSeries.tail (["a", "b"].foldl roomSeries.write (fileWith [255, 10])) k =
        roomSeries.tail (fileWith [255, 10]) k := by
  have hplain : ∀ l ∈ ["a", "b"], l ≠ "" ∧ '\n' ∉ l.toList ∧ '\r' ∉ l.toList := by decide
  have hlegible : Lines.Legible (Lines.write "{}" ++ [123]) := by decide
  have hmalformed : ¬ Lines.Legible [255, 10] := by decide
  exact ⟨hlegible, hmalformed,
    (tail_reopened (openAt_fileWith _) rfl hplain).1 hlegible 1 (by decide) (by decide)
      (.inr (by decide)),
    (tail_reopened (openAt_fileWith _) rfl hplain).2 hmalformed⟩

/-- A line that was written is not read back behind a line that is no text, and is read as the end
of another one behind a line that was left open. -/
theorem tail_brokenFile :
    openAt (fileWith [255, 10]) (Name.hubName "r") = .ok (fileWith [255, 10], roomSeries) ∧
      openAt (fileWith [123]) (Name.hubName "r") = .ok (fileWith [123], roomSeries) ∧
      roomSeries.isWritable = true ∧
      roomSeries.tail (["a"].foldl roomSeries.write (fileWith [255, 10])) 1 = [] ∧
      roomSeries.tail (["a"].foldl roomSeries.write (fileWith [123])) 1 = ["\x7ba"] :=
  ⟨openAt_fileWith _, openAt_fileWith _, rfl, by decide, by decide⟩

end TimeSeries

end Switchboard
