import Switchboard.Board.Publish

/-!
# What posting a hub does

Posting a hub stamps its two reserved leaves. Apart from them only the hub itself, its file and
the journal change: the hub keeps the snapshot and its text, the file gets the text as a line, and
the journal the publication. Reading the text of a hub can do no more than keep it.
-/

namespace Switchboard

/-- A hub that has published a snapshot and its text. -/
def Hub.kept (x : Hub) (s : Snapshot) (line : String) : Hub :=
  { x with formatted := some line, wrapped := some (x.wrap line), snapshot := some s }

/-- The history directory after a hub has logged a line. -/
def Hub.logged (x : Hub) (d : Disk) (line : String) : Disk :=
  match x.series with
  | some s => s.write d line
  | none => d

/-- The file that a hub logs to, if its series has one. -/
def Hub.file? (x : Hub) : Option FileId := x.series.bind (·.file)

theorem Disk.content_append (d : Disk) (f g : FileId) (bytes : List UInt8) :
    (d.append f bytes).content g = if f = g then d.content f ++ bytes else d.content g := by
  obtain ⟨i⟩ := f
  obtain ⟨j⟩ := g
  simp [Disk.append, Disk.setContent, Disk.content, Store.get_put]

/-- **A logged line goes to the file of the hub**, and nowhere else. -/
theorem Hub.content_logged (x : Hub) (d : Disk) (line : String) (f : FileId) :
    (x.logged d line).content f =
      if x.file? = some f then d.content f ++ Lines.write line else d.content f := by
  rw [Hub.logged, Hub.file?]
  cases x.series with
  | none => rfl
  | some s =>
    show (s.write d line).content f = if s.file = some f then _ else _
    rw [TimeSeries.write]
    cases s.file with
    | none => rfl
    | some g =>
      show (d.append g (Lines.write line)).content f = _
      rw [Disk.content_append]
      by_cases hg : g = f
      · rw [if_pos hg, if_pos (congrArg some hg), hg]
      · rw [if_neg hg, if_neg fun h => hg (Option.some.inj h)]

/-- What was published, if an event is a publication. -/
def Event.publication? : Event → Option (HubId × Snapshot × String)
  | .published h s line => some (h, s, line)
  | _ => none

namespace Board

section Post

variable (b : Board) (h : HubId) (time : Timestamp)

/-- The snapshot that a hub publishes when it is posted. -/
def posted : Snapshot := (b.stamp h time).capture h time

/-- The line that a hub publishes when it is posted. -/
def postedLine : String := (b.stamp h time).render h (b.posted h time)

@[simp] theorem journal_log (line : String) : (b.log h line).journal = b.journal := by
  unfold log
  split <;> rfl

@[simp] theorem hub_log (line : String) (k : HubId) : (b.log h line).hub k = b.hub k := by
  unfold log
  split <;> rfl

@[simp] theorem leaf_log (line : String) (l : LeafId) : (b.log h line).leaf l = b.leaf l := by
  unfold log
  split <;> rfl

@[simp] theorem consumer_log (line : String) (c : ConsumerId) :
    (b.log h line).consumer c = b.consumer c := by
  unfold log
  split <;> rfl

/-- The leaf with an identity after its hub is stamped: the slots show the time. -/
theorem leaf_stamp (l : LeafId) : (b.stamp h time).leaf l =
    if (b.hub h).table.datetime = l then
      ((b.modifyLeaf (b.hub h).table.instant (·.write (instantOf time) time)).leaf l).write
        (datetimeOf time) time
    else if (b.hub h).table.instant = l then (b.leaf l).write (instantOf time) time
    else b.leaf l := by
  unfold stamp
  rw [leaf_modifyLeaf]
  split
  · rename_i hl
    rw [hl]
  · rw [leaf_modifyLeaf]
    split
    · rename_i hl
      rw [hl]
    · rfl

/-- No other leaf is stamped. -/
theorem leaf_stamp_of_not_isReserved {l : LeafId} (hl : (b.hub h).table.isReserved l = false) :
    (b.stamp h time).leaf l = b.leaf l := by
  rw [LeafTable.isReserved, Bool.or_eq_false_iff, decide_eq_false_iff_not,
    decide_eq_false_iff_not] at hl
  rw [leaf_stamp, if_neg fun e => hl.2 e.symm, if_neg fun e => hl.1 e.symm]

@[simp] theorem leaf_post (l : LeafId) : (b.post h time).leaf l = (b.stamp h time).leaf l := by
  simp [post, keep]

/-- **What a hub shows after it is posted.** The other hubs stay as they are. -/
theorem hub_post (k : HubId) : (b.post h time).hub k =
    if h = k then (b.hub h).kept (b.posted h time) (b.postedLine h time) else b.hub k := by
  -- stamps and the log do not touch hubs: only `keep` does
  simp only [post, hub_note, keep, hub_modifyHub, hub_log, stamp, hub_modifyLeaf]
  rfl

@[simp] theorem consumers_post (k : HubId) :
    ((b.post h time).hub k).consumers = (b.hub k).consumers := by
  rw [hub_post]
  split
  · rename_i hk
    rw [hk]
    rfl
  · rfl

theorem journal_post : (b.post h time).journal =
    .published h (b.posted h time) (b.postedLine h time) :: b.journal := by
  show Event.published h _ _ :: ((b.stamp h time).log h _).journal = _
  rw [journal_log]
  rfl

theorem disk_post : (b.post h time).disk = (b.hub h).logged b.disk (b.postedLine h time) := by
  have hs : ((b.stamp h time).hub h).series = (b.hub h).series := rfl
  show ((b.stamp h time).log h (b.postedLine h time)).disk = _
  rw [log, hs, Hub.logged]
  cases (b.hub h).series <;> rfl

theorem consumer_post (c : ConsumerId) : (b.post h time).consumer c = b.consumer c := by
  simp [post, keep, stamp]

end Post

/-! ### Reading texts -/

section Texts

variable (b : Board) (h : HubId)

/-- Reading a text changes nothing but what the hub keeps of it. -/
theorem formatted_fst : (b.formatted h).1 = b ∨ ((b.hub h).isVolatile = false ∧
    (b.hub h).formatted = none ∧
      (b.formatted h).1 = b.modifyHub h ({ · with formatted := some (b.liveText h) })) := by
  unfold formatted
  split
  · exact .inl rfl
  · rename_i hv
    split
    · exact .inl rfl
    · rename_i hn
      exact .inr ⟨Bool.not_eq_true _ ▸ hv, hn, rfl⟩

theorem json_fst : (b.json h).1 = b ∨ ((b.hub h).isVolatile = false ∧ (b.hub h).wrapped = none ∧
    (b.json h).1 = (b.formatted h).1.modifyHub h
      ({ · with wrapped := some ((b.formatted h).1.hub h |>.wrap (b.formatted h).2) })) := by
  unfold json
  split
  · exact .inl rfl
  · rename_i hv
    split
    · exact .inl rfl
    · rename_i hn
      exact .inr ⟨Bool.not_eq_true _ ▸ hv, hn, rfl⟩

theorem consumer_formatted (c : ConsumerId) : (b.formatted h).1.consumer c = b.consumer c := by
  rcases b.formatted_fst h with e | ⟨-, -, e⟩ <;> rw [e]
  rfl

theorem consumer_json (c : ConsumerId) : (b.json h).1.consumer c = b.consumer c := by
  rcases b.json_fst h with e | ⟨-, -, e⟩ <;> rw [e]
  exact consumer_formatted b h c

theorem leaf_formatted (l : LeafId) : (b.formatted h).1.leaf l = b.leaf l := by
  rcases b.formatted_fst h with e | ⟨-, -, e⟩ <;> rw [e]
  rfl

theorem leaf_json (l : LeafId) : (b.json h).1.leaf l = b.leaf l := by
  rcases b.json_fst h with e | ⟨-, -, e⟩ <;> rw [e]
  exact leaf_formatted b h l

theorem journal_formatted : (b.formatted h).1.journal = b.journal := by
  rcases b.formatted_fst h with e | ⟨-, -, e⟩ <;> rw [e]
  rfl

theorem journal_json : (b.json h).1.journal = b.journal := by
  rcases b.json_fst h with e | ⟨-, -, e⟩ <;> rw [e]
  exact journal_formatted b h

theorem disk_formatted : (b.formatted h).1.disk = b.disk := by
  rcases b.formatted_fst h with e | ⟨-, -, e⟩ <;> rw [e]
  rfl

theorem disk_json : (b.json h).1.disk = b.disk := by
  rcases b.json_fst h with e | ⟨-, -, e⟩ <;> rw [e]
  exact disk_formatted b h

theorem consumers_formatted (k : HubId) :
    ((b.formatted h).1.hub k).consumers = (b.hub k).consumers := by
  rcases b.formatted_fst h with e | ⟨-, -, e⟩ <;> rw [e]
  rw [hub_modifyHub]
  split
  · rename_i hk
    rw [hk]
  · rfl

theorem consumers_json (k : HubId) : ((b.json h).1.hub k).consumers = (b.hub k).consumers := by
  rcases b.json_fst h with e | ⟨-, -, e⟩ <;> rw [e]
  rw [hub_modifyHub, ← consumers_formatted b h k]
  split
  · rename_i hk
    rw [hk]
  · rfl

end Texts

end Board

end Switchboard
