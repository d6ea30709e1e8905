import Mathlib.Data.List.Basic
import Switchboard.Proofs.Line
import Switchboard.Proofs.News

/-!
# The history is what was published

Every publication of a hub appends its text to the file of the hub, and nothing else writes to a
file. So a file holds what was in it before, and then one line for each publication of its hub, in
order, over any number of lifetimes of boards on one directory.

* `ChangesBy.content`: what is in the files after a run.
* `bytesAt_disk`, `history_disk`: what a board writes to a file, and what is read of it.
* `tail_eq_logged`: what the series of a hub gives after several lifetimes.
-/

namespace Switchboard

/-- Whether a hub logs under an id, to a file that is open. -/
def Hub.logsTo (x : Hub) (id : String) : Bool :=
  x.series.any fun s => s.isWritable && s.id = id

namespace Board

variable {A : Action → Prop} {E : Edit → Prop} {b b' : Board}

/-- The lines of publications by hubs that log to a file. -/
def fileLines (b : Board) (f : FileId) (es : List Event) : List String :=
  es.filterMap fun
    | .published h _ line => if (b.hub h).file? = some f then some line else none
    | _ => none

/-- The lines of publications by hubs that log under an id. -/
def loggedAt (b : Board) (id : String) : List String :=
  b.events.filterMap fun
    | .published h _ line => if (b.hub h).logsTo id then some line else none
    | _ => none

/-! ### Series and files stay what they are -/

/-- A hub keeps its name and its series for good. -/
theorem Change.lasting (hc : Change A E b b') {h : HubId} (hh : h.index < b.hubs.size) :
    (b'.hub h).name = (b.hub h).name ∧ (b'.hub h).series = (b.hub h).series := by
  have hmodify : ∀ {k : HubId} {f : Hub → Hub}, (f (b.hub k)).name = (b.hub k).name →
      (f (b.hub k)).series = (b.hub k).series →
      ((b.modifyHub k f).hub h).name = (b.hub h).name ∧
        ((b.modifyHub k f).hub h).series = (b.hub h).series := by
    intro k f hn hs
    rw [hub_modifyHub]
    split
    · rename_i hk
      subst hk
      exact ⟨hn, hs⟩
    · exact ⟨rfl, rfl⟩
  cases hc with
  | move m => exact ⟨(m.frame.hub h).name, (m.frame.hub h).series⟩
  | openHub name id _ _ _ =>
    have he := hub_newHub_of_lt name true hh
    exact ⟨congrArg Hub.name he, congrArg Hub.series he⟩
  | makeHub label name _ =>
    have he := hub_newHub_of_lt name false hh
    exact ⟨congrArg Hub.name he, congrArg Hub.series he⟩
  | addLeaf k predicate l _ _ free _ =>
    rw [addLeaf_fst free]
    exact hmodify rfl rfl
  | setVolatile k _ => exact hmodify rfl rfl
  | subscribe k c _ =>
    refine hmodify ?_ ?_ <;> unfold Hub.subscribe <;> split <;> rfl
  | unsubscribe k c _ => exact hmodify rfl rfl
  | _ => exact ⟨rfl, rfl⟩

theorem Change.series (hc : Change A E b b') {h : HubId} (hh : h.index < b.hubs.size) :
    (b'.hub h).series = (b.hub h).series := (hc.lasting hh).2

theorem Change.hubCount (hc : Change A E b b') : b.hubs.size ≤ b'.hubs.size := by
  have hput : ∀ (i : Nat) (x : Hub), b.hubs.size ≤ (b.hubs.put i x).size := by
    intro i x
    rw [Store.size_put]
    exact Nat.le_max_right _ _
  cases hc with
  | move m => exact m.frame.hubCount
  | openHub name id _ _ _ =>
    exact Nat.le_trans (Nat.le_succ _) (Nat.le_of_eq (hubs_newHub name true).symm)
  | makeHub label name _ =>
    exact Nat.le_trans (Nat.le_succ _) (Nat.le_of_eq (hubs_newHub name false).symm)
  | addLeaf k predicate l _ _ free _ =>
    rw [addLeaf_fst free]
    exact hput _ _
  | setVolatile k _ => exact hput _ _
  | subscribe k c _ => exact hput _ _
  | unsubscribe k c _ => exact hput _ _
  | _ => exact Nat.le_refl _

theorem ChangesBy.lasting (hc : ChangesBy A E b b') {h : HubId} (hh : h.index < b.hubs.size) :
    (b'.hub h).name = (b.hub h).name ∧ (b'.hub h).series = (b.hub h).series ∧
      h.index < b'.hubs.size := by
  induction hc with
  | refl => exact ⟨rfl, rfl, hh⟩
  | tail _ hc ih =>
    obtain ⟨hn, hs, hi⟩ := ih
    obtain ⟨hn', hs'⟩ := hc.lasting hi
    exact ⟨hn'.trans hn, hs'.trans hs, Nat.lt_of_lt_of_le hi hc.hubCount⟩

theorem Change.diskGrows (hc : Change A E b b') : Disk.Grows b.disk b'.disk := by
  cases hc with
  | move m => exact Disk.grows_of_names m.frame.disk.names m.frame.disk.size
  | openHub name id legal _ _ =>
    rw [newHub_true name legal]
    exact Disk.grows_openFile b.disk id
  | makeHub label name _ =>
    rw [newHub_false]
    exact Disk.grows_of_names rfl (Nat.le_refl _)
  | addLeaf k predicate l _ _ _ _ =>
    rw [disk_addLeaf]
    exact Disk.grows_of_names rfl (Nat.le_refl _)
  | _ => exact Disk.grows_of_names rfl (Nat.le_refl _)

theorem ChangesBy.diskGrows (hc : ChangesBy A E b b') : Disk.Grows b.disk b'.disk := by
  induction hc with
  | refl => exact Disk.grows_of_names rfl (Nat.le_refl _)
  | tail _ hc ih => exact ih.trans hc.diskGrows

/-! ### What the files hold -/

theorem fileLines_of_quiet (f : FileId) {es : List Event}
    (hq : ∀ e ∈ es, e.publication? = none) : b.fileLines f es = [] := by
  rw [fileLines, List.filterMap_eq_nil_iff]
  intro e he
  have := hq e he
  cases e with
  | published k s line => cases this
  | _ => rfl

theorem fileLines_append (b : Board) (f : FileId) (es fs : List Event) :
    b.fileLines f (es ++ fs) = b.fileLines f es ++ b.fileLines f fs :=
  List.filterMap_append

/-- What a move writes to a file is what it publishes. -/
theorem Move.content {A : Action → Prop} (hm : Move A b b') (f : FileId) :
    b'.disk.content f = b.disk.content f ++ (b.fileLines f (news b b')).flatMap Lines.write := by
  rcases hm.post_or_quiet with ⟨h, time, -, rfl⟩ | ⟨hd, es, he, hq⟩
  · rw [news_post, disk_post, Hub.content_logged, fileLines,
      List.filterMap_cons, List.filterMap_nil]
    dsimp only
    split
    · rw [List.flatMap_singleton]
    · exact (List.append_nil _).symm
  · have hq' : ∀ e ∈ es.reverse, e.publication? = none := fun e h => hq e (List.mem_reverse.1 h)
    rw [hd, news_of_events (events_of_journal he), fileLines_of_quiet f hq']
    exact (List.append_nil _).symm

theorem Change.content (hc : Change A E b b') (f : FileId) :
    b'.disk.content f = b.disk.content f ++ (b.fileLines f (news b b')).flatMap Lines.write := by
  rcases hc.move_or_quiet with m | ⟨hj, hd⟩
  · exact m.content f
  · have he : b'.events = b.events ++ [] := by rw [events_of_journal_eq hj, List.append_nil]
    rw [hd, news_of_events he]
    exact (List.append_nil _).symm

/-- Later boards know the files of the hubs that have published. -/
theorem Change.fileLines_events (hc : Change A E b b') (hb : Sound b) (f : FileId)
    {es : List Event} (hes : ∀ e ∈ es, e ∈ b.events) : b'.fileLines f es = b.fileLines f es := by
  unfold fileLines
  refine List.filterMap_congr fun e he => ?_
  cases e with
  | published h s line =>
    have hh := hb.published h s line (List.mem_reverse.1 (hes _ he))
    dsimp only
    rw [Hub.file?, hc.series hh, Hub.file?]
  | _ => rfl

/-- The publications of a single change are by hubs that are there. -/
theorem Change.fileLines_news (hc : Change A E b b') (f : FileId) (hb : Sound b) :
    b'.fileLines f (news b b') = b.fileLines f (news b b') := by
  unfold fileLines
  refine List.filterMap_congr fun e he => ?_
  cases e with
  | published h s line =>
    obtain ⟨time, held, -⟩ := hc.of_published he
    dsimp only
    rw [Hub.file?, hc.series (hb.held h held), Hub.file?]
  | _ => rfl

/-- **What a run writes to a file**: the lines of the hubs that log there. -/
theorem ChangesBy.content (hc : ChangesBy A E b b') (hb : Sound b) (f : FileId) :
    b'.disk.content f = b.disk.content f ++ (b'.fileLines f (news b b')).flatMap Lines.write := by
  induction hc with
  | refl =>
    rw [news_self]
    exact (List.append_nil _).symm
  | @tail c d hcs hc ih =>
    have hs := ChangesBy.sound hcs hb
    have hg := ChangesBy.grows hcs
    have hmem : ∀ e ∈ news b c, e ∈ c.events := fun e he => by
      rw [events_eq_news hg]
      exact List.mem_append_right _ he
    rw [news_trans hg hc.grows, fileLines_append, hc.fileLines_events hs f hmem,
      hc.fileLines_news f hs, List.flatMap_append, ← List.append_assoc, ← ih]
    exact hc.content f

/-! ### Lines -/

/-- Every published text is a line. -/
theorem ChangesBy.lines (hc : ChangesBy A E b b')
    (h : ∀ k s line, Event.published k s line ∈ b.journal → Lines.IsLine line) :
    ∀ k s line, Event.published k s line ∈ b'.journal → Lines.IsLine line := by
  induction hc with
  | refl => exact h
  | tail _ hc ih =>
    intro k s line hm
    have hevent := List.mem_reverse.2 hm
    change _ ∈ events _ at hevent
    rw [events_eq_news hc.grows, List.mem_append] at hevent
    rcases hevent with hold | hnew
    · exact ih k s line (List.mem_reverse.1 hold)
    · obtain ⟨time, -, -, -, rfl⟩ := hc.of_published hnew
      exact render_isLine _ _ _

theorem Sound.logsTo_iff (hb : Sound b) {id : String} {f : FileId}
    (hf : b.disk.names.get? id = some f) (h : HubId) :
    (b.hub h).logsTo id = true ↔ (b.hub h).file? = some f := by
  rw [Hub.logsTo, Hub.file?, Option.any_eq_true_iff_get, Option.bind_eq_some_iff]
  constructor
  · rintro ⟨hs, hl⟩
    have hser := hb.series h _ (Option.some_get hs).symm
    rw [Bool.and_eq_true, decide_eq_true_eq] at hl
    obtain ⟨g, hg⟩ := Option.isSome_iff_exists.1 hl.1
    have hgf := hser.file g hg
    rw [hl.2, hf] at hgf
    exact ⟨_, (Option.some_get hs).symm, by rw [hg, Option.some.inj hgf]⟩
  · rintro ⟨s, hs, hf'⟩
    have hser := hb.series h s hs
    refine ⟨by rw [hs]; rfl, ?_⟩
    have hid := hb.disk.apart s.id id f (hser.file f hf') hf
    simp [hs, TimeSeries.isWritable, hf', hid]

/-- What is logged under an id is what hubs that log to the file of the id have published. -/
theorem Sound.loggedAt_eq (hb : Sound b) {id : String} {f : FileId}
    (hf : b.disk.names.get? id = some f) : b.loggedAt id = b.fileLines f b.events := by
  unfold loggedAt fileLines
  refine List.filterMap_congr fun e _ => ?_
  cases e with
  | published h s line => simp only [hb.logsTo_iff hf h]
  | _ => rfl

/-- Nothing is logged under an id without a file. -/
theorem Sound.loggedAt_eq_nil (hb : Sound b) {id : String}
    (hf : b.disk.names.get? id = none) : b.loggedAt id = [] := by
  rw [loggedAt, List.filterMap_eq_nil_iff]
  intro e _
  cases e with
  | published h s line =>
    dsimp only
    rw [if_neg]
    intro hl
    obtain ⟨t, ht, hw⟩ := (Option.any_eq_true _ _).1 hl
    rw [Bool.and_eq_true, decide_eq_true_eq] at hw
    obtain ⟨g, hg⟩ := Option.isSome_iff_exists.1 hw.1
    have := (hb.series h t ht).file g hg
    rw [hw.2, hf] at this
    cases this
  | _ => rfl

/-- What is written to the file of a hub is what the hub published. -/
theorem Sound.fileLines_eq (hb : Sound b) {h : HubId} {f : FileId}
    (hf : (b.hub h).file? = some f) (es : List Event) : b.fileLines f es = lines h es := by
  rw [fileLines, lines, Switchboard.published, List.map_filterMap]
  refine List.filterMap_congr fun e _ => ?_
  cases e with
  | published k t line =>
    dsimp only
    by_cases hk : k = h
    · rw [hk, if_pos hf, if_pos rfl]
      rfl
    · rw [if_neg fun hf' => hk (hb.files_apart hf' hf), if_neg hk]
      rfl
  | _ => rfl

/-- What is logged under the id of a hub is what the hub published. -/
theorem Sound.loggedAt_series (hb : Sound b) {h : HubId} {s : TimeSeries}
    (hs : (b.hub h).series = some s) (hw : s.isWritable = true) :
    b.loggedAt s.id = lines h b.events := by
  obtain ⟨f, hf⟩ := Option.isSome_iff_exists.1 hw
  have hfile : (b.hub h).file? = some f := by rw [Hub.file?, hs]; exact hf
  rw [hb.loggedAt_eq ((hb.series h s hs).file f hf), hb.fileLines_eq hfile]

/-- **A publication leaves the series of other hubs as they are.** -/
theorem Sound.history_post (hb : Sound b) {h k : HubId} {s : TimeSeries}
    (hs : (b.hub h).series = some s) (hw : s.isWritable = true) (hk : k ≠ h) (time : Timestamp) :
    s.history (b.post k time).disk = s.history b.disk := by
  obtain ⟨f, hf⟩ := Option.isSome_iff_exists.1 hw
  have hn := (hb.series h s hs).file f hf
  -- two hubs with one file would be one hub
  have hne : (b.hub k).file? ≠ some f := by
    intro hkf
    refine hk (hb.files_apart hkf ?_)
    rw [Hub.file?, hs]
    exact hf
  have hread : (b.post k time).disk.read? s.id = b.disk.read? s.id := by
    rw [Disk.read?, Disk.read?, (Frame.post b k time).disk.names, hn, Option.map_some,
      Option.map_some, disk_post, Hub.content_logged, if_neg hne]
  rw [TimeSeries.history, TimeSeries.history, hread]

end Board

/-! ### What is read from the files -/

namespace Disk

/-- A directory whose files consist of complete lines. -/
def Complete (d : Disk) : Prop :=
  ∀ name bytes, d.read? name = some bytes → Lines.Complete bytes

/-- The bytes at a name, none if there is no file. -/
def bytesAt (d : Disk) (name : String) : List UInt8 := (d.read? name).getD []

theorem Complete.bytesAt {d : Disk} (hd : d.Complete) (name : String) :
    Lines.Complete (d.bytesAt name) := by
  unfold Disk.bytesAt
  cases h : d.read? name with
  | none => exact ⟨[], rfl, .inl rfl⟩
  | some bytes => exact hd name bytes h

end Disk

theorem TimeSeries.history_eq (s : TimeSeries) (d : Disk) :
    s.history d = Lines.read (d.bytesAt s.id) := by
  unfold history Disk.bytesAt
  cases d.read? s.id <;> rfl

/-- The last lines are the end of the history. -/
theorem TimeSeries.tail_eq_drop (s : TimeSeries) (d : Disk) {n : Nat} (hn : 1 ≤ n) :
    s.tail d n = (s.history d).drop ((s.history d).length - n) := by
  rw [tail, if_neg (by omega), TailBuffer.toList_extend_empty hn]

namespace Board

section Start

variable {settings : Settings} {wall : Timestamp} {d : Disk} {b : Board}
variable (hd : d.Sound) (hc : Changes (start settings wall d) b)
include hd hc

omit hd in
/-- What a board logs are lines. -/
theorem isLine_of_mem_loggedAt (id : String) : ∀ line ∈ b.loggedAt id, Lines.IsLine line := by
  intro line hl
  have hall := hc.lines fun k s l hm => by
    rw [start_eq] at hm
    cases hm
  obtain ⟨e, he, hl⟩ := List.mem_filterMap.1 hl
  cases e with
  | published k s l =>
    dsimp only at hl
    split at hl
    · cases hl
      exact hall k s line (List.mem_reverse.1 he)
    · cases hl
  | _ => cases hl

/-- **What a board writes to a file**: the lines that are logged under its name. -/
theorem bytesAt_disk (id : String) :
    b.disk.bytesAt id = d.bytesAt id ++ (b.loggedAt id).flatMap Lines.write := by
  have hs : b.Sound := hc.sound (sound_start _ _ _ hd)
  have hstart : (start settings wall d).disk = (d.openFile Name.systemId).1 := by
    rw [start_eq]
  have hgrows : Disk.Grows d b.disk := by
    refine (Disk.grows_openFile d Name.systemId).trans ?_
    rw [← hstart]
    exact hc.diskGrows
  cases hn : b.disk.names.get? id with
  | none =>
    -- names are never given up, so there was no file before
    have hdn : d.names.get? id = none := by
      cases h : d.names.get? id with
      | none => rfl
      | some f => exact absurd (hgrows.kept id f h) (by rw [hn]; exact nofun)
    rw [hs.loggedAt_eq_nil hn, Disk.bytesAt, Disk.bytesAt, Disk.read?, Disk.read?, hn, hdn]
    rfl
  | some f =>
    have hafter := hc.content (sound_start _ _ _ hd) f
    rw [news_start, hstart, Disk.content_openFile] at hafter
    rw [hs.loggedAt_eq hn, Disk.bytesAt, Disk.bytesAt, Disk.read?_of_grows hgrows hn, Disk.read?, hn]
    exact hafter

/-- What a series gives: what was there at the start, and then what was logged. -/
theorem history_disk (hl : d.Complete) (s : TimeSeries) :
    s.history b.disk = s.history d ++ b.loggedAt s.id := by
  rw [TimeSeries.history_eq, TimeSeries.history_eq, bytesAt_disk hd hc]
  exact (Lines.read_writes (hl.bytesAt s.id) (isLine_of_mem_loggedAt hc s.id)).1

theorem complete_disk (hl : d.Complete) : b.disk.Complete := by
  intro name bytes hb
  have h := (Lines.read_writes (hl.bytesAt name) (isLine_of_mem_loggedAt hc name)).2
  rw [← bytesAt_disk hd hc, Disk.bytesAt, hb] at h
  exact h

end Start

end Board

/-! ### Several lifetimes -/

/-- A lifetime of a board: how it was started, and what was done with it. -/
structure Lifetime where
  settings : Settings
  wall : Timestamp
  ops : List Op

/-- The board of a lifetime over a directory. -/
def Lifetime.board (t : Lifetime) (d : Disk) : Board :=
  (Board.start t.settings t.wall d).run t.ops

namespace Disk

/-- A directory after lifetimes of boards. -/
def after (d : Disk) : List Lifetime → Disk
  | [] => d
  | t :: ts => (t.board d).disk.after ts

/-- What was logged under an id in lifetimes of boards. -/
def loggedBy (d : Disk) (id : String) : List Lifetime → List String
  | [] => []
  | t :: ts => (t.board d).loggedAt id ++ (t.board d).disk.loggedBy id ts

end Disk

namespace Lifetime

variable {d : Disk} (t : Lifetime)

theorem changes (hd : d.Sound) :
    Board.Changes (Board.start t.settings t.wall d) (t.board d) :=
  Board.run_changes (Board.sound_start _ _ _ hd) t.ops

theorem sound (hd : d.Sound) : (t.board d).Sound :=
  (t.changes hd).sound (Board.sound_start _ _ _ hd)

/-- What a series gives after a lifetime. -/
theorem history_disk (hd : d.Sound) (hc : d.Complete) (s : TimeSeries) :
    s.history (t.board d).disk = s.history d ++ (t.board d).loggedAt s.id :=
  Board.history_disk hd (t.changes hd) hc s

theorem complete (hd : d.Sound) (hc : d.Complete) : (t.board d).disk.Complete :=
  Board.complete_disk hd (t.changes hd) hc

end Lifetime

/-- What a series gives after several lifetimes. -/
theorem Disk.history_after {d : Disk} (hd : d.Sound) (hc : d.Complete) (past : List Lifetime)
    (s : TimeSeries) : s.history (d.after past) = s.history d ++ d.loggedBy s.id past ∧
      (d.after past).Sound ∧ (d.after past).Complete := by
  induction past generalizing d with
  | nil => exact ⟨(List.append_nil _).symm, hd, hc⟩
  | cons t past ih =>
    obtain ⟨hh, hrest⟩ := ih (t.sound hd).disk (t.complete hd hc)
    refine ⟨?_, hrest⟩
    rw [after, hh, t.history_disk hd hc, List.append_assoc]
    rfl

/-- **The log is the publication sequence.** Over a directory of complete lines, after any number
of lifetimes and at any moment of the present one, the whole series of a hub is what was in its
file, what was logged under its id in the past lifetimes, and one line for each publication since
then. With a limit it is the end of that. No later publication of another hub changes it. -/
theorem tail_eq_logged {d : Disk} (hd : d.Sound) (hc : d.Complete) (past : List Lifetime)
    (now : Lifetime) {h : HubId} {s : TimeSeries}
    (hs : ((now.board (d.after past)).hub h).series = some s) (hw : s.isWritable = true) :
    let b := now.board (d.after past)
    let all := s.history d ++ d.loggedBy s.id past ++ lines h b.events
    s.tail b.disk 0 = all ∧ (∀ n, 1 ≤ n → s.tail b.disk n = all.drop (all.length - n)) ∧
      ∀ b', Board.Changes b b' → ∀ k, k ≠ h → ∀ time n,
        s.tail (b'.post k time).disk n = s.tail b'.disk n := by
  intro b all
  obtain ⟨hpast, hd', hc'⟩ := Disk.history_after hd hc past s
  have hb : b.Sound := now.sound hd'
  have hall : s.history b.disk = all := by
    rw [now.history_disk hd' hc', hpast, hb.loggedAt_series hs hw]
  refine ⟨hall, fun n hn => ?_, fun b' hb' k hk time n => ?_⟩
  · rw [s.tail_eq_drop _ hn, hall]
  · have hh : h.index < b.hubs.size :=
      hb.held h (Board.isHubHeld_of_hub? (hb.series h s hs).registered)
    have hs' : (b'.hub h).series = some s := (hb'.lasting hh).2.1.trans hs
    have hp := (hb'.sound hb).history_post hs' hw hk time
    rw [TimeSeries.tail, TimeSeries.tail, hp]

/-- A directory with one file, which holds one line. -/
def oneFile : Disk where
  names := Register.empty.put "r" ⟨0⟩
  contents := ⟨[Lines.write "{}"]⟩

theorem names_oneFile {name : String} {f : FileId} (h : oneFile.names.get? name = some f) :
    name = "r" ∧ f = ⟨0⟩ := by
  change (Register.empty.put "r" _).get? name = some f at h
  rw [Register.get?_put] at h
  split at h
  · rename_i hn
    cases h
    exact ⟨hn.symm, rfl⟩
  · cases h

theorem sound_oneFile : oneFile.Sound := by
  refine ⟨fun name f h => ?_, fun name other f h h' => ?_⟩
  · rw [(names_oneFile h).2]
    exact Nat.zero_lt_one
  · rw [(names_oneFile h).1, (names_oneFile h').1]

theorem complete_oneFile : oneFile.Complete := by
  intro name bytes h
  obtain ⟨f, hf, rfl⟩ := Option.map_eq_some_iff.1 h
  rw [(names_oneFile hf).2]
  exact ⟨"{}\n".toList, by decide +kernel, .inr (by decide +kernel)⟩

/-- A lifetime in which a counter of a hub is counted up once. -/
def countingOnce : Lifetime where
  settings := {}
  wall := default
  ops := [.openHub (Name.hubName "r"), .makeLeaf "n" .counter "n", .addLeaf ⟨1⟩ "http://x/n" ⟨6⟩,
    .increment ⟨6⟩]

/-- The line that was there, one of the past lifetime and one of the present one. -/
theorem tail_eq_logged_countingOnce :
    let b := countingOnce.board (oneFile.after [countingOnce])
    let s : TimeSeries := ⟨Name.hubName "r", "r", some ⟨0⟩⟩
    let all := s.history oneFile ++ oneFile.loggedBy s.id [countingOnce] ++ lines ⟨1⟩ b.events
    (b.hub ⟨1⟩).series = some s ∧ all.length = 3 ∧
      s.tail b.disk 0 = all ∧ (∀ n, 1 ≤ n → s.tail b.disk n = all.drop (all.length - n)) ∧
      ∀ b', Board.Changes b b' → ∀ k, k ≠ ⟨1⟩ → ∀ time n,
        s.tail (b'.post k time).disk n = s.tail b'.disk n := by
  intro b s all
  have hs : (b.hub ⟨1⟩).series = some s := by decide +kernel
  exact ⟨hs, by decide +kernel,
    tail_eq_logged sound_oneFile complete_oneFile [countingOnce] countingOnce hs rfl⟩

end Switchboard
