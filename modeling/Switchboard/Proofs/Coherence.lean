import Switchboard.Proofs.Texts

/-!
# The kept texts of a hub agree

A hub keeps what it published last in three forms: the snapshot, its text, and the text with the id
of the hub. Publications set all three, a leaf that is registered drops the two texts, and the first
reading after that makes them anew. A volatile hub keeps texts too, but never reads them.

* `ChangesBy.settled`: from a moment on, as long as no leaf is registered on a hub, what it keeps is
  what it published last.
* `coherent`: what is read of a hub at any moment.
-/

namespace Switchboard

namespace Board

variable {A : Action → Prop} {E : Edit → Prop} {a b b' : Board} {h : HubId}

/-! ### From a moment on -/

/-- A text depends on the layout of its hub and on the snapshot only. -/
theorem render_of_layout (hl : b'.layout h = b.layout h) (s : Snapshot) :
    b'.render h s = b.render h s := by
  have he : ((b'.hub h).table.layout b'.leaf) = (b.hub h).table.layout b.leaf := hl
  rw [render, render, LeafTable.render, LeafTable.render, LeafTable.entries_eq_layout,
    LeafTable.entries_eq_layout, he]

/-- Whether a hub that was there in `a` keeps what it has published last since then, unless a leaf
was registered on it. -/
structure Settled (a b : Board) (h : HubId) : Prop where
  room : h.index < b.hubs.size
  size : (a.hub h).table.byPredicate.size ≤ (b.hub h).table.byPredicate.size
  kept : (b.hub h).table = (a.hub h).table → published h (news a b) ≠ [] →
    ∃ s, (b.hub h).snapshot = some s ∧ (b.hub h).formatted = some (b.render h s) ∧
      (published h (news a b)).getLast? = some (s, b.render h s)

theorem settled_self (room : h.index < a.hubs.size) : Settled a a h where
  room := room
  size := Nat.le_refl _
  kept _ hp := by
    rw [news_self] at hp
    exact absurd rfl hp

theorem Settled.post (hi : Settled a b h) (hg : a.events <+: b.events) (time : Timestamp) :
    Settled a (b.post h time) h := by
  have hf := Frame.post b h time
  refine ⟨Nat.lt_of_lt_of_le hi.room hf.hubCount, by rw [(hf.hub h).table]; exact hi.size,
    fun _ _ => ⟨b.posted h time, ?_, ?_, ?_⟩⟩
  · rw [hub_post, if_pos rfl]
    rfl
  · rw [hub_post, if_pos rfl, render_eq hf, ← postedLine_eq]
    rfl
  · have hnews : news a (b.post h time) =
        news a b ++ [.published h (b.posted h time) (b.postedLine h time)] := by
      refine news_of_events ?_
      rw [events_post, events_eq_news hg, List.append_assoc]
    rw [hnews, published_append, published_one, if_pos rfl, List.getLast?_concat, render_eq hf,
      postedLine_eq]

/-- A change that does not post the hub publishes nothing of it. -/
theorem Change.published_eq_nil (hc : Change A E b b') (hp : ¬ ∃ time, b' = b.post h time) :
    published h (news b b') = [] := by
  refine List.eq_nil_iff_forall_not_mem.2 ?_
  rintro ⟨s, line⟩ hm
  obtain ⟨time, -, he, -⟩ := hc.of_published (mem_published.1 hm)
  exact hp ⟨time, he⟩

theorem Settled.tail (hi : Settled a b h) (hg : a.events <+: b.events) (hb : Sound b)
    (hc : Change A E b b') : Settled a b' h := by
  by_cases hp : ∃ time, b' = b.post h time
  · obtain ⟨time, rfl⟩ := hp
    exact hi.post hg time
  have hnews : published h (news a b') = published h (news a b) := by
    rw [news_trans hg hc.grows, published_append, hc.published_eq_nil hp, List.append_nil]
  rcases (hc.keepsTexts hb h).resolve_left hp with hd | hk
  · have hgrows := hd.grows.resolve_left (Nat.not_le.2 hi.room)
    have hsize := hi.size
    refine ⟨Nat.lt_of_lt_of_le hi.room hc.hubCount, by omega, fun ht => ?_⟩
    -- a table with one more leaf is not the table it was
    rw [ht] at hgrows
    omega
  · refine ⟨Nat.lt_of_lt_of_le hi.room hc.hubCount, by rw [hk.table]; exact hi.size,
      fun ht hne => ?_⟩
    rw [hnews] at hne ⊢
    obtain ⟨s, hs, htext, hlast⟩ := hi.kept (hk.table.symm.trans ht) hne
    refine ⟨s, hk.snapshot.trans hs, ?_, by rw [render_of_layout hk.layout, hlast]⟩
    rw [render_of_layout hk.layout]
    rcases hk.formatted with he | ⟨hn, -⟩
    · exact he.trans htext
    · rw [hn] at htext
      cases htext

/-- **What a hub keeps is what it published last**, as long as no leaf is registered on it. -/
theorem ChangesBy.settled (hc : ChangesBy A E a b) (ha : Sound a) (room : h.index < a.hubs.size) :
    Settled a b h := by
  induction hc with
  | refl => exact settled_self room
  | tail hcs hc ih => exact ih.tail (ChangesBy.grows hcs) (ChangesBy.sound hcs ha) hc

/-! ### The last line -/

/-- The lines of a hub end with the one that it published last. -/
theorem lines_of_getLast? {es : List Event} {s : Snapshot} {line : String}
    (hl : (published h es).getLast? = some (s, line)) :
    ∃ before, lines h es = before ++ [line] := by
  obtain ⟨before, he⟩ := List.getLast?_eq_some_iff.1 hl
  exact ⟨before.map Prod.snd, by rw [lines, he, List.map_append]; rfl⟩

/-- **The file of a hub ends with the line that it published last.** -/
theorem content_of_getLast? {settings : Settings} {wall : Timestamp} {disk : Disk}
    (hd : disk.Sound) (hc : Changes (start settings wall disk) b) {s : Snapshot} {line : String}
    (hl : (published h b.events).getLast? = some (s, line)) {f : FileId}
    (hf : (b.hub h).file? = some f) : ∃ bytes, b.disk.content f = bytes ++ Lines.write line := by
  have hstart := sound_start settings wall disk hd
  obtain ⟨before, he⟩ := lines_of_getLast? hl
  refine ⟨(start settings wall disk).disk.content f ++ before.flatMap Lines.write, ?_⟩
  rw [ChangesBy.content hc hstart f, news_start, (hc.sound hstart).fileLines_eq hf, he,
    List.flatMap_append, List.flatMap_singleton, List.append_assoc]

/-- Over a directory of complete lines it is the last line that is read of the series. -/
theorem tail_of_getLast? {settings : Settings} {wall : Timestamp} {disk : Disk}
    (hd : disk.Sound) (hl : disk.Complete) (hc : Changes (start settings wall disk) b)
    {s : Snapshot} {line : String} (hp : (published h b.events).getLast? = some (s, line))
    {series : TimeSeries} (hs : (b.hub h).series = some series) (hw : series.isWritable = true) :
    series.tail b.disk 1 = [line] := by
  obtain ⟨before, he⟩ := lines_of_getLast? hp
  have hb := hc.sound (sound_start settings wall disk hd)
  rw [series.tail_eq_drop _ (Nat.le_refl 1), history_disk hd hc hl, hb.loggedAt_series hs hw, he,
    ← List.append_assoc, List.length_append, List.length_singleton, Nat.add_sub_cancel,
    List.drop_left]

/-! ### Offering a leaf -/

/-- What offering a leaf to a hub leaves as it was, whether the hub accepts it or not: what hubs
published last, their subscribers, and the history. -/
structure SameRecord (b b' : Board) : Prop where
  snapshot : ∀ k, (b'.hub k).snapshot = (b.hub k).snapshot
  consumers : ∀ k, (b'.hub k).consumers = (b.hub k).consumers
  disk : b'.disk = b.disk
  events : b'.events = b.events

theorem sameRecord_addLeaf (b : Board) (h : HubId) (predicate : String) (l : LeafId) :
    SameRecord b (b.addLeaf h predicate l).1 := by
  refine ⟨fun k => ?_, fun k => ?_, disk_addLeaf b h predicate l,
    events_of_journal_eq (journal_addLeaf b h predicate l)⟩ <;>
  cases free : (b.hub h).table.byPredicate.contains predicate with
  | true => rw [addLeaf_of_taken free]
  | false =>
    rw [hub_addLeaf free]
    split
    · rename_i hk
      rw [hk]
    · rfl

/-! ### What is read -/

/-- **The texts of a hub are coherent**, at every moment. With the id of the hub its text is read as
it is without. The text of a volatile hub is that of its leaves as they are. Another hub that has
published since its last leaf was registered shows the snapshot that it published last, in the line
that it logged last, whatever was written and read in between. Offering a leaf to a hub changes
neither what hubs published last nor their subscribers nor the history. -/
theorem coherent {settings : Settings} {wall : Timestamp} {disk : Disk} (hd : disk.Sound)
    (hc : Changes (start settings wall disk) b) (h : HubId) :
    (b.json h).2 = "[" ++ (b.hub h).idJson ++ "," ++ (b.formatted h).2 ++ "]" ∧
    ((b.hub h).isVolatile = true → (b.formatted h).2 = b.render h (b.capture h b.wall)) ∧
    ((b.hub h).isVolatile = false → ∀ a, Changes (start settings wall disk) a → Changes a b →
      h.index < a.hubs.size → (b.hub h).table = (a.hub h).table → published h (news a b) ≠ [] →
      ∃ s, (b.hub h).snapshot = some s ∧ (b.formatted h).2 = b.render h s ∧
        (published h b.events).getLast? = some (s, (b.formatted h).2) ∧
        (∀ f, (b.hub h).file? = some f →
          ∃ bytes, b.disk.content f = bytes ++ Lines.write (b.formatted h).2) ∧
        (disk.Complete → ∀ series, (b.hub h).series = some series → series.isWritable = true →
          series.tail b.disk 1 = [(b.formatted h).2])) ∧
    ∀ predicate l, SameRecord b (b.addLeaf h predicate l).1 := by
  have hstart := sound_start settings wall disk hd
  refine ⟨?_, fun hv => ?_, fun hv a ha hab room ht hne => ?_, sameRecord_addLeaf b h⟩
  · exact (hc.holdsTexts hstart (holdsTexts_start settings wall disk h)).json_snd
  · rw [formatted_snd, hv, if_pos rfl]
    rfl
  · obtain ⟨s, hs, htext, hlast⟩ := (hab.settled (ha.sound hstart) room).kept ht hne
    have hread : (b.formatted h).2 = b.render h s := by
      rw [formatted_snd, hv, if_neg Bool.false_ne_true, htext]
      rfl
    have hevents : (published h b.events).getLast? = some (s, b.render h s) := by
      rw [events_eq_news (ChangesBy.grows hab), published_append, List.getLast?_append, hlast]
      rfl
    rw [hread]
    exact ⟨s, hs, rfl, hevents, fun f hf => content_of_getLast? hd hc hevents hf,
      fun hl series hseries hw => tail_of_getLast? hd hl hc hevents hseries hw⟩

/-- A board with a hub that has one leaf. -/
def oneLeaf : Board :=
  (start {} default {}).run [.openHub (Name.hubName "r"), .openLeaf (Name.leafBase ++ "n"),
    .addLeaf ⟨1⟩ "http://x/v" ⟨6⟩]

/-- The hub is published, its leaf is written and its text is read. -/
def writtenAfter : Board :=
  oneLeaf.run [.update ⟨1⟩ default, .write ⟨6⟩ [.placeholder] default, .json ⟨1⟩]

/-- The text that is read is that of the publication, which is the last line of the series. -/
theorem coherent_writtenAfter : ∃ s series, (writtenAfter.hub ⟨1⟩).snapshot = some s ∧
    (writtenAfter.hub ⟨1⟩).series = some series ∧
    (writtenAfter.json ⟨1⟩).2 = "[\"r\"," ++ writtenAfter.render ⟨1⟩ s ++ "]" ∧
    series.tail writtenAfter.disk 1 = [writtenAfter.render ⟨1⟩ s] := by
  have hstart := sound_start {} default {} Disk.sound_empty
  have hbefore := run_changes hstart [.openHub (Name.hubName "r"), .openLeaf (Name.leafBase ++ "n"),
    .addLeaf ⟨1⟩ "http://x/v" ⟨6⟩]
  have hafter : Changes oneLeaf writtenAfter := run_changes (hbefore.sound hstart) _
  have ht : (writtenAfter.hub ⟨1⟩).table = (oneLeaf.hub ⟨1⟩).table := rfl
  obtain ⟨hlive, hroom, hid, hseries, hpublished⟩ :
      (writtenAfter.hub ⟨1⟩).isVolatile = false ∧ 1 < oneLeaf.hubs.size ∧
      (writtenAfter.hub ⟨1⟩).idJson = "\"r\"" ∧
      (writtenAfter.hub ⟨1⟩).series = some ⟨Name.hubName "r", "r", some ⟨1⟩⟩ ∧
      (published ⟨1⟩ (news oneLeaf writtenAfter)).length = 1 := by decide +kernel
  obtain ⟨hjson, -, hkept, -⟩ := coherent Disk.sound_empty (hbefore.trans hafter) ⟨1⟩
  obtain ⟨s, hs, htext, -, -, htail⟩ := hkept hlive oneLeaf hbefore hafter hroom ht
    fun he => by rw [he] at hpublished; cases hpublished
  rw [htext] at hjson htail
  refine ⟨s, _, hs, hseries, ?_, htail nofun _ hseries rfl⟩
  rw [hjson, hid]
  rfl

end Board

end Switchboard
