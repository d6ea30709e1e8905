import Switchboard.Proofs.Texts
import Switchboard.Request.Answer

/-!
# What is answered can be read

An answer is a JSON array with one element for each hub that is asked for, in order: the text of
the hub with its id, or its id and the last lines of its history. Reading may make hubs keep
texts, which is not seen in what is read of the others. Every line of a history is a text that the
hub published, and is read as the snapshot that it published with it.

* `readEach_snd`: an answer is put together from what is read of each hub on the same board.
* `ChangesBy.recalls`: what the lines of a history are read as.
* `texts_wellFormed`: texts of hubs and answers are read as what they show.
-/

namespace Switchboard

theorem exists_forall₂ {α β : Type} {R : α → β → Prop} {l : List α} (h : ∀ a ∈ l, ∃ b, R a b) :
    ∃ bs, List.Forall₂ R l bs := by
  induction l with
  | nil => exact ⟨[], .nil⟩
  | cons a l ih =>
    obtain ⟨b, hb⟩ := h a List.mem_cons_self
    obtain ⟨bs, hbs⟩ := ih fun x hx => h x (List.mem_cons_of_mem a hx)
    exact ⟨b :: bs, .cons hb hbs⟩

/-! ### Arrays of texts -/

/-- Texts with a separator between them. -/
theorem Text.join_eq_intercalate (sep : List Char) (ss : List (List Char)) :
    Text.join sep ss = sep.intercalate ss := by
  induction ss with
  | nil => rfl
  | cons s ss ih =>
    cases ss with
    | nil => exact (List.intercalate_singleton).symm
    | cons t ts => rw [Text.join, List.intercalate_cons_cons, ih]

theorem Text.toList_intercalate (sep : String) (ss : List String) :
    (sep.intercalate ss).toList = Text.join sep.toList (ss.map String.toList) := by
  rw [String.toList_intercalate, join_eq_intercalate]

/-- Line feeds behind the separators are as good as line feeds in front of the texts. -/
theorem Text.join_feeds {s : List Char} {ss : List (List Char)} :
    Text.join [','] ((s :: ss).map ('\n' :: ·)) = '\n' :: Text.join [',', '\n'] (s :: ss) := by
  induction ss generalizing s with
  | nil => rfl
  | cons t ts ih =>
    have htail := ih (s := t)
    rw [List.map_cons] at htail
    rw [List.map_cons, List.map_cons, Text.join, Text.join, htail, List.append_assoc,
      List.append_assoc]
    rfl

namespace Json

/-- Texts in one line. -/
theorem spells_texts {ts : List String} {vs : List Json}
    (h : List.Forall₂ (fun t v => Spells t.toList v) ts vs) :
    Spells ("[" ++ ",".intercalate ts ++ "]").toList (.array vs) := by
  have htext : ("[" ++ ",".intercalate ts ++ "]").toList =
      '[' :: (Text.join [','] (ts.map String.toList) ++ ([] ++ [']'])) := by
    rw [String.toList_append, String.toList_append, Text.toList_intercalate]
    rfl
  rw [htext]
  exact spells_array (List.forall₂_map_left_iff.2 h) fun _ hc => nomatch hc

/-- **Texts on lines of their own**, in brackets and with commas between them. -/
theorem spells_lines {ts : List String} {vs : List Json}
    (h : List.Forall₂ (fun t v => Spells t.toList v) ts vs) :
    Spells ("[\n" ++ ",\n".intercalate ts ++ "\n]").toList (.array vs) := by
  have htext : ("[\n" ++ ",\n".intercalate ts ++ "\n]").toList =
      '[' :: '\n' :: (Text.join [',', '\n'] (ts.map String.toList) ++ ['\n', ']']) := by
    rw [String.toList_append, String.toList_append, Text.toList_intercalate]
    rfl
  rw [htext]
  have hfeed : ∀ c ∈ ['\n'], c = '\n' := fun c hc => List.mem_singleton.1 hc
  cases h with
  | nil => exact spells_array (g := ['\n', '\n']) .nil (by simp)
  | @cons t v ts vs ht hts =>
    -- the line feeds belong to the items behind them
    have hitems : List.Forall₂ Spells (((t :: ts).map String.toList).map ('\n' :: ·)) (v :: vs) := by
      rw [List.forall₂_map_left_iff, List.forall₂_map_left_iff]
      exact List.Forall₂.imp (fun u w hu => Spells.append_left (g := ['\n']) hu hfeed)
        (.cons ht hts)
    have hspells := spells_array hitems hfeed
    rw [List.map_cons, Text.join_feeds] at hspells
    exact hspells

end Json

namespace Board

variable {b b' : Board} {h : HubId}

/-! ### Reading several hubs -/

/-- What is read of a hub depends on the hub, the leaves and the present time. -/
theorem json_snd_congr (hh : b'.hub h = b.hub h) (hl : ∀ l, b'.leaf l = b.leaf l)
    (hw : b'.wall = b.wall) : (b'.json h).2 = (b.json h).2 := by
  have hleaf : b'.leaf = b.leaf := funext hl
  have hlive : b'.liveText h = b.liveText h := by
    rw [liveText, liveText, render, render, capture, capture, hh, hleaf, hw]
  rw [json_snd, json_snd, formatted_snd, formatted_snd, hh, hlive]

/-- **Reading a hub twice gives the same**, and so does reading another one first. -/
theorem json_json_snd (b : Board) (k h : HubId) : ((b.json k).1.json h).2 = (b.json h).2 := by
  by_cases hk : k = h
  · subst hk
    rcases b.json_fst k with e | ⟨hv, hn, e⟩
    · rw [e]
    · -- the text was kept when it was read first
      have hkept : ((b.json k).1.hub k).wrapped = some (b.json k).2 := by
        rw [json_snd, hv, hn, e, hub_modifyHub, if_pos rfl,
          Hub.wrap_congr ((Frame.formatted b k).hub k).name]
        rfl
      exact text_of_wrapped (((Frame.json b k).hub k).isVolatile.trans hv) hkept
  · have hhub : (b.json k).1.hub h = b.hub h := by
      have hread : (b.formatted k).1.hub h = b.hub h := by
        rcases b.formatted_fst k with e | ⟨-, -, e⟩ <;> rw [e]
        rw [hub_modifyHub, if_neg hk]
      rcases b.json_fst k with e | ⟨-, -, e⟩ <;> rw [e]
      rw [hub_modifyHub, if_neg hk, hread]
    exact json_snd_congr hhub (leaf_json b k) (Frame.json b k).wall

/-- The last lines of the history of a hub. -/
def tailLines (b : Board) (h : HubId) (limit : Nat) : List String :=
  match (b.hub h).series with
  | some s => s.tail b.disk limit
  | none => []

theorem historyText_eq (b : Board) (h : HubId) (limit : Nat) : b.historyText h limit =
    (b.hub h).wrap ("[" ++ ",".intercalate (b.tailLines h limit) ++ "]") := by
  refine String.toList_inj.1 ?_
  show ("[" ++ (b.hub h).idJson ++ ",[" ++ ",".intercalate (b.tailLines h limit) ++ "]]").toList = _
  simp [Hub.wrap]

/-- What is read of a hub is the same after another one was read. -/
theorem readOne_readOne_snd (b : Board) (r : Request) (k h : HubId) :
    ((b.readOne r k).1.readOne r h).2 = (b.readOne r h).2 := by
  unfold readOne
  cases r.history with
  | none => exact json_json_snd b k h
  | some limit =>
    cases r.latest with
    | false => rfl
    | true => exact json_json_snd b k h

/-- **An answer is put together** from what is read of each hub on the same board. -/
theorem readEach_snd (b : Board) (r : Request) (hs : List HubId) :
    (readEach r b hs).2 = hs.map fun h => (b.readOne r h).2 := by
  induction hs generalizing b with
  | nil => rfl
  | cons h hs ih =>
    show (b.readOne r h).2 :: (readEach r (b.readOne r h).1 hs).2 = _
    rw [ih, List.map_cons]
    simp only [readOne_readOne_snd]

/-! ### Lines of histories -/

/-- What a line of the history of a hub is read as: the snapshot that was published with it, in the
layout that the texts of the hub had at that moment. -/
def Recalls (start b : Board) (h : HubId) (line : String) (j : Json) : Prop :=
  ∃ s c, Event.published h s line ∈ b.events ∧ Changes start c ∧ Changes c b ∧
    s.Fits (c.layout h) ∧ j = s.object (c.layout h)

/-- **Every published line is read as the snapshot that was published with it.** -/
theorem ChangesBy.recalls {start : Board} (hc : Changes start b) (hs : Sound start)
    (hj : start.events = []) {s : Snapshot} {line : String}
    (he : Event.published h s line ∈ b.events) :
    ∃ j, Json.Spells line.toList j ∧ Recalls start b h line j := by
  have hmoment : ∀ {d}, Changes start d → Event.published h s line ∈ d.events →
      ∃ c, Changes start c ∧ Changes c d ∧ c.Decodes h line s := by
    intro d hd he
    induction hd with
    | refl =>
      rw [hj] at he
      cases he
    | @tail c d hcs hc ih =>
      rw [events_eq_news hc.grows, List.mem_append] at he
      rcases he with he | he
      · obtain ⟨a, hbefore, hafter, hdec⟩ := ih he
        exact ⟨a, hbefore, hafter.tail hc, hdec⟩
      · obtain ⟨time, -, -, rfl, rfl⟩ := hc.of_published he
        have hsound : Sound c := ChangesBy.sound hcs hs
        exact ⟨c, hcs, .single hc, decodes_postedLine (hsound.slotted h) time⟩
  obtain ⟨c, hbefore, hafter, hdec⟩ := hmoment hc he
  exact ⟨_, hdec.spells, s, c, he, hbefore, hafter, hdec.fits, rfl⟩

/-- What is logged under the id of a hub was published by the hub. -/
theorem Sound.mem_events_of_mem_loggedAt (hb : Sound b) {s : TimeSeries}
    (hs : (b.hub h).series = some s) {line : String} (hl : line ∈ b.loggedAt s.id) :
    ∃ t, Event.published h t line ∈ b.events := by
  obtain ⟨e, he, hl⟩ := List.mem_filterMap.1 hl
  cases e with
  | published k t other =>
    dsimp only at hl
    split at hl
    · rename_i hlog
      cases hl
      obtain ⟨u, hu, hid⟩ := (Option.any_eq_true _ _).1 hlog
      rw [Bool.and_eq_true, decide_eq_true_eq] at hid
      rw [hb.series_apart hs hu hid.2.symm]
      exact ⟨t, he⟩
    · cases hl
  | _ => cases hl

/-! ### Answers -/

/-- What is answered for a hub: the last lines of its history if they are asked for, each read as
what was published with it, and else the text of the hub with its id. -/
def Answers (start b : Board) (r : Request) (h : HubId) (j : Json) : Prop :=
  match r.history, r.latest with
  | some limit, false => ∃ past, j = .array [.string (some (b.hub h).id.toList), .array past] ∧
      List.Forall₂ (Recalls start b h) (b.tailLines h limit) past
  | _, _ => Json.read (b.json h).2.toList = some j

section Start

variable {settings : Settings} {wall : Timestamp} {disk : Disk}
variable (absent : ∀ name, disk.read? name = none)
variable (hc : Changes (start settings wall disk) b)
include absent hc

omit hc in
/-- A directory without files is sound. -/
theorem sound_of_absent : disk.Sound := by
  have hnone : ∀ name, disk.names.get? name = none := fun name =>
    Option.map_eq_none_iff.1 (absent name)
  refine ⟨fun name f hf => ?_, fun name other f hf _ => ?_⟩
  · rw [hnone] at hf
    cases hf
  · rw [hnone] at hf
    cases hf

/-- The lines of the history of a hub are lines that it published, if there was no file at the
start. -/
theorem mem_events_of_mem_tailLines {limit : Nat} {line : String} (hl : line ∈ b.tailLines h limit) :
    ∃ s, Event.published h s line ∈ b.events := by
  have hd := sound_of_absent absent
  have hb : Sound b := hc.sound (sound_start _ _ _ hd)
  have hcomplete : disk.Complete := fun name bytes hr => by
    rw [absent] at hr
    cases hr
  unfold tailLines at hl
  cases hs : (b.hub h).series with
  | none =>
    rw [hs] at hl
    cases hl
  | some s =>
    rw [hs] at hl
    change line ∈ s.tail b.disk limit at hl
    have hmem : line ∈ s.history b.disk := by
      rcases Nat.eq_zero_or_pos limit with rfl | hn
      · exact hl
      · rw [s.tail_eq_drop b.disk hn] at hl
        exact List.mem_of_mem_drop hl
    have hold : s.history disk = [] := by
      rw [TimeSeries.history, absent]
    rw [history_disk hd hc hcomplete, hold, List.nil_append] at hmem
    exact hb.mem_events_of_mem_loggedAt hs hmem

/-- **What a hub shows**: its text is read as a snapshot, and the text with its id as an array of
the two. -/
theorem decodes_texts (h : HubId) : ∃ s, ShowsSnapshot (start settings wall disk) b h s ∧
    b.Decodes h (b.formatted h).2 s ∧ Json.Spells (b.json h).2.toList
      (.array [.string (some (b.hub h).id.toList), s.object (b.layout h)]) := by
  have hstart := sound_start settings wall disk (sound_of_absent absent)
  have hh := ChangesBy.holdsTexts hc hstart (holdsTexts_start settings wall disk h)
  obtain ⟨s, hs, hdec⟩ := hh.decodes_formatted hc (hc.sound hstart)
  refine ⟨s, hs, hdec, ?_⟩
  rw [hh.json_snd]
  exact (b.hub h).spells_wrap hdec.spells

/-- What is read of a hub is what is answered for it. -/
theorem spells_readOne (r : Request) (h : HubId) : ∃ j,
    Json.Spells (b.readOne r h).2.toList j ∧ Answers (start settings wall disk) b r h j := by
  obtain ⟨s, -, -, hjson⟩ := decodes_texts absent hc h
  unfold readOne Answers
  cases r.history with
  | none => exact ⟨_, hjson, hjson.read⟩
  | some limit =>
    cases r.latest with
    | true => exact ⟨_, hjson, hjson.read⟩
    | false =>
      have hstart := sound_start settings wall disk (sound_of_absent absent)
      have hline : ∀ line ∈ b.tailLines h limit, ∃ j, Json.Spells line.toList j ∧
          Recalls (start settings wall disk) b h line j := by
        intro line hl
        obtain ⟨s, he⟩ := mem_events_of_mem_tailLines absent hc hl
        exact ChangesBy.recalls hc hstart (events_start ..) he
      obtain ⟨past, hpast⟩ := exists_forall₂ hline
      refine ⟨.array [.string (some (b.hub h).id.toList), .array past], ?_, past, rfl,
        hpast.imp fun _ _ hj => hj.2⟩
      show Json.Spells (b.historyText h limit).toList _
      rw [historyText_eq]
      exact (b.hub h).spells_wrap (Json.spells_texts (hpast.imp fun _ _ hj => hj.1))

/-- **An answer has one element for each hub that is asked for**, in order. -/
theorem spells_readTargets (op : TargetOperation) : ∃ items,
    Json.Spells (b.readTargets op).2.toList (.array items) ∧
      List.Forall₂ (Answers (start settings wall disk) b op.request) op.targets items := by
  obtain ⟨items, hitems⟩ := exists_forall₂ (l := op.targets) fun h _ =>
    spells_readOne absent hc op.request h
  refine ⟨items, ?_, hitems.imp fun _ _ hj => hj.2⟩
  show Json.Spells ("[\n" ++ ",\n".intercalate (readEach op.request b op.targets).2 ++
    "\n]").toList _
  rw [readEach_snd]
  refine Json.spells_lines ?_
  rw [List.forall₂_map_left_iff]
  exact hitems.imp fun _ _ hj => hj.1

end Start

/-- **Texts of hubs and answers are read as what they show.** After any run, and at any moment of
one, from a start without files:
* the text of a hub is one object. Its members are laid out by the table of the hub, and show a
  snapshot in which nothing that they show is missing. The text with the id of the hub is an array
  of the id and that object;
* from a publication on, as long as no leaf is registered on the hub, this is the snapshot that the
  hub published last, unless the hub is volatile;
* an answer is an array with one element for each hub that is asked for. -/
theorem texts_wellFormed (settings : Settings) (wall : Timestamp) {disk : Disk}
    (absent : ∀ name, disk.read? name = none) {b : Board}
    (hc : Changes (start settings wall disk) b) :
    (∀ h, ∃ s, ShowsSnapshot (start settings wall disk) b h s ∧ s.Fits (b.layout h) ∧
      Json.read (b.formatted h).2.toList = some (s.object (b.layout h)) ∧
      Json.read (b.json h).2.toList =
        some (.array [.string (some (b.hub h).id.toList), s.object (b.layout h)])) ∧
    (∀ a h time, Changes (start settings wall disk) a → a.isHubHeld h = true →
      Changes (a.post h time) b → (b.hub h).table = (a.hub h).table →
      (b.hub h).isVolatile = false → ∃ s, (b.hub h).snapshot = some s ∧
        Json.read (b.formatted h).2.toList = some (s.object (b.layout h))) ∧
    ∀ op : TargetOperation, ∃ items,
      Json.read (b.readTargets op).2.toList = some (.array items) ∧
        List.Forall₂ (Answers (start settings wall disk) b op.request) op.targets items := by
  have hstart := sound_start settings wall disk (sound_of_absent absent)
  refine ⟨fun h => ?_, fun a h time ha held hab ht hv => ?_, fun op => ?_⟩
  · obtain ⟨s, hs, hdec, hjson⟩ := decodes_texts absent hc h
    exact ⟨s, hs, hdec.fits, hdec.read, hjson.read⟩
  · obtain ⟨s, hs, hdec⟩ := decodes_snapshot (ha.sound hstart) held hab ht hv
    exact ⟨s, hs, hdec.read⟩
  · obtain ⟨items, hspells, hitems⟩ := spells_readTargets absent hc op
    exact ⟨items, hspells.read, hitems⟩

/-- A hub with a scalar and an array, which are written in one transaction. -/
def writtenOnce : List Op :=
  [.openHub (Name.hubName "r"), .makeLeaf "v" .scalar "v", .makeLeaf "xs" .array "xs",
    .addLeaf ⟨1⟩ "http://x/v" ⟨6⟩, .addLeaf ⟨1⟩ "http://x/xs" ⟨7⟩, .openTransaction .batch,
    .setValue ⟨1⟩ "http://x/v" (.string "a\"b"),
    .setValues ⟨1⟩ "http://x/xs" [.int 1, .string ""], .finish]

/-- A request for the last line of the history of that hub and of the system hub. -/
def lastLines : TargetOperation where
  request := { operation := .read, dataset := "d", selector := .id "r", history := some 1 }
  targets := [⟨1⟩, ⟨0⟩]

/-- The hub is published once more. Its text shows the array and the quote. -/
theorem texts_wellFormed_writtenOnce :
    let a := (start {} default {}).run writtenOnce
    let b := a.post ⟨1⟩ default
    (b.formatted ⟨1⟩).2 = "\x7b\"instant\":0,\"datetime\":\"1970-01-01T00:00:00.000Z\"," ++
      "\"xs\":[1,\"\"],\"v\":\"a\\\"b\"\x7d" ∧
    (b.tailLines ⟨1⟩ 1).length = 1 ∧
    (∃ s, ShowsSnapshot (start {} default {}) b ⟨1⟩ s ∧ s.Fits (b.layout ⟨1⟩) ∧
      Json.read (b.formatted ⟨1⟩).2.toList = some (s.object (b.layout ⟨1⟩)) ∧
      Json.read (b.json ⟨1⟩).2.toList =
        some (.array [.string (some (b.hub ⟨1⟩).id.toList), s.object (b.layout ⟨1⟩)])) ∧
    (∃ s, (b.hub ⟨1⟩).snapshot = some s ∧
      Json.read (b.formatted ⟨1⟩).2.toList = some (s.object (b.layout ⟨1⟩))) ∧
    ∃ items, Json.read (b.readTargets lastLines).2.toList = some (.array items) ∧
      List.Forall₂ (Answers (start {} default {}) b lastLines.request) lastLines.targets items := by
  intro a b
  have ha : Changes (start {} default {}) a :=
    run_changes (sound_start {} default {} Disk.sound_empty) writtenOnce
  obtain ⟨held, hkept, htext, htail⟩ : a.isHubHeld ⟨1⟩ = true ∧ (b.hub ⟨1⟩).isVolatile = false ∧
      (b.formatted ⟨1⟩).2 = "\x7b\"instant\":0,\"datetime\":\"1970-01-01T00:00:00.000Z\"," ++
        "\"xs\":[1,\"\"],\"v\":\"a\\\"b\"\x7d" ∧
      (b.tailLines ⟨1⟩ 1).length = 1 := by
    decide +kernel
  have hb : Changes (start {} default {}) b := ha.tail (.move (.post ⟨1⟩ default held))
  have hall := texts_wellFormed {} default (fun _ => rfl) hb
  have htable := ((Frame.post a ⟨1⟩ default).hub ⟨1⟩).table
  exact ⟨htext, htail, hall.1 ⟨1⟩, hall.2.1 a ⟨1⟩ default ha held .refl htable hkept,
    hall.2.2 lastLines⟩

end Board

end Switchboard
