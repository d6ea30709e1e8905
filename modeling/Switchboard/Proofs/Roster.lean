import Switchboard.Proofs.History
import Switchboard.Proofs.Scopes

/-!
# The roster of hubs

Hubs are known by name and by id. Both registries know the same hubs, and a name that led to a hub
leads to it for good. A name is refused exactly if it is not that of the hub namespace with a legal
id behind it, and then nothing is made. A hub that is known by name has a series that goes by its id.
The id is one step down from the history directory. The only exception is the id `.`, which leads to
the directory itself.

* `Name.isHubId_iff`: which ids are legal.
* `Path.leadsTo_of_isHubId`: where the path of a legal id leads.
* `Board.roster`: what holds of the hubs that are known, on every reachable board.
-/

namespace Switchboard

/-! ### Legal ids -/

namespace Name

theorem hasDots_iff {s : List Char} : hasDots s = true ↔ ['.', '.'] <:+: s := by
  fun_induction hasDots s with
  | case1 s => exact iff_of_true rfl ⟨[], s, rfl⟩
  | case2 c s hc ih =>
    rw [ih, List.infix_cons_iff]
    refine (or_iff_right ?_).symm
    -- the two points do not start here
    rintro ⟨t, ht⟩
    cases ht
    exact hc t rfl rfl
  | case3 => simp

/-- **Which ids are legal.** -/
theorem isHubId_iff {id : List Char} : isHubId id = true ↔
    id ≠ [] ∧ '/' ∉ id ∧ '\\' ∉ id ∧ '\x00' ∉ id ∧ ¬ ['.', '.'] <:+: id := by
  have hany : (id.any fun c => c = '/' || c = '\\' || c = '\x00') = true ↔
      '/' ∈ id ∨ '\\' ∈ id ∨ '\x00' ∈ id := by
    simp only [List.any_eq_true, Bool.or_eq_true, decide_eq_true_eq]
    constructor
    · rintro ⟨c, hc, (rfl | rfl) | rfl⟩
      · exact .inl hc
      · exact .inr (.inl hc)
      · exact .inr (.inr hc)
    · rintro (hc | hc | hc)
      · exact ⟨_, hc, .inl (.inl rfl)⟩
      · exact ⟨_, hc, .inl (.inr rfl)⟩
      · exact ⟨_, hc, .inr rfl⟩
  rw [isHubId, Bool.and_eq_true, Bool.and_eq_true, Bool.not_eq_true', Bool.not_eq_true',
    Bool.not_eq_true', List.isEmpty_eq_false_iff, ← Bool.not_eq_true, hany, ← Bool.not_eq_true,
    hasDots_iff, not_or, not_or, and_assoc, and_assoc, and_assoc]

/-- An id tells the name of its hub. -/
theorem hubName_inj {id other : String} : hubName id = hubName other ↔ id = other := by
  rw [hubName, hubName, String.append_right_inj]

end Name

/-! ### Paths -/

namespace Path

/-- Goes along the segments of a path, from a place that is some names below where it starts.
An empty segment and `.` stay there, `..` goes up, any other goes down. Nothing leads up from the
start. -/
def walk : (below segments : List String) → Option (List String)
  | below, [] => some below
  | below, s :: segments =>
    if s = "" ∨ s = "." then walk below segments
    else if s = ".." then
      if below = [] then none else walk below.dropLast segments
    else walk (below ++ [s]) segments

/-- Where a path leads that is joined to a directory: the names on the way down from there.
An absolute path leads away from it. -/
def leadsTo (path : String) : Option (List String) :=
  if path.toList.head? = some '/' then none
  else walk [] ((Text.fields '/' path.toList).map String.ofList)

/-- **A legal id is one step down**, but for the one that leads nowhere else. -/
theorem leadsTo_of_isHubId {id : String} (legal : Name.isHubId id.toList = true) :
    leadsTo id = some (if id = "." then [] else [id]) := by
  obtain ⟨hne, hslash, -, -, hdots⟩ := Name.isHubId_iff.1 legal
  have hhead : id.toList.head? ≠ some '/' := fun h => hslash (List.mem_of_mem_head? h)
  have hempty : id ≠ "" := by
    rintro rfl
    exact hne rfl
  have hup : id ≠ ".." := by
    rintro rfl
    exact hdots ⟨[], [], rfl⟩
  rw [leadsTo, if_neg hhead, Text.fields_of_not_mem hslash, List.map_singleton, String.ofList_toList,
    walk]
  by_cases hpoint : id = "."
  · rw [if_pos (.inr hpoint), if_pos hpoint, walk]
  · rw [if_neg (not_or.2 ⟨hempty, hpoint⟩), if_neg hup, if_neg hpoint, walk, List.nil_append]

end Path

/-- The path of a series leads where its id leads. -/
theorem TimeSeries.leadsTo_path (s : TimeSeries) : Path.leadsTo s.path = Path.leadsTo s.id := by
  unfold TimeSeries.path
  split
  · rename_i hs
    rw [hs]
    decide
  · rfl

namespace Board

variable {A : Action → Prop} {E : Edit → Prop} {b b' : Board}

/-! ### The two registries -/

theorem hubsById_openHub {name id : String} (legal : Name.hubId? name = some id) :
    ((b.newHub name true).1.enterHub (b.newHub name true).2).registry.hubsById =
      b.registry.hubsById.put id (b.newHub name true).2 := by
  have hid : ((b.newHub name true).1.hub (b.newHub name true).2).id = id := by
    rw [Hub.id, name_openHub legal, Name.hubId, legal, Option.getD_some]
  rw [enterHub, hid, newHub_true name legal]
  rfl

/-- Whether both registries know the same hubs. -/
def Agrees (b : Board) : Prop := ∀ id, b.hubById? id = b.hub? (Name.hubName id)

theorem agrees_start (settings : Settings) (wall : Timestamp) (disk : Disk) :
    (start settings wall disk).Agrees := by
  intro id
  rw [hubById?, hub?, start_eq, Register.get?_put, Register.get?_put]
  have hid : (systemHub disk).id = Name.systemId := by
    rw [Hub.id, systemHub, Name.hubId, hubId?_system, Option.getD_some]
  simp only [hid, Name.hubName_inj]
  rfl

theorem Change.agrees (hc : Change A E b b') (ha : b.Agrees) : b'.Agrees := by
  cases hc with
  | move m =>
    intro id
    rw [hubById?, hub?, m.frame.registry]
    exact ha id
  | openHub name other legal new _ =>
    intro id
    obtain ⟨rfl, -⟩ := Name.hubId?_eq_some.1 legal
    rw [hubById?, hub?, hubsById_openHub legal, registry_openHub legal new, Register.get?_put,
      Register.get?_put]
    simp only [Name.hubName_inj]
    split
    · rfl
    · exact ha id
  | makeHub label name _ =>
    rw [newHub_false]
    exact ha
  | addLeaf h predicate l _ _ free _ =>
    intro id
    rw [hubById?, hub?, registry_addLeaf free]
    exact ha id
  | _ => exact ha

/-! ### Series of known hubs -/

/-- Whether every hub that is known by name has a series, made for that name. -/
def Keeps (b : Board) : Prop :=
  ∀ name h, b.hub? name = some h → ∃ s, (b.hub h).series = some s ∧ s.hubName = name

theorem keeps_start (settings : Settings) (wall : Timestamp) (disk : Disk) :
    (start settings wall disk).Keeps := by
  intro name h hn
  rw [hub?, start_eq, Register.get?_put] at hn
  split at hn
  · rename_i he
    cases hn
    rw [hub_start, if_pos rfl]
    exact ⟨_, rfl, he⟩
  · cases hn

/-- A hub becomes known by name together with its series. -/
theorem Change.hub?_cases (hc : Change A E b b') {name : String} {h : HubId}
    (hn : b'.hub? name = some h) : b.hub? name = some h ∨
      ∃ s, (b'.hub h).series = some s ∧ s.hubName = name := by
  cases hc with
  | move m =>
    rw [hub?, m.frame.registry] at hn
    exact .inl hn
  | openHub other id legal new _ =>
    rw [hub?, registry_openHub legal new, Register.get?_put] at hn
    split at hn
    · rename_i he
      cases hn
      refine .inr ⟨⟨other, id, (b.disk.openFile id).2⟩, ?_, he⟩
      show ((b.newHub other true).1.hub (b.newHub other true).2).series = _
      rw [newHub_true other legal, hub_addHub, if_pos rfl]
    · exact .inl hn
  | makeHub label other _ =>
    rw [newHub_false] at hn
    exact .inl hn
  | addLeaf k predicate l _ _ free _ =>
    rw [hub?, registry_addLeaf free] at hn
    exact .inl hn
  | _ => exact .inl hn

theorem Change.keeps (hc : Change A E b b') (hb : Sound b) (hk : b.Keeps) : b'.Keeps := by
  intro name h hn
  rcases hc.hub?_cases hn with hn | hs
  · rw [hc.series (hb.held h (isHubHeld_of_hub? hn))]
    exact hk name h hn
  · exact hs

/-- **Both registries know the same hubs, and these have series**, on every reachable board. -/
theorem Reachable.listed (hb : Reachable b) : b.Agrees ∧ b.Keeps := by
  obtain ⟨settings, wall, disk, ops, hd, rfl⟩ := hb
  have hstart := sound_start settings wall disk hd
  have hc := run_changes hstart ops
  generalize (start settings wall disk).run ops = b' at hc
  -- by induction on the changes that the run is made of
  induction hc with
  | refl => exact ⟨agrees_start settings wall disk, keeps_start settings wall disk⟩
  | tail hs hc ih => exact ⟨hc.agrees ih.1, hc.keeps (ChangesBy.sound hs hstart) ih.2⟩

/-! ### Names that are refused -/

/-- The names that hubs can have. -/
theorem hubId?_isSome_iff {name : String} : (Name.hubId? name).isSome = true ↔
    ∃ id, name = Name.hubName id ∧ Name.isHubId id.toList = true := by
  rw [Option.isSome_iff_exists]
  simp only [Name.hubId?_eq_some]

/-- A legal name leads to a hub. -/
theorem openHub_of_legal {name id : String} (legal : Name.hubId? name = some id) :
    ∃ b' h, b.openHub name = .ok (b', h) := by
  cases hn : b.hub? name with
  | some h =>
    refine ⟨b, h, ?_⟩
    unfold openHub
    rw [legal, hn]
  | none => exact ⟨_, _, openHub_of_new legal hn⟩

/-- An illegal name is refused. -/
theorem openHub_of_illegal {name : String} (illegal : Name.hubId? name = none) :
    b.openHub name = .error (.naming (.illegalHubName name)) := by
  unfold openHub
  rw [illegal]

/-- A triple with an illegal name for a hub is left to the graph. -/
theorem classify_of_illegal {name : String} (illegal : Name.hubId? name = none) (predicate : String)
    (object : TripleObject) : b.classify name predicate object = (b, .ignored) := by
  cases object with
  | iri name =>
    rw [classify, illegal]
    rfl
  | literal v => rw [classify, illegal]

/-! ### Hubs that are found -/

theorem hub?_of_openHub {name : String} {h : HubId} (ho : b.openHub name = .ok (b', h)) :
    b'.hub? name = some h := by
  rcases openHub_cases ho with ⟨hn, rfl⟩ | ⟨id, legal, new, rfl, rfl⟩
  · exact hn
  · rw [hub?, registry_openHub legal new, Register.get?_put_self]

/-- A hub that is known is what its name leads to. -/
theorem openHub_of_known {name id : String} {h : HubId} (legal : Name.hubId? name = some id)
    (hn : b.hub? name = some h) : b.openHub name = .ok (b, h) := by
  unfold openHub
  rw [legal, hn]

theorem Sound.hubId?_of_known (hb : Sound b) (hk : b.Keeps) {name : String} {h : HubId}
    (hn : b.hub? name = some h) : ∃ s, (b.hub h).series = some s ∧ s.hubName = name ∧
      Name.hubId? name = some s.id := by
  obtain ⟨s, hs, he⟩ := hk name h hn
  refine ⟨s, hs, he, ?_⟩
  rw [← hb.named name h hn]
  exact (hb.series h s hs).id

/-- A name that led to a hub leads to it after any operations. -/
theorem found_after (hb : Reachable b) {name : String} {h : HubId} (hn : b.hub? name = some h)
    (ops : List Op) : (b.run ops).hub? name = some h ∧
      (b.run ops).openHub name = .ok (b.run ops, h) := by
  have hn' := (run_changes hb.sound ops).hub?_eq hn
  obtain ⟨s, -, -, legal⟩ := (hb.run ops).sound.hubId?_of_known (hb.run ops).listed.2 hn'
  exact ⟨hn', openHub_of_known legal hn'⟩

/-- The history of a hub that is known by a name: a series that goes by the id of the hub, in the
place where that id leads from the history directory. -/
structure Archives (b : Board) (name : String) (h : HubId) (s : TimeSeries) : Prop where
  series : (b.hub h).series = some s
  hubName : s.hubName = name
  id : s.id = (b.hub h).id
  name : name = Name.hubName s.id
  path : s.path = if s.id = "." then "" else s.id
  place : Path.leadsTo s.path = some (if s.id = "." then [] else [s.id])

theorem Sound.archives (hb : Sound b) (hk : b.Keeps) {name : String} {h : HubId}
    (hn : b.hub? name = some h) : ∃ s, b.Archives name h s := by
  obtain ⟨s, hs, he, legal⟩ := hb.hubId?_of_known hk hn
  obtain ⟨hname, hid⟩ := Name.hubId?_eq_some.1 legal
  refine ⟨s, hs, he, ?_, hname, rfl, ?_⟩
  · rw [Hub.id, hb.named name h hn, Name.hubId, legal, Option.getD_some]
  · rw [s.leadsTo_path, Path.leadsTo_of_isHubId hid]

/-- Legal ids that lead to one place are one id. -/
theorem Archives.id_eq {name other : String} {h k : HubId} {s t : TimeSeries}
    (hs : b.Archives name h s) (ht : b.Archives other k t)
    (hp : Path.leadsTo s.path = Path.leadsTo t.path) : s.id = t.id := by
  have hp := Option.some.inj ((hs.place.symm.trans hp).trans ht.place)
  by_cases hi : s.id = "." <;> by_cases hj : t.id = "."
  · rw [hi, hj]
  · rw [if_pos hi, if_neg hj] at hp
    cases hp
  · rw [if_neg hi, if_pos hj] at hp
    cases hp
  · rw [if_neg hi, if_neg hj] at hp
    exact List.head_eq_of_cons_eq hp

/-- **The hubs that are known**, on every reachable board. Both registries know the same hubs. A hub
that is given out for a name is what the name leads to from then on. A name is refused exactly if it
is not a legal id behind the hub namespace, and nothing changes then. Every known hub has a history
that goes by its id, and no two of them lead to one place. -/
theorem roster (hb : Reachable b) :
    (∀ id, b.hubById? id = b.hub? (Name.hubName id)) ∧
    (∀ name h, b.hub? name = some h → ∀ ops, (b.run ops).hub? name = some h ∧
      (b.run ops).openHub name = .ok (b.run ops, h)) ∧
    (∀ name b' h, b.openHub name = .ok (b', h) → b' = b.step (.openHub name) ∧
      ∀ ops, (b'.run ops).hub? name = some h ∧ (b'.run ops).openHub name = .ok (b'.run ops, h)) ∧
    (∀ name, (∃ b' h, b.openHub name = .ok (b', h)) ↔
      ∃ id, name = Name.hubName id ∧ id ≠ "" ∧ '/' ∉ id.toList ∧ '\\' ∉ id.toList ∧
        '\x00' ∉ id.toList ∧ ¬ ['.', '.'] <:+: id.toList) ∧
    (∀ name e, b.openHub name = .error e → e = .naming (.illegalHubName name) ∧
      b.step (.openHub name) = b ∧
      ∀ predicate object, b.classify name predicate object = (b, .ignored)) ∧
    (∀ name h, b.hub? name = some h → ∃ s, b.Archives name h s) ∧
    ∀ name other h k s t, h ≠ k → b.Archives name h s → b.Archives other k t →
      Path.leadsTo s.path ≠ Path.leadsTo t.path := by
  obtain ⟨hagrees, hkeeps⟩ := hb.listed
  refine ⟨hagrees, fun name h hn ops => found_after hb hn ops, ?_, ?_, ?_,
    fun name h hn => hb.sound.archives hkeeps hn, ?_⟩
  · intro name b' h ho
    have hstep : b' = b.step (.openHub name) := by rw [step, ho, orElse]
    refine ⟨hstep, fun ops => found_after ?_ (hub?_of_openHub ho) ops⟩
    rw [hstep]
    exact hb.run [.openHub name]
  · intro name
    have hlegal : (∃ b' h, b.openHub name = .ok (b', h)) ↔ (Name.hubId? name).isSome = true := by
      constructor
      · rintro ⟨b', h, ho⟩
        cases hl : Name.hubId? name with
        | none =>
          rw [openHub_of_illegal hl] at ho
          cases ho
        | some id => rfl
      · intro hl
        obtain ⟨id, hl⟩ := Option.isSome_iff_exists.1 hl
        exact openHub_of_legal hl
    have hempty : ∀ id : String, id.toList ≠ [] ↔ id ≠ "" := fun id => by
      rw [ne_eq, ne_eq, String.toList_eq_nil_iff]
    simp only [hlegal, hubId?_isSome_iff, Name.isHubId_iff, hempty]
  · intro name e he
    have illegal : Name.hubId? name = none := by
      cases hl : Name.hubId? name with
      | none => rfl
      | some id =>
        obtain ⟨b', h, ho⟩ := openHub_of_legal (b := b) hl
        rw [ho] at he
        cases he
    rw [openHub_of_illegal illegal] at he
    cases he
    refine ⟨rfl, ?_, fun predicate object => classify_of_illegal illegal predicate object⟩
    rw [step, openHub_of_illegal illegal, orElse]
  · intro name other h k s t hne hs ht hp
    exact hne (hb.sound.series_apart hs.series ht.series (hs.id_eq ht hp))

/-- A board with two hubs. The id of the second is `.`. -/
def pointHub : Board :=
  (start {} default {}).run [.openHub (Name.hubName "r"), .openHub (Name.hubName ".")]

theorem reachable_pointHub : Reachable pointHub :=
  ⟨{}, default, {}, _, Disk.sound_empty, rfl⟩

/-- The second hub is known by its id, its name leads to it from now on, and its history is in
another place than that of the first. -/
theorem roster_pointHub : Reachable pointHub ∧ pointHub.hubById? "." = some ⟨2⟩ ∧
    (∀ ops, (pointHub.run ops).openHub (Name.hubName ".") = .ok (pointHub.run ops, ⟨2⟩)) ∧
    ∃ s t, (pointHub.hub ⟨1⟩).series = some s ∧ (pointHub.hub ⟨2⟩).series = some t ∧
      Path.leadsTo s.path = some ["r"] ∧ Path.leadsTo s.path ≠ Path.leadsTo t.path := by
  obtain ⟨hagrees, hfound, -, -, -, hknown, hapart⟩ := roster reachable_pointHub
  have hfirst : pointHub.hub? (Name.hubName "r") = some ⟨1⟩ := by decide +kernel
  have hsecond : pointHub.hub? (Name.hubName ".") = some ⟨2⟩ := by decide +kernel
  refine ⟨reachable_pointHub, (hagrees ".").trans hsecond, fun ops => (hfound _ _ hsecond ops).2, ?_⟩
  obtain ⟨s, hs⟩ := hknown _ _ hfirst
  obtain ⟨t, ht⟩ := hknown _ _ hsecond
  have hid : s.id = "r" := Name.hubName_inj.1 hs.name.symm
  refine ⟨s, t, hs.series, ht.series, ?_, hapart _ _ _ _ s t (by decide) hs ht⟩
  rw [hs.place, hid]
  decide

/-- The history of the second hub is not one step down from the history directory: its path is that
of the directory itself. -/
theorem directory_pointHub : Reachable pointHub ∧ pointHub.hub? (Name.hubName ".") = some ⟨2⟩ ∧
    ∃ s, (pointHub.hub ⟨2⟩).series = some s ∧ s.id = "." ∧ Path.leadsTo s.path = some [] ∧
      Path.leadsTo s.path ≠ some [s.id] := by
  refine ⟨reachable_pointHub, by decide +kernel, ⟨Name.hubName ".", ".", none⟩, ?_, rfl, ?_, ?_⟩
  · decide +kernel
  · decide
  · decide

end Board

end Switchboard
