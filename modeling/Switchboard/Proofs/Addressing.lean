import Switchboard.Proofs.Commit
import Switchboard.Proofs.Roster
import Switchboard.Request.Answer

/-!
# Hubs addressed by id

The path of a hub has the root, the dataset, the operation, the word `id` and the id of the hub
between slashes, with any number of slashes at its end. It may be written in many ways, since it is
percent-decoded before it is cut. The hub that it leads to is the registered one with that id.

* `Request.segments_idPath`: the path is cut into its parts.
* `Request.decodePath?_idPath`: how it may be written.
* `Board.hub?_hubName`: the hub with an id.
* `Board.findTargets_addressed`: what such a path leads to, on every reachable board.
-/

namespace Switchboard

open Text

/-- The word that names an operation. -/
def Operation.word : Operation → String
  | .read => "read"
  | .update => "update"

/-- Whether a text spells a word in letters of either case. -/
def IsSpelling (text word : String) : Prop :=
  List.Forall₂ (fun c d => c = d ∨ c = d.toUpper) text.toList word.toList

theorem IsSpelling.exists_letter {text word : String} (h : IsSpelling text word) :
    ∀ c ∈ text.toList, ∃ d ∈ word.toList, c = d ∨ c = d.toUpper := by
  unfold IsSpelling at h
  generalize text.toList = s at h ⊢
  generalize word.toList = w at h ⊢
  induction h with
  | nil => exact fun c hc => nomatch hc
  | @cons c d s w hcd _ ih =>
    rw [List.forall_mem_cons]
    refine ⟨⟨d, List.mem_cons_self, hcd⟩, fun c hc => ?_⟩
    obtain ⟨d, hd, hcd⟩ := ih c hc
    exact ⟨d, List.mem_cons_of_mem _ hd, hcd⟩

/-- Whether the parameters for history and current value are absent or can be read. -/
structure Params.Legible (p : Params) : Prop where
  history : ∀ text, p.first? Params.historyKey = some text →
    (Decimal.unsigned64? (Text.trim text.toList)).isSome = true
  latest : ∀ text, p.first? Params.latestKey = some text →
    (Decimal.signed64? (Text.trim text.toList)).isSome = true

namespace Request

variable {p : Params} {root dataset word id : List Char} {op : Operation}

/-! ### Parts of a request -/

theorem map_toLower_of_isSpelling {text word : String} (h : IsSpelling text word)
    (hword : ∀ d ∈ word.toList, d.toLower = d ∧ d.toUpper.toLower = d) :
    String.ofList (text.toList.map Char.toLower) = word := by
  have hlower : text.toList.map Char.toLower = word.toList := by
    unfold IsSpelling at h
    generalize text.toList = s at h
    generalize word.toList = w at h hword
    induction h with
    | nil => rfl
    | @cons c d s w hc _ ih =>
      rw [List.forall_mem_cons] at hword
      have hcd : c.toLower = d := by
        rcases hc with rfl | rfl
        · exact hword.1.1
        · exact hword.1.2
      rw [List.map_cons, hcd, ih hword.2]
  rw [hlower, String.ofList_toList]

/-- **An operation is named in letters of either case.** -/
theorem operation?_of_isSpelling {word : String} (h : IsSpelling word op.word) :
    operation? word = some op := by
  have hall : (op.word.toList.all fun d => d.toLower = d ∧ d.toUpper.toLower = d) = true := by
    cases op <;> decide
  have hlower := map_toLower_of_isSpelling h fun d hd =>
    of_decide_eq_true (List.all_eq_true.1 hall d hd)
  unfold operation?
  rw [hlower]
  cases op <;> rfl

theorem history?_of_legible (h : p.Legible) : ∃ n, history? p = .ok n := by
  unfold history?
  cases hp : p.first? Params.historyKey with
  | none => exact ⟨none, rfl⟩
  | some text =>
    obtain ⟨n, hn⟩ := Option.isSome_iff_exists.1 (h.history text hp)
    refine ⟨some n, ?_⟩
    dsimp only
    rw [hn]

theorem latest?_of_legible (h : p.Legible) : ∃ l, latest? p = .ok l := by
  unfold latest?
  cases hp : p.first? Params.latestKey with
  | none => exact ⟨false, rfl⟩
  | some text =>
    obtain ⟨i, hi⟩ := Option.isSome_iff_exists.1 (h.latest text hp)
    refine ⟨decide (i ≠ 0), ?_⟩
    dsimp only
    rw [hi]

/-! ### The path of a hub -/

/-- The path of the hub with an id, with some slashes at its end. -/
def idPath (root dataset word id : List Char) (slashes : Nat) : List Char :=
  '/' :: root ++ '/' :: dataset ++ '/' :: word ++ '/' :: "id".toList ++ '/' :: id ++
    List.replicate slashes '/'

theorem fields_replicate (n : Nat) :
    fields '/' (List.replicate n '/') = List.replicate (n + 1) [] := by
  induction n with
  | zero => rfl
  | succ n ih => rw [List.replicate_succ, fields, if_pos rfl, ih, ← List.replicate_succ]

/-- Slashes at the end of a segment add empty segments. -/
theorem fields_append_replicate (h : '/' ∉ id) (n : Nat) :
    fields '/' (id ++ List.replicate n '/') = id :: List.replicate n [] := by
  cases n with
  | zero => rw [List.replicate_zero, List.append_nil, fields_of_not_mem h, List.replicate_zero]
  | succ n => rw [List.replicate_succ, fields_append_cons h, fields_replicate]

/-- Segments up to a last one that is not empty stay, and the empty ones behind it do not count. -/
theorem dropWhile_isEmpty {last : List Char} (h : last ≠ []) (before : List (List Char)) (n : Nat) :
    ((before ++ last :: List.replicate n []).reverse.dropWhile List.isEmpty).reverse =
      before ++ [last] := by
  have hlast : last.isEmpty = false := List.isEmpty_eq_false_iff.2 h
  have hempty : ∀ s ∈ List.replicate n ([] : List Char), s.isEmpty = true := by
    intro s hs
    rw [(List.mem_replicate.1 hs).2, List.isEmpty_nil]
  rw [List.reverse_append, List.reverse_cons, List.reverse_replicate, List.append_assoc,
    List.dropWhile_append_of_pos hempty, List.singleton_append, List.dropWhile_cons_of_neg
      (by rw [hlast]; exact Bool.false_ne_true)]
  simp

/-- **The path of a hub is cut into its parts.** -/
theorem segments_idPath (hroot : '/' ∉ root) (hdataset : '/' ∉ dataset) (hword : '/' ∉ word)
    (hne : id ≠ []) (hid : '/' ∉ id) (n : Nat) : segments (idPath root dataset word id n) =
      ["", String.ofList root, String.ofList dataset, String.ofList word, "id",
        String.ofList id] := by
  have hfields : fields '/' (idPath root dataset word id n) =
      [[], root, dataset, word, "id".toList] ++ id :: List.replicate n [] := by
    simp only [idPath, List.append_assoc, List.cons_append]
    rw [fields, if_pos rfl, fields_append_cons hroot, fields_append_cons hdataset,
      fields_append_cons hword, fields_append_cons (by decide), fields_append_replicate hid]
    rfl
  rw [segments, hfields, dropWhile_isEmpty hne]
  simp

theorem decodePath?_segment {r s t u : List Char} (hr : Percent.decodePath? r = some s)
    (ht : Percent.decodePath? t = some u) :
    Percent.decodePath? (r ++ '/' :: t) = some (s ++ '/' :: u) := by
  rw [Percent.decodePath?_append_slash, hr, ht]
  rfl

theorem decodePath?_self {s : List Char} (h : ∀ c ∈ s, c.toNat < 0x80 ∧ c ≠ '%') :
    Percent.decodePath? s = some s :=
  (Percent.written_self h).decodePath?

theorem kept_of_isSpelling {word : String} (h : IsSpelling word op.word) :
    ∀ c ∈ word.toList, c.toNat < 0x80 ∧ c ≠ '%' ∧ c ≠ '/' := by
  have hall : (op.word.toList.all fun d => (d.toNat < 0x80 ∧ d ≠ '%' ∧ d ≠ '/') ∧
      d.toUpper.toNat < 0x80 ∧ d.toUpper ≠ '%' ∧ d.toUpper ≠ '/') = true := by
    cases op <;> decide
  have hletters := fun d hd => of_decide_eq_true (List.all_eq_true.1 hall d hd)
  intro c hc
  obtain ⟨d, hd, rfl | rfl⟩ := h.exists_letter c hc
  · exact (hletters c hd).1
  · exact (hletters d hd).2

/-- **How the path of a hub may be written**: its root, dataset and id in any way that decodes to
them. -/
theorem decodePath?_idPath {r d i : List Char} (hr : Percent.decodePath? r = some root)
    (hd : Percent.decodePath? d = some dataset)
    (hword : ∀ c ∈ word, c.toNat < 0x80 ∧ c ≠ '%') (hi : Percent.decodePath? i = some id)
    (n : Nat) :
    Percent.decodePath? (idPath r d word i n) = some (idPath root dataset word id n) := by
  have hempty : Percent.decodePath? [] = some [] := rfl
  have hslashes : Percent.decodePath? (i ++ List.replicate n '/') =
      some (id ++ List.replicate n '/') := by
    cases n with
    | zero => simpa using hi
    | succ n =>
      have hrest : Percent.decodePath? (List.replicate n '/') = some (List.replicate n '/') := by
        refine decodePath?_self fun c hc => ?_
        rw [(List.mem_replicate.1 hc).2]
        decide
      exact decodePath?_segment hi hrest
  have hidWord : Percent.decodePath? "id".toList = some "id".toList := by decide +kernel
  simp only [idPath, List.append_assoc, List.cons_append]
  exact decodePath?_segment hempty (decodePath?_segment hr (decodePath?_segment hd
    (decodePath?_segment (decodePath?_self hword) (decodePath?_segment hidWord hslashes))))

/-- A request for the hub with an id. -/
theorem ofPath?_idPath {path root dataset word id : String} (hp : p.Legible)
    (hroot : '/' ∉ root.toList) (hdataset : '/' ∉ dataset.toList)
    (hword : IsSpelling word op.word) (hne : id ≠ "") (hid : '/' ∉ id.toList) {n : Nat}
    (hpath : Percent.decodePath? path.toList =
      some (idPath root.toList dataset.toList word.toList id.toList n)) :
    ∃ r, ofPath? path p = .ok r ∧ r.operation = op ∧ r.dataset = dataset ∧ r.selector = .id id := by
  obtain ⟨history, hhistory⟩ := history?_of_legible hp
  obtain ⟨latest, hlatest⟩ := latest?_of_legible hp
  have hslash : '/' ∉ word.toList := fun hc => (kept_of_isSpelling hword _ hc).2.2 rfl
  have hne' : id.toList ≠ [] := fun h => hne (String.toList_eq_nil_iff.1 h)
  have hsegments := segments_idPath hroot hdataset hslash hne' hid n
  simp only [String.ofList_toList] at hsegments
  refine ⟨⟨op, dataset, .id id, history, latest, p.first? Params.namespaceKey⟩, ?_, rfl, rfl, rfl⟩
  simp only [ofPath?, hpath, hhistory, hlatest, hsegments, operation?_of_isSpelling hword,
    selector?, bind, Except.bind, pure, Except.pure]

end Request

namespace Board

variable {b : Board}

/-- **The hub with an id** is the registered one that goes by it. -/
theorem hub?_hubName (hb : Reachable b) {id : String} {h : HubId} :
    b.hub? (Name.hubName id) = some h ↔ b.isRegistered h = true ∧ (b.hub h).id = id := by
  have hkeeps := hb.listed.2
  constructor
  · intro hn
    obtain ⟨s, hs⟩ := hb.sound.archives hkeeps hn
    have hid : s.id = id := (Name.hubName_inj.1 hs.name).symm
    exact ⟨List.contains_iff_mem.2 (Register.mem_values_of_get? hn), hs.id ▸ hid⟩
  · rintro ⟨hr, hid⟩
    have hn := get?_of_isRegistered hb.sound hr
    obtain ⟨s, hs⟩ := hb.sound.archives hkeeps hn
    have hname : (b.hub h).name = Name.hubName id := by rw [hs.name, hs.id, hid]
    rw [← hname]
    exact hn

/-- **Every hub is addressed by its id**, on every reachable board, in any text that decodes to the
path of that id: the hub is the only target if one with that id is registered, and else the request
is refused. A path with every byte of the id as a triple is such a text. -/
theorem findTargets_addressed (hb : Reachable b) (resolver : Resolver) {p : Params} (hp : p.Legible)
    {root dataset word id : String} {op : Operation} (hroot : '/' ∉ root.toList)
    (hdataset : '/' ∉ dataset.toList) (hword : IsSpelling word op.word) (hne : id ≠ "")
    (hid : '/' ∉ id.toList) (n : Nat) :
    (∀ path : String, Percent.decodePath? path.toList =
        some (Request.idPath root.toList dataset.toList word.toList id.toList n) →
      (∀ h, b.isRegistered h = true → (b.hub h).id = id →
        ∃ t, b.findTargets resolver path p = .ok t ∧ t.request.operation = op ∧
          t.request.dataset = dataset ∧ t.targets = [h]) ∧
      ((∀ h, b.isRegistered h = true → (b.hub h).id ≠ id) →
        b.findTargets resolver path p = .error (.unknownId id))) ∧
    ∀ r d, Percent.decodePath? r = some root.toList → Percent.decodePath? d = some dataset.toList →
      Percent.decodePath?
          (Request.idPath r d word.toList (Percent.triples (Utf8.encode id.toList)) n) =
        some (Request.idPath root.toList dataset.toList word.toList id.toList n) := by
  constructor
  · intro path hpath
    obtain ⟨r, hr, hop, hds, hsel⟩ := Request.ofPath?_idPath hp hroot hdataset hword hne hid hpath
    have hfind : b.findTargets resolver path p =
        (r.targets resolver b).map fun targets => ⟨r, targets⟩ := by
      rw [findTargets, hr]
      show (r.targets resolver b >>= _) = _
      cases r.targets resolver b <;> rfl
    constructor
    · intro h hreg hh
      have hn := (hub?_hubName hb).2 ⟨hreg, hh⟩
      refine ⟨⟨r, [h]⟩, ?_, hop, hds, rfl⟩
      rw [hfind, Request.targets, hsel]
      dsimp only
      rw [hn]
      rfl
    · intro hnone
      have hn : b.hub? (Name.hubName id) = none := by
        refine Option.eq_none_iff_forall_ne_some.2 fun h hn => ?_
        obtain ⟨hreg, hh⟩ := (hub?_hubName hb).1 hn
        exact hnone h hreg hh
      rw [hfind, Request.targets, hsel]
      dsimp only
      rw [hn]
      rfl
  · intro r d hr hd
    have hplain : ∀ c ∈ word.toList, c.toNat < 0x80 ∧ c ≠ '%' := fun c hc =>
      ⟨(Request.kept_of_isSpelling hword c hc).1, (Request.kept_of_isSpelling hword c hc).2.1⟩
    exact Request.decodePath?_idPath hr hd hplain (Percent.written_triples _ _).decodePath? n

/-- A board with a hub whose id has characters that mean something else in a path. -/
def markedHub : Board := (start {} default {}).run [.openHub (Name.hubName "a+b %é")]

/-- Parameters for history and current value, with blanks around. -/
def markedParams : Params := Params.read "-latest=+1&-history=++5+&-history=x"

/-- The hub is found in a path with an empty root, an empty dataset and slashes at its end, and an
id that is not registered is refused. -/
theorem findTargets_addressed_marked : Reachable markedHub ∧ markedParams.Legible ∧
    (∃ t, markedHub.findTargets Resolver.none "///UpDate/id/a+b%20%25%C3%a9//" markedParams = .ok t ∧
      t.request.operation = .update ∧ t.request.dataset = "" ∧ t.targets = [⟨1⟩]) ∧
    markedHub.findTargets Resolver.none "/fos/ds/read/id/%61%5C" markedParams =
      .error (.unknownId "a\\") := by
  have hb : Reachable markedHub := ⟨{}, default, {}, _, Disk.sound_empty, rfl⟩
  have hp : markedParams.Legible := by
    have hhistory : markedParams.first? Params.historyKey = some "  5 " := by decide +kernel
    have hlatest : markedParams.first? Params.latestKey = some " 1" := by decide +kernel
    constructor
    · intro text ht
      cases hhistory.symm.trans ht
      decide +kernel
    · intro text ht
      cases hlatest.symm.trans ht
      decide +kernel
  have hupdate : IsSpelling "UpDate" Operation.update.word :=
    .cons (.inr rfl) (.cons (.inl rfl) (.cons (.inr rfl) (.cons (.inl rfl) (.cons (.inl rfl)
      (.cons (.inl rfl) .nil)))))
  have hread : IsSpelling "read" Operation.read.word :=
    .cons (.inl rfl) (.cons (.inl rfl) (.cons (.inl rfl) (.cons (.inl rfl) .nil)))
  have hempty : '/' ∉ "".toList := by decide
  have hroot : '/' ∉ "fos".toList := by decide
  have hdataset : '/' ∉ "ds".toList := by decide
  have hmarked : "a+b %é" ≠ "" ∧ '/' ∉ "a+b %é".toList := by decide
  have hunknown : "a\\" ≠ "" ∧ '/' ∉ "a\\".toList := by decide
  obtain ⟨hfound, -⟩ := findTargets_addressed hb Resolver.none hp hempty hempty hupdate hmarked.1
    hmarked.2 2
  obtain ⟨hrefused, -⟩ := findTargets_addressed hb Resolver.none hp hroot hdataset hread hunknown.1
    hunknown.2 0
  refine ⟨hb, hp, (hfound _ (by decide +kernel)).1 ⟨1⟩ (by decide +kernel) (by decide +kernel), ?_⟩
  refine (hrefused _ (by decide +kernel)).2 fun h hreg => ?_
  have hids : ∀ h ∈ markedHub.registry.hubs.values, (markedHub.hub h).id ≠ "a\\" := by
    decide +kernel
  exact hids h (List.contains_iff_mem.1 hreg)

end Board

end Switchboard
