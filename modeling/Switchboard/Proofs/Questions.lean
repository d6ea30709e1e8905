import Mathlib.Data.List.Count
import Switchboard.Proofs.Query
import Switchboard.Request.Answer

/-!
# Questions of requests

The tag path and the namespace of a request go into the text of a graph query. The query asks for
what they say and for nothing else: every part of them that is written was checked, so that each
name in the text is one token, and the query is read as the list of patterns of the path. Each
relation that may be any has a variable of its own, and the path can be read back from the text.

* `TagPath.patterns_eq`: the patterns of a path, by the places of its nodes.
* `TagPath.isLegal`: the labels of a path of a request are safe.
* `Board.pathsAsked`: the resolver is asked only for paths whose queries ask for nothing else.
-/

namespace Switchboard

open Query

/-- What was done before a result was reached. -/
theorem exists_of_bind_eq_ok {ε α β : Type} {x : Except ε α} {f : α → Except ε β} {b : β}
    (h : x >>= f = .ok b) : ∃ a, x = .ok a ∧ f a = .ok b := by
  cases x with
  | error e => cases h
  | ok a => exact ⟨a, rfl, h⟩

namespace TagPath

variable {steps rest : List TagStep} {step : TagStep} {space label : String} {i k anys : Nat}

/-! ### Patterns by place -/

/-- The number of `any` relations before the `k`-th node, that of the first node apart. -/
def anysBefore (steps : List TagStep) (k : Nat) : Nat :=
  ((steps.take k).drop 1).countP fun step => step.link = .any

/-- The relation to the `k`-th node: a name, or a variable of its own. -/
def relation (steps : List TagStep) (space : String) (k : Nat) : Link → QueryTerm
  | .any => .relation (anysBefore steps k)
  | .named label => .iri (space ++ label)

/-- The patterns of the `k`-th node: the relation from the node before, if there is one, and the
tag. -/
def nodePatterns (steps : List TagStep) (space : String) (k : Nat) (step : TagStep) :
    List QueryPattern :=
  (if k = 0 then [] else [⟨.node (k - 1), relation steps space k step.link, .node k⟩]) ++
    [⟨.node k, .iri Name.tagPredicate, .iri (Name.tagBase ++ step.tag)⟩]

/-- The patterns that a path stands for: those of each node in order, and the relation from the last
node to the hub. -/
def layout (path : TagPath) (space : String) : List QueryPattern :=
  (path.steps.zipIdx.flatMap fun e => nodePatterns path.steps space e.2 e.1) ++
    [⟨.node (path.steps.length - 1), .iri (space ++ path.leafTag), .hub⟩]

theorem anysBefore_mono {n : Nat} (h : k ≤ n) : anysBefore steps k ≤ anysBefore steps n :=
  ((List.take_sublist_take_left h).drop 1).countP_le

theorem anysBefore_succ (hk : 0 < k) (hs : steps[k]? = some step) :
    anysBefore steps (k + 1) = anysBefore steps k + if step.link = .any then 1 else 0 := by
  have hlength : 1 ≤ (steps.take k).length := by
    obtain ⟨hlt, -⟩ := List.getElem?_eq_some_iff.1 hs
    rw [List.length_take]
    omega
  rw [anysBefore, anysBefore, List.take_add_one, hs, Option.toList_some,
    List.drop_append_of_le_length hlength, List.countP_append, List.countP_singleton]
  simp only [decide_eq_true_eq]

/-- A relation that may be any is one of all those behind the first node. -/
theorem anysBefore_lt (hk : 0 < k) (hs : steps[k]? = some step) (hany : step.link = .any) :
    anysBefore steps k < steps.tail.countP (·.link = .any) := by
  obtain ⟨hlt, -⟩ := List.getElem?_eq_some_iff.1 hs
  have hall : anysBefore steps steps.length = steps.tail.countP (·.link = .any) := by
    rw [anysBefore, List.take_length, List.drop_one]
  have hle : anysBefore steps (k + 1) ≤ anysBefore steps steps.length := anysBefore_mono hlt
  rw [anysBefore_succ hk hs, if_pos hany, hall] at hle
  exact hle

/-- The patterns of a node after the first one, before those of the nodes behind it. -/
theorem stepPatterns_cons : stepPatterns space (i + 1) anys (step :: rest) =
    ⟨.node i, match step.link with | .any => .relation anys | .named label => .iri (space ++ label),
      .node (i + 1)⟩ :: tagPattern (i + 1) step ::
        stepPatterns space (i + 2) (anys + if step.link = .any then 1 else 0) rest := by
  rw [stepPatterns]
  cases step.link with
  | any => rfl
  | named label => rfl

/-- The patterns of the nodes from the `k`-th on. -/
theorem stepPatterns_eq (hk : 0 < k) (hs : steps.drop k = rest) :
    stepPatterns space k (anysBefore steps k) rest =
      (rest.zipIdx k).flatMap fun e => nodePatterns steps space e.2 e.1 := by
  induction rest generalizing k with
  | nil => rw [stepPatterns]; rfl
  | cons step rest ih =>
    have hstep : steps[k]? = some step := by rw [← List.head?_drop, hs]; rfl
    have hrest : steps.drop (k + 1) = rest := by rw [← List.tail_drop, hs]; rfl
    have hnext := ih (Nat.succ_pos k) hrest
    rw [anysBefore_succ hk hstep] at hnext
    obtain ⟨i, rfl⟩ := Nat.exists_eq_succ_of_ne_zero (Nat.ne_of_gt hk)
    rw [stepPatterns_cons, hnext, List.zipIdx_cons, List.flatMap_cons, nodePatterns,
      if_neg (Nat.succ_ne_zero i)]
    cases hl : step.link <;> rfl

/-- **The patterns of a path are those of its places.** -/
theorem patterns_eq (path : TagPath) (space : String) :
    path.patterns space = path.layout space := by
  rw [patterns, layout]
  congr 1
  cases hs : path.steps with
  | nil => rfl
  | cons first rest =>
    have hrest : (first :: rest).drop 1 = rest := rfl
    rw [stepPatterns, List.zipIdx_cons, List.flatMap_cons, ← stepPatterns_eq Nat.one_pos hrest]
    rfl

/-! ### Variables of relations -/

theorem count_terms (i k n : Nat) (t : QueryTerm) :
    (QueryPattern.terms ⟨.node i, t, .node k⟩).count (.relation n) =
      if t = .relation n then 1 else 0 := by
  simp [QueryPattern.terms, List.count_cons]

theorem count_terms_tagPattern (k n : Nat) (step : TagStep) :
    (tagPattern k step).terms.count (.relation n) = 0 := by
  simp [QueryPattern.terms, tagPattern]

/-- The variables of relations are numbered on, and each occurs once. -/
theorem count_stepPatterns (n : Nat) :
    ((stepPatterns space (i + 1) anys rest).flatMap QueryPattern.terms).count (.relation n) =
      if anys ≤ n ∧ n < anys + rest.countP (·.link = .any) then 1 else 0 := by
  induction rest generalizing i anys with
  | nil =>
    rw [stepPatterns, List.countP_nil, if_neg (by omega)]
    rfl
  | cons step rest ih =>
    rw [stepPatterns_cons, List.flatMap_cons, List.flatMap_cons, List.count_append,
      List.count_append, count_terms, count_terms_tagPattern, ih, List.countP_cons]
    cases hl : step.link with
    | any =>
      simp only [QueryTerm.relation.injEq, if_true, decide_true]
      repeat' split
      all_goals omega
    | named label => simp

/-- **The variable of a relation that may be any occurs nowhere else** in the patterns of a path. -/
theorem count_layout {path : TagPath} (hk : 0 < k) (hs : path.steps[k]? = some step)
    (hany : step.link = .any) :
    ((path.layout space).flatMap QueryPattern.terms).count
      (relation path.steps space k step.link) = 1 := by
  rw [← patterns_eq, patterns, List.flatMap_append, List.count_append, hany, relation]
  have hleaf : (List.flatMap QueryPattern.terms
      [⟨.node (path.steps.length - 1), .iri (space ++ path.leafTag), .hub⟩]).count
        (.relation (anysBefore path.steps k)) = 0 := by
    simp [QueryPattern.terms]
  have hlater := anysBefore_lt hk hs hany
  cases hsteps : path.steps with
  | nil => rw [hsteps] at hs; cases hs
  | cons first rest =>
    rw [hsteps, List.tail_cons] at hlater
    rw [hsteps] at hleaf
    rw [hleaf, stepPatterns, List.flatMap_cons, List.count_append, count_terms_tagPattern,
      count_stepPatterns, if_pos ⟨Nat.zero_le _, by omega⟩]

/-! ### Reading a path back -/

/-- The label of a name in a namespace. -/
def label? (space : String) : Term → Option String
  | .iri name => (Text.after? space.toList name).map String.ofList
  | .variable _ => none

/-- The relation that a term stands for. A variable stands for any. -/
def link? (space : String) : Term → Option Link
  | .iri name => (label? space (.iri name)).map Link.named
  | .variable _ => some .any

/-- Reads back the nodes after the first one and the relation to the hub. -/
def later? (space : String) : List Triple → Option (List TagStep × String)
  | [leaf] => (label? space leaf.predicate).map fun leafTag => ([], leafTag)
  | relation :: tag :: rest => do
    let link ← link? space relation.predicate
    let tag ← label? Name.tagBase tag.object
    let (steps, leafTag) ← later? space rest
    return (⟨link, tag⟩ :: steps, leafTag)
  | [] => none

/-- Reads back a path from the triple patterns of its query. -/
def ofTriples? (space : String) : List Triple → Option TagPath
  | [leaf] => (label? space leaf.predicate).map fun leafTag => ⟨[], leafTag⟩
  | tag :: rest => do
    let first ← label? Name.tagBase tag.object
    let (steps, leafTag) ← later? space rest
    return ⟨⟨.any, first⟩ :: steps, leafTag⟩
  | [] => none

theorem label?_append : label? space (QueryTerm.iri (space ++ label)).term = some label := by
  rw [QueryTerm.term, label?, String.toList_append, Text.after?_append, Option.map_some,
    String.ofList_toList]

/-- The nodes after the first one are read back. -/
theorem later?_stepPatterns (leaf : QueryPattern)
    (hleaf : label? space leaf.predicate.term = some label) :
    later? space ((stepPatterns space (i + 1) anys rest ++ [leaf]).map QueryPattern.triple) =
      some (rest, label) := by
  induction rest generalizing i anys with
  | nil =>
    show (label? space leaf.predicate.term).map _ = _
    rw [hleaf, Option.map_some]
  | cons step rest ih =>
    rw [stepPatterns_cons, List.cons_append, List.cons_append, List.map_cons, List.map_cons, later?,
      ih]
    have htag : label? Name.tagBase (tagPattern (i + 1) step).triple.object = some step.tag :=
      label?_append
    rw [htag]
    obtain ⟨link, tag⟩ := step
    cases link with
    | any => rfl
    | named label =>
      have hlink : link? space (QueryTerm.iri (space ++ label)).term = some (.named label) := by
        rw [QueryTerm.term, link?, ← QueryTerm.term, label?_append, Option.map_some]
      simp only [QueryPattern.triple, hlink]
      rfl

/-- **A path is read back** from the triple patterns of its query, given the namespace. The relation
to the first node is not written. -/
theorem ofTriples?_layout (path : TagPath) (hroot : ∀ step ∈ path.steps.head?, step.link = .any) :
    ofTriples? space ((path.layout space).map QueryPattern.triple) = some path := by
  rw [← patterns_eq, patterns]
  obtain ⟨steps, leafTag⟩ := path
  cases steps with
  | nil =>
    show (label? space (QueryTerm.iri (space ++ leafTag)).term).map _ = _
    rw [label?_append, Option.map_some]
  | cons first rest =>
    obtain ⟨link, tag⟩ := first
    obtain rfl : link = .any := hroot _ rfl
    have htag : label? Name.tagBase (tagPattern 0 ⟨.any, tag⟩).triple.object = some tag :=
      label?_append
    rw [stepPatterns, List.cons_append, List.map_cons, ofTriples?, htag,
      later?_stepPatterns _ label?_append]
    · rfl
    · simp

/-! ### Labels of a request -/

theorem isSafe_of_subset {s t : String} (hs : isSafe s = true) (ht : ∀ c ∈ t.toList, c ∈ s.toList) :
    isSafe t = true := by
  rw [isSafe, List.all_eq_true] at hs ⊢
  exact fun c hc => hs c (ht c hc)

theorem isSafe_append {s t : String} (hs : isSafe s = true) (ht : isSafe t = true) :
    isSafe (s ++ t) = true := by
  rw [isSafe] at hs ht ⊢
  rw [String.toList_append, List.all_append, hs, ht]
  rfl

/-- What is neither blank nor a control character stands behind the space. -/
theorem space_lt_toNat {c : Char} (hb : Text.isBlank c = false) (hc : Text.isControl c = false) :
    0x20 < c.toNat := by
  simp only [Text.isBlank, Text.isControl, Bool.or_eq_false_iff, Bool.and_eq_false_iff,
    decide_eq_false_iff_not, beq_eq_false_iff_ne] at hb hc
  omega

/-- **A safe name can be written** between `<` and `>`. -/
theorem isPlain_iri {s : String} (hs : isSafe s = true) : (QueryTerm.iri s).IsPlain := by
  intro c hc
  rw [isSafe, List.all_eq_true] at hs
  obtain ⟨⟨hb, hctl⟩, hn⟩ := by
    simpa only [Bool.not_eq_true', Bool.or_eq_false_iff] using hs c hc
  rw [isIriChar, hn, decide_eq_true (space_lt_toNat hb hctl)]
  rfl

/-- A path whose labels are safe and which has no relation to its first node. -/
structure IsLegal (path : TagPath) : Prop where
  tags : ∀ step ∈ path.steps, isSafe step.tag = true
  labels : ∀ step ∈ path.steps, ∀ label, step.link = .named label → isSafe label = true
  leafTag : isSafe path.leafTag = true
  root : ∀ step ∈ path.steps.head?, step.link = .any

theorem isSafe_of_forM {segments : List String} (h : segments.forM check = .ok ()) :
    ∀ s ∈ segments, isSafe s = true := by
  induction segments with
  | nil => exact nofun
  | cons segment segments ih =>
    change (check segment >>= fun _ => segments.forM check) = .ok () at h
    by_cases hsafe : isSafe segment = true
    · have hcheck : check segment = .ok () := if_pos hsafe
      rw [hcheck] at h
      exact List.forall_mem_cons.2 ⟨hsafe, ih h⟩
    · have hcheck : check segment = .error (.illegalTag segment) := if_neg hsafe
      rw [hcheck] at h
      cases h

theorem eq_of_ofLabel {label other : String} (h : Link.ofLabel label = .named other) :
    other = label := by
  rw [Link.ofLabel] at h
  split at h
  · cases h
  · exact (Link.named.inj h).symm

/-- The tag and the relation that are cut from a segment are parts of it, or the default. -/
theorem isSafe_laterStep {default : Link} {segment : String} (hs : isSafe segment = true)
    (hd : ∀ label, default = .named label → isSafe label = true) :
    isSafe (laterStep default segment).tag = true ∧
      ∀ label, (laterStep default segment).link = .named label → isSafe label = true := by
  rw [laterStep]
  split
  · rename_i link tag hcut
    obtain ⟨hsegment, -⟩ := Text.cutLast_eq_some.1 hcut
    split
    · exact ⟨hs, hd⟩
    · refine ⟨isSafe_of_subset hs fun c hc => ?_,
        fun label hl => isSafe_of_subset hs fun c hc => ?_⟩
      · rw [String.toList_ofList] at hc
        rw [hsegment]
        exact List.mem_append_right link (List.mem_cons_of_mem '-' hc)
      · rw [eq_of_ofLabel hl, String.toList_ofList] at hc
        rw [hsegment]
        exact List.mem_append_left ('-' :: tag) hc
  · exact ⟨hs, hd⟩

/-- **Every label of a path was checked**: all that is cut from the segments, and the default. -/
theorem isLegal {segments : List String} {defaultLink : Option String} {path : TagPath}
    (h : ofSegments segments defaultLink = .ok path) : path.IsLegal := by
  rw [ofSegments] at h
  split at h
  · cases h
  rename_i leafTag hlast
  obtain ⟨⟨⟩, hcheck, h⟩ := exists_of_bind_eq_ok h
  cases h
  have hsafe := isSafe_of_forM hcheck
  have hnode : ∀ s ∈ segments.dropLast, isSafe s = true := fun s hs =>
    hsafe s (List.mem_append_left _ ((List.dropLast_sublist segments).mem hs))
  have hdefault : ∀ label, (defaultLink.map Link.ofLabel).getD .any = .named label →
      isSafe label = true := by
    cases defaultLink with
    | none => exact nofun
    | some text =>
      intro label hl
      rw [eq_of_ofLabel hl]
      exact hsafe text (List.mem_append_right segments List.mem_cons_self)
  have hleaf : isSafe leafTag = true :=
    hsafe leafTag (List.mem_append_left _ (List.mem_of_getLast? hlast))
  cases hnodes : segments.dropLast with
  | nil => exact ⟨nofun, nofun, hleaf, nofun⟩
  | cons first rest =>
    rw [hnodes, List.forall_mem_cons] at hnode
    have hrest : ∀ step ∈ rest.map (laterStep ((defaultLink.map Link.ofLabel).getD .any)),
        isSafe step.tag = true ∧ ∀ label, step.link = .named label → isSafe label = true := by
      intro step hstep
      obtain ⟨segment, hmem, rfl⟩ := List.mem_map.1 hstep
      exact isSafe_laterStep (hnode.2 segment hmem) hdefault
    exact {
      tags := List.forall_mem_cons.2 ⟨hnode.1, fun step hstep => (hrest step hstep).1⟩
      labels := List.forall_mem_cons.2 ⟨nofun, fun step hstep => (hrest step hstep).2⟩
      leafTag := hleaf
      root := fun step hstep => by cases hstep; rfl }

theorem isPlain_relation {link : Link} (hs : isSafe space = true)
    (hl : ∀ label, link = .named label → isSafe label = true) :
    (relation steps space k link).IsPlain := by
  cases link with
  | any => exact trivial
  | named label => exact isPlain_iri (isSafe_append hs (hl label rfl))

/-- The patterns of a legal path can be written. -/
theorem IsLegal.isPlain {path : TagPath} (h : path.IsLegal) (hs : isSafe space = true) :
    ∀ p ∈ path.layout space, p.IsPlain := by
  have htagPredicate : isSafe Name.tagPredicate = true := by decide +kernel
  have htagBase : isSafe Name.tagBase = true := by decide +kernel
  intro p hp
  rcases List.mem_append.1 hp with hp | hp
  · obtain ⟨⟨step, k⟩, he, hp⟩ := List.mem_flatMap.1 hp
    have hstep : step ∈ path.steps := (List.mem_zipIdx' he).2 ▸ List.getElem_mem _
    rcases List.mem_append.1 hp with hp | hp
    · split at hp
      · cases hp
      · obtain rfl := List.mem_singleton.1 hp
        exact ⟨trivial, isPlain_relation hs (h.labels step hstep), trivial⟩
    · obtain rfl := List.mem_singleton.1 hp
      exact ⟨trivial, isPlain_iri htagPredicate,
        isPlain_iri (isSafe_append htagBase (h.tags step hstep))⟩
  · obtain rfl := List.mem_singleton.1 hp
    exact ⟨trivial, isPlain_iri (isSafe_append hs h.leafTag), trivial⟩

/-! ### What a query asks for -/

/-- A path whose query asks for what the path says and for nothing else. -/
structure AsksOnly (path : TagPath) (space : String) : Prop where
  /-- The text has the tokens of the patterns and no others. -/
  tokens : tokens? (path.selectQuery space).toList = some ([.word "SELECT".toList,
    .variable "hub".toList, .word "WHERE".toList, .opening] ++
      ((path.layout space).map QueryPattern.triple).flatMap Triple.tokens ++ [.closing])
  /-- The text selects the hubs, subject to the patterns of the path. -/
  read : read (path.selectQuery space).toList =
    some ⟨["hub".toList], (path.layout space).map QueryPattern.triple⟩
  /-- A relation that may be any is a variable that occurs nowhere else. -/
  own : ∀ k step, 0 < k → path.steps[k]? = some step → step.link = .any →
    (((path.layout space).map QueryPattern.triple).flatMap Triple.terms).count
      (relation path.steps space k step.link).term = 1
  /-- The labels are read back from the text. -/
  back : ((Query.read (path.selectQuery space).toList).bind fun query =>
    ofTriples? space query.triples) = some path

/-- **The query of a legal path asks for nothing else.** -/
theorem IsLegal.asksOnly {path : TagPath} (h : path.IsLegal) (hs : isSafe space = true) :
    path.AsksOnly space := by
  have htext : (path.selectQuery space).toList = selectHubs (path.layout space) := by
    rw [selectQuery, String.toList_ofList, patterns_eq]
  have hread := read_selectHubs (h.isPlain hs)
  rw [← htext] at hread
  refine ⟨?_, hread, fun k step hk hstep hany => ?_, ?_⟩
  · rw [htext]
    exact tokens?_selectHubs (h.isPlain hs)
  · have hterms : ((path.layout space).map QueryPattern.triple).flatMap Triple.terms =
        ((path.layout space).flatMap QueryPattern.terms).map QueryTerm.term := by
      rw [List.flatMap_map, List.map_flatMap]
      rfl
    rw [hterms, List.count_map_of_injective _ _ QueryTerm.term_injective]
    exact count_layout hk hstep hany
  · rw [hread, Option.bind_some]
    exact ofTriples?_layout path h.root

end TagPath

namespace Request

variable {rest : List String} {p : Params} {path : TagPath} {space : String}

/-- The namespace of a path was checked as well. -/
theorem asksOnly_of_pathSelector (h : pathSelector rest p = .ok (.path path space)) :
    path.AsksOnly space := by
  obtain ⟨read, hpath, h⟩ := exists_of_bind_eq_ok h
  dsimp only at h
  split at h
  · rename_i hsafe
    cases h
    exact (TagPath.isLegal hpath).asksOnly hsafe
  · cases h

/-- Only the word for tag paths names one. -/
theorem asksOnly_of_selector? {decoded word : String}
    (h : selector? decoded word rest p = .ok (.path path space)) : path.AsksOnly space := by
  rw [selector?.eq_def] at h
  split at h
  · split at h <;> cases h
  · exact asksOnly_of_pathSelector h
  · rw [querySelector.eq_def] at h
    split at h <;> cases h
  · cases h

/-- **A request that is read asks for nothing else** than its path says. -/
theorem asksOnly_of_ofPath? {text : String} {r : Request} (h : ofPath? text p = .ok r)
    (hr : r.selector = .path path space) : path.AsksOnly space := by
  rw [ofPath?] at h
  split at h
  · cases h
  obtain ⟨history, -, h⟩ := exists_of_bind_eq_ok h
  obtain ⟨latest, -, h⟩ := exists_of_bind_eq_ok h
  split at h
  · split at h
    · cases h
    · obtain ⟨selector, hselector, h⟩ := exists_of_bind_eq_ok h
      cases h
      obtain rfl : selector = .path path space := hr
      exact asksOnly_of_selector? hselector
  · cases h

end Request

namespace Board

/-- **A request asks the graph for nothing else than its path says.** Whatever the path and the
parameters are, the path and the namespace that are read of them make a query whose text has
exactly the patterns of the path. No other path is ever asked for: resolvers that agree on all such
paths, and on queries, lead to the same hubs. -/
theorem pathsAsked (b : Board) (text : String) (p : Params) :
    (∀ r path space, Request.ofPath? text p = .ok r → r.selector = .path path space →
      path.AsksOnly space) ∧
    ∀ R R' : Resolver, R.query = R'.query →
      (∀ dataset path space, TagPath.AsksOnly path space →
        R.path dataset path space = R'.path dataset path space) →
      b.findTargets R text p = b.findTargets R' text p := by
  refine ⟨fun r path space hread hr => Request.asksOnly_of_ofPath? hread hr,
    fun R R' hquery hpath => ?_⟩
  rw [findTargets, findTargets]
  cases hread : Request.ofPath? text p with
  | error e => rfl
  | ok r =>
    have htargets : r.targets R b = r.targets R' b := by
      rw [Request.targets, Request.targets]
      cases hr : r.selector with
      | id id => rfl
      | path path space =>
        simp only [hpath r.dataset path space (Request.asksOnly_of_ofPath? hread hr)]
      | query query => simp only [hquery]
    show (r.targets R b >>= _) = (r.targets R' b >>= _)
    rw [htargets]

/-- A path with a named relation, one that may be any, and a namespace of its own. -/
theorem pathsAsked_room : ∃ r path,
    Request.ofPath? "/fos/ds/read/path/building/floor-3/*-room/temp"
      (({} : Params).push Params.namespaceKey "http://p/") = .ok r ∧
    r.selector = .path path "http://p/" ∧
    path = ⟨[⟨.any, "building"⟩, ⟨.named "floor", "3"⟩, ⟨.any, "room"⟩], "temp"⟩ ∧
    path.AsksOnly "http://p/" := by
  have hread : Request.ofPath? "/fos/ds/read/path/building/floor-3/*-room/temp"
      (({} : Params).push Params.namespaceKey "http://p/") = .ok
        ⟨.read, "ds", .path ⟨[⟨.any, "building"⟩, ⟨.named "floor", "3"⟩, ⟨.any, "room"⟩], "temp"⟩
          "http://p/", none, false, some "http://p/"⟩ := by decide +kernel
  exact ⟨_, _, hread, rfl, rfl, (pathsAsked {} _ _).1 _ _ _ hread rfl⟩

end Board

end Switchboard
