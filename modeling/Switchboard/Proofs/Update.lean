import Mathlib.Data.List.Count
import Mathlib.Data.List.Dedup
import Mathlib.Data.List.Induction
import Switchboard.Proofs.Commit

/-!
# Update requests

The parameters of an update request assign values to predicates. Every key that is given once, is
not empty and does not control the request assigns one. All assignments are written to all hubs of
the request in one transaction, whose end publishes the hubs that have one of the predicates.

* `Params.assignments_pushAll`: which assignments some pairs of keys and values make.
* `update_request`: what an update request does.
-/

namespace Switchboard

namespace Params

variable {pairs : List (String × String)} {key space : String}

theorem pushAll_concat (pairs : List (String × String)) (e : String × String) :
    ({} : Params).pushAll (pairs ++ [e]) = (({} : Params).pushAll pairs).push e.1 e.2 := by
  rw [pushAll, List.foldl_append]
  rfl

/-- The values that pairs give for a key, in order. -/
def given (pairs : List (String × String)) (key : String) : List String :=
  (pairs.filter fun e => e.1 = key).map Prod.snd

theorem given_concat (pairs : List (String × String)) (e : String × String) (key : String) :
    given (pairs ++ [e]) key = given pairs key ++ if e.1 = key then [e.2] else [] := by
  rw [given, given, List.filter_append, List.map_append, List.filter_singleton]
  by_cases hk : e.1 = key <;> simp [hk]

theorem length_given (pairs : List (String × String)) (key : String) :
    (given pairs key).length = (pairs.map Prod.fst).count key := by
  rw [given, List.length_map, List.count_eq_countP, List.countP_map, List.countP_eq_length_filter]
  rfl

theorem given_ne_nil_iff : given pairs key ≠ [] ↔ key ∈ pairs.map Prod.fst := by
  rw [← List.length_pos_iff, length_given, List.count_pos_iff]

/-- **All values that were given for a key are kept**, in order. -/
theorem get?_pushAll (pairs : List (String × String)) (key : String) :
    (({} : Params).pushAll pairs).get? key =
      if given pairs key = [] then none else some (given pairs key) := by
  induction pairs using List.reverseRecOn with
  | nil => rfl
  | append_singleton pairs e ih =>
    rw [pushAll_concat, get?, push, Register.get?_put, given_concat]
    by_cases hk : e.1 = key
    · subst hk
      have hold : ((({} : Params).pushAll pairs).values.get? e.1).getD [] = given pairs e.1 := by
        change ((({} : Params).pushAll pairs).get? e.1).getD [] = _
        rw [ih]
        split
        · rename_i hnil
          rw [hnil]
          rfl
        · rfl
      rw [if_pos rfl, if_pos rfl, hold, if_neg (List.append_ne_nil_of_right_ne_nil _ (by simp))]
    · rw [if_neg hk, if_neg hk, List.append_nil]
      exact ih

theorem mem_keys_pushAll : key ∈ (({} : Params).pushAll pairs).values.keys ↔
    key ∈ pairs.map Prod.fst := by
  rw [← Register.contains_iff, Register.contains]
  change ((({} : Params).pushAll pairs).get? key).isSome = true ↔ _
  rw [get?_pushAll, ← given_ne_nil_iff]
  split
  · rename_i hnil
    simp [hnil]
  · rename_i hne
    simp [hne]

/-- Keys are entered in the order of their first arrival, so those that arrive once keep their
order. -/
theorem filter_keys_pushAll {q : String → Bool}
    (hq : ∀ key, q key = true → (pairs.map Prod.fst).count key ≤ 1) :
    (({} : Params).pushAll pairs).values.keys.filter q = (pairs.map Prod.fst).filter q := by
  induction pairs using List.reverseRecOn with
  | nil => rfl
  | append_singleton pairs e ih =>
    rw [List.map_append, List.map_singleton] at hq ⊢
    have hcount : ∀ key, q key = true →
        (pairs.map Prod.fst).count key + [e.1].count key ≤ 1 := by
      intro key hk
      rw [← List.count_append]
      exact hq key hk
    rw [pushAll_concat, push, Register.keys_put, List.filter_append,
      ← ih fun key hk => Nat.le_trans (Nat.le_add_right _ _) (hcount key hk)]
    split
    · rename_i hin
      -- the key was there before, so it arrives twice
      have hnot : ¬ q e.1 = true := by
        intro hqe
        have hc := hcount e.1 hqe
        rw [List.count_singleton_self] at hc
        have hpos := List.count_pos_iff.2 (mem_keys_pushAll.1 hin)
        omega
      rw [List.filter_cons_of_neg hnot, List.filter_nil, List.append_nil]
    · rw [List.filter_append]

/-- Whether a key of some pairs assigns a value: it is not empty, does not control the request, and
is given once. -/
def assigns (pairs : List (String × String)) (key : String) : Bool :=
  key ≠ "" && !isControl key && (pairs.map Prod.fst).count key = 1

theorem count_of_assigns (h : assigns pairs key = true) : (pairs.map Prod.fst).count key = 1 := by
  rw [assigns, Bool.and_eq_true, decide_eq_true_eq] at h
  exact h.2

/-- The keys that assign a value keep the order in which they were given. -/
theorem filter_keys_assigns (pairs : List (String × String)) :
    (({} : Params).pushAll pairs).values.keys.filter (assigns pairs) =
      (pairs.map Prod.fst).filter (assigns pairs) :=
  filter_keys_pushAll fun _ h => Nat.le_of_eq (count_of_assigns h)

/-- What a key assigns, if it does. -/
def assigned (space : String) (pairs : List (String × String)) (key : String) : String × Literal :=
  (space ++ key, Literal.infer ((given pairs key).headD ""))

theorem assigned_of_mem {e : String × String} (he : e ∈ pairs) (ha : assigns pairs e.1 = true)
    (space : String) : assigned space pairs e.1 = (space ++ e.1, Literal.infer e.2) := by
  have hmem : e.2 ∈ given pairs e.1 :=
    List.mem_map.2 ⟨e, List.mem_filter.2 ⟨he, decide_eq_true rfl⟩, rfl⟩
  have hone : (given pairs e.1).length = 1 := (length_given pairs e.1).trans (count_of_assigns ha)
  obtain ⟨v, hv⟩ := List.length_eq_one_iff.1 hone
  rw [hv, List.mem_singleton] at hmem
  rw [assigned, hv, hmem]
  rfl

/-- An entry of the parameters assigns what its key does. -/
theorem assignment_of_mem {e : String × List String} (space : String)
    (he : e ∈ (({} : Params).pushAll pairs).values.entries) :
    (match e.2 with
      | [value] =>
        if e.1 = "" ∨ isControl e.1 then none else some (space ++ e.1, Literal.infer value)
      | _ => none) =
    if assigns pairs e.1 then some (assigned space pairs e.1) else none := by
  obtain ⟨key, vs⟩ := e
  have hget : (({} : Params).pushAll pairs).get? key = some vs := Register.get?_eq_some_iff.2 he
  have hgiven : given pairs key = vs := by
    rw [get?_pushAll] at hget
    split at hget
    · cases hget
    · exact Option.some.inj hget
  have hlen := length_given pairs key
  rw [hgiven] at hlen
  rw [assigned, hgiven, assigns, ← hlen]
  dsimp only
  split
  · by_cases hk : key = "" <;> cases isControl key <;> simp [hk]
  · rename_i hone
    have hne : vs.length ≠ 1 := fun h => by
      obtain ⟨v, rfl⟩ := List.length_eq_one_iff.1 h
      exact hone v rfl
    simp [hne]

/-- **What some pairs assign**: every key that is not empty, does not control the request and is
given once, in order, its value with the type that it looks like. -/
theorem assignments_pushAll (pairs : List (String × String)) (space : String) :
    (({} : Params).pushAll pairs).assignments space =
      (pairs.filter fun e => assigns pairs e.1).map
        fun e => (space ++ e.1, Literal.infer e.2) := by
  calc (({} : Params).pushAll pairs).assignments space
      = (({} : Params).pushAll pairs).values.entries.filterMap
          (fun e => if assigns pairs e.1 then some (assigned space pairs e.1) else none) :=
        List.filterMap_congr fun e he => assignment_of_mem space he
    _ = ((({} : Params).pushAll pairs).values.keys.filter (assigns pairs)).map
          (assigned space pairs) := by
        rw [Register.keys, ← List.filterMap_eq_filter, List.map_filterMap, List.filterMap_map]
        refine List.filterMap_congr fun e _ => ?_
        rw [Function.comp_apply, Option.guard]
        split <;> rfl
    _ = (pairs.filter fun e => assigns pairs e.1).map
          fun e => (space ++ e.1, Literal.infer e.2) := by
        rw [filter_keys_assigns, List.filter_map, List.map_map]
        refine List.map_congr_left fun e he => ?_
        obtain ⟨hm, ha⟩ := List.mem_filter.1 he
        exact assigned_of_mem hm ha space

/-- **No predicate is assigned twice.** -/
theorem nodup_assignments (pairs : List (String × String)) (space : String) :
    (((({} : Params).pushAll pairs).assignments space).map Prod.fst).Nodup := by
  have hmap : (((({} : Params).pushAll pairs).assignments space).map Prod.fst) =
      ((({} : Params).pushAll pairs).values.keys.filter (assigns pairs)).map (space ++ ·) := by
    rw [filter_keys_assigns, assignments_pushAll, List.map_map, List.filter_map, List.map_map]
    rfl
  rw [hmap]
  exact ((Register.nodup_keys _).filter _).map fun _ _ h => by simpa using h

end Params

namespace Board

variable {b : Board}

/-! ### Assignments to several hubs -/

/-- The writes that make assignments to hubs. -/
def assignCalls (targets : List HubId) (values : List (String × Literal)) : List WriteCall :=
  targets.flatMap fun h => values.map fun e => .value h e.1 e.2

/-- The hubs of a list, each once, that have an assigned predicate. -/
def reached (b : Board) (targets : List HubId) (values : List (String × Literal)) : List HubId :=
  targets.dedup.filter fun h => values.any fun e => (b.hub h).table.byPredicate.contains e.1

variable {targets : List HubId} {values : List (String × Literal)}

theorem mem_assignCalls {w : WriteCall} : w ∈ assignCalls targets values ↔
    ∃ h ∈ targets, ∃ e ∈ values, WriteCall.value h e.1 e.2 = w := by
  rw [assignCalls, List.mem_flatMap]
  simp only [List.mem_map]

theorem setValue_registry (b : Board) (h : HubId) (predicate : String) (v : Literal) :
    (b.setValue h predicate v).1.registry = b.registry := by
  unfold setValue setValues
  split <;> rfl

/-- The operations that write assignments to a hub. -/
def assignOps (h : HubId) (values : List (String × Literal)) : List Op :=
  values.map fun e => .setValue h e.1 e.2

theorem run_assignOps {b : Board} {h : HubId} (hr : b.isRegistered h = true)
    (values : List (String × Literal)) :
    b.run (assignOps h values) = b.assignAll h values ∧
      (b.assignAll h values).registry = b.registry := by
  induction values generalizing b with
  | nil => exact ⟨rfl, rfl⟩
  | cons e values ih =>
    have hs : b.step (.setValue h e.1 e.2) = (b.setValue h e.1 e.2).1 := by
      rw [step, isHubHeld_of_isRegistered hr, onlyIf_true]
    have hr' : (b.setValue h e.1 e.2).1.isRegistered h = true := by
      rw [isRegistered, setValue_registry]
      exact hr
    obtain ⟨h1, h2⟩ := ih hr'
    refine ⟨?_, h2.trans (setValue_registry b h e.1 e.2)⟩
    rw [assignOps, List.map_cons, run_cons, hs]
    exact h1

theorem run_assignAll {b : Board} {hs : List HubId} (hr : ∀ h ∈ hs, b.isRegistered h = true)
    (values : List (String × Literal)) :
    b.run (hs.flatMap fun h => assignOps h values) =
      hs.foldl (fun b h => b.assignAll h values) b := by
  induction hs generalizing b with
  | nil => rfl
  | cons h hs ih =>
    obtain ⟨h1, h2⟩ := run_assignOps (hr h List.mem_cons_self) values
    rw [List.flatMap_cons, run_append, h1, List.foldl_cons]
    refine ih fun k hk => ?_
    rw [isRegistered, h2]
    exact hr k (List.mem_cons_of_mem h hk)

/-- An update request makes its assignments in a transaction of its own. -/
theorem writeTargets_eq (b : Board) {op : TargetOperation}
    (known : ∀ h ∈ op.targets, b.isRegistered h = true) (p : Params) :
    b.writeTargets op p = ((b.openTransaction .batch).run ((assignCalls op.targets
      (p.assignments (op.request.space.getD Name.base))).map WriteCall.op)).finish := by
  rw [assignCalls, List.map_flatMap, writeTargets,
    ← run_assignAll (b := b.openTransaction .batch) fun h hh => known h hh]
  simp only [List.map_map]
  rfl

theorem nodup_reached : (b.reached targets values).Nodup := (List.nodup_dedup _).filter _

/-- The hubs that are reached are those that a write hits. -/
theorem mem_reached {h : HubId} : h ∈ b.reached targets values ↔
    ∃ w ∈ assignCalls targets values, w.hub = h ∧ w.hits b = true := by
  rw [reached, List.mem_filter, List.mem_dedup, List.any_eq_true]
  constructor
  · rintro ⟨hh, e, he, hc⟩
    exact ⟨_, mem_assignCalls.2 ⟨h, hh, e, he, rfl⟩, rfl, hc⟩
  · rintro ⟨w, hw, rfl, hc⟩
    obtain ⟨k, hk, e, he, rfl⟩ := mem_assignCalls.1 hw
    exact ⟨hk, e, he, hc⟩

theorem mem_writesTo_assignCalls {l : LeafId} {vs : List Literal} :
    vs ∈ b.writesTo l (assignCalls targets values) ↔ ∃ h ∈ targets, ∃ e ∈ values,
      (b.hub h).table.byPredicate.get? e.1 = some l ∧ vs = [e.2] := by
  rw [writesTo, List.mem_map]
  constructor
  · rintro ⟨w, hw, rfl⟩
    obtain ⟨hw, hl⟩ := List.mem_filter.1 hw
    obtain ⟨h, hh, e, he, rfl⟩ := mem_assignCalls.1 hw
    exact ⟨h, hh, e, he, of_decide_eq_true hl, rfl⟩
  · rintro ⟨h, hh, e, he, hl, rfl⟩
    exact ⟨_, List.mem_filter.2 ⟨mem_assignCalls.2 ⟨h, hh, e, he, rfl⟩, decide_eq_true hl⟩, rfl⟩

/-- A cell shows the one value that is written to it. -/
theorem values_writeAll_one {x : Leaf} (hx : x.isCell = true) (v : Literal) (time : Timestamp) :
    (x.writeAll [v] time).values = [v] := by
  obtain ⟨name, body, updatedAt, owner⟩ := x
  cases body with
  | scalar u => rfl
  | array us => rfl
  | counter n => cases hx
  | meter m => cases hx

/-- **A cell that is written under one predicate only** holds what is assigned to that predicate. -/
theorem lastWritten_assignCalls (distinct : (values.map Prod.fst).Nodup) {h : HubId}
    (hh : h ∈ targets) {e : String × Literal} (he : e ∈ values) {l : LeafId}
    (hl : (b.hub h).table.byPredicate.get? e.1 = some l) (hc : (b.leaf l).isCell = true)
    (alone : ∀ k ∈ targets, ∀ e' ∈ values,
      (b.hub k).table.byPredicate.get? e'.1 = some l → e'.1 = e.1) (time : Timestamp) :
    b.lastWritten (assignCalls targets values) time l = [e.2] := by
  have hin : [e.2] ∈ b.writesTo l (assignCalls targets values) :=
    mem_writesTo_assignCalls.2 ⟨h, hh, e, he, hl, rfl⟩
  have hall : ∀ vs ∈ b.writesTo l (assignCalls targets values), vs = [e.2] := by
    intro vs hvs
    obtain ⟨k, hk, e', he', hl', rfl⟩ := mem_writesTo_assignCalls.1 hvs
    rw [List.inj_on_of_nodup_map distinct he' he (alone k hk e' he' hl')]
  rw [lastWritten]
  cases hlast : (b.writesTo l (assignCalls targets values)).getLast? with
  | none => exact absurd (List.getLast?_eq_none_iff.1 hlast ▸ hin) List.not_mem_nil
  | some vs =>
    rw [hall vs (List.mem_of_getLast? hlast)]
    exact values_writeAll_one hc e.2 time

/-- **What an update request does**, on every reachable board on which consumers only observe, for
any registered hubs and any parameters. Every key that is not empty, does not control the request
and is given once assigns its value to a predicate, in order, and no predicate is assigned twice.
The targets that have an assigned predicate are counted, each once, and published. A cell that is
in no reserved slot of these hubs shows the one value that is assigned to it if it is written under
one predicate only, and stays as it was if it is written under none. Nothing happened to any other
hub. -/
theorem update_request (hb : Reachable b) (ho : Observed b) (op : TargetOperation)
    (known : ∀ h ∈ op.targets, b.isRegistered h = true) (pairs : List (String × String)) :
    let space := op.request.space.getD Name.base
    let values := (({} : Params).pushAll pairs).assignments space
    let hs := b.reached op.targets values
    let b' := (b.writeTargets op (({} : Params).pushAll pairs)).1
    (values = (pairs.filter fun e => e.1 ≠ "" && !Params.isControl e.1 &&
        (pairs.map Prod.fst).count e.1 = 1).map fun e => (space ++ e.1, Literal.infer e.2)) ∧
      (values.map Prod.fst).Nodup ∧
      (b.writeTargets op (({} : Params).pushAll pairs)).2 = hs.length ∧
      (∀ h ∈ hs, ∃ s, PublishedOnce b b' h s (b.render h s) ∧ s.takenAt = b.wall ∧
        ∀ e ∈ values, ∀ l, (b.hub h).table.byPredicate.get? e.1 = some l →
          (b.leaf l).isCell = true → (∀ k ∈ hs, (b.hub k).table.isReserved l = false) →
          (∀ k ∈ op.targets, ∀ e' ∈ values,
            (b.hub k).table.byPredicate.get? e'.1 = some l → e'.1 = e.1) →
          s.get? e.1 = some [e.2]) ∧
      (∀ l, (b.leaf l).isCell = true → (∀ k ∈ hs, (b.hub k).table.isReserved l = false) →
        (∀ k ∈ op.targets, ∀ e ∈ values, (b.hub k).table.byPredicate.get? e.1 ≠ some l) →
        b'.leaf l = b.leaf l) ∧
      ∀ h, h ∉ hs → Untouched b b' h := by
  intro space values hs b'
  have distinct : (values.map Prod.fst).Nodup := Params.nodup_assignments pairs space
  -- the request opens a transaction, and its end publishes the hubs that were hit
  have hopen : Sound (b.openTransaction .batch) :=
    (Change.transact (A := fun _ => True) (E := fun _ => True) _ fun tx ht h hh => by
      cases ht
      cases hh).sound hb.sound
  have hknown : ∀ w ∈ assignCalls op.targets values,
      (b.openTransaction .batch).isRegistered w.hub = true := by
    intro w hw
    obtain ⟨h, hh, e, -, rfl⟩ := mem_assignCalls.1 hw
    exact known h hh
  obtain ⟨hs', hnodup, hmem, hcount, hfin⟩ := finish_written (b := b.openTransaction .batch)
    hopen (fun c => ho c) rfl hknown
  rw [← writeTargets_eq b known] at hcount hfin
  have hperm : hs'.Perm hs := (List.perm_ext_iff_of_nodup hnodup nodup_reached).2 fun h => by
    rw [hmem]
    exact mem_reached.symm
  refine ⟨Params.assignments_pushAll pairs space, distinct, hcount.trans hperm.length_eq,
    fun h hh => ?_, fun l hc hr free => ?_, fun h hh => ?_⟩
  · obtain ⟨s, hp, hshow⟩ := hfin.shown h (hperm.mem_iff.2 hh)
    have htarget : h ∈ op.targets := List.mem_dedup.1 (List.mem_filter.1 hh).1
    refine ⟨s, ⟨hp.published, hp.calls, hp.snapshot, hp.formatted, hp.wrapped, hp.file⟩,
      hshow.takenAt, fun e he l hl hc hr alone => ?_⟩
    rw [hshow.cells e.1 l hl hc fun k hk => hr k (hperm.mem_iff.1 hk)]
    exact congrArg some (lastWritten_assignCalls distinct htarget he hl hc alone _)
  · rw [hfin.cells l hc fun k hk => hr k (hperm.mem_iff.1 hk)]
    have hnone : b.writesTo l (assignCalls op.targets values) = [] := by
      refine List.eq_nil_iff_forall_not_mem.2 fun vs hvs => ?_
      obtain ⟨k, hk, e, he, hl, -⟩ := mem_writesTo_assignCalls.1 hvs
      exact free k hk e he hl
    exact congrArg (fun vss => vss.foldl (fun x vs => x.writeAll vs b.wall) (b.leaf l)) hnone
  · have hu := hfin.untouched h fun hm => hh (hperm.mem_iff.1 hm)
    exact ⟨hu.hub, hu.published, hu.calls, hu.file⟩

/-- Three hubs. The first has a temperature, the second a mode and a level, the third nothing. -/
def rooms : Board :=
  (start {} default {}).run
    [.openHub (Name.hubName "r"), .openHub (Name.hubName "s"), .openHub (Name.hubName "t"),
      .makeLeaf "temp" .scalar "temp", .makeLeaf "mode" .array "mode",
      .makeLeaf "level" .scalar "level", .addLeaf ⟨1⟩ "http://x/temp" ⟨10⟩,
      .addLeaf ⟨2⟩ "http://x/mode" ⟨11⟩, .addLeaf ⟨2⟩ "http://x/level" ⟨12⟩]

/-- An update of all three hubs, the first of them twice. -/
def roomsUpdate : TargetOperation where
  request := { operation := .update, dataset := "d", selector := .query "", space := "http://x/" }
  targets := [⟨1⟩, ⟨2⟩, ⟨1⟩, ⟨3⟩]

/-- Keys of all sorts: given twice, empty, in control of the request, unknown to all hubs. -/
def roomsPairs : List (String × String) :=
  [("level", "1"), ("temp", "21"), ("", "2"), ("-latest", "1"), ("mode", "auto"), ("level", "3"),
    ("unknown", "4")]

/-- What is assigned. -/
def roomsValues : List (String × Literal) :=
  [("http://x/temp", .int 21), ("http://x/mode", .string "auto"), ("http://x/unknown", .int 4)]

/-- The first two hubs are published, and the first one shows the temperature. The level stays as
it was, as does the third hub. -/
theorem update_request_rooms : Observed rooms ∧
    (∀ h ∈ roomsUpdate.targets, rooms.isRegistered h = true) ∧
    (({} : Params).pushAll roomsPairs).assignments "http://x/" = roomsValues ∧
    (rooms.writeTargets roomsUpdate (({} : Params).pushAll roomsPairs)).2 = 2 ∧
    (∃ s, ((rooms.writeTargets roomsUpdate (({} : Params).pushAll roomsPairs)).1.hub ⟨1⟩).snapshot =
      some s ∧ s.get? "http://x/temp" = some [.int 21]) ∧
    (rooms.writeTargets roomsUpdate (({} : Params).pushAll roomsPairs)).1.leaf ⟨12⟩ =
      rooms.leaf ⟨12⟩ ∧
    Untouched rooms (rooms.writeTargets roomsUpdate (({} : Params).pushAll roomsPairs)).1 ⟨3⟩ := by
  obtain ⟨ho, known, hvalues, hreached, htemp, hlevel⟩ : Observed rooms ∧
      (∀ h ∈ roomsUpdate.targets, rooms.isRegistered h = true) ∧
      (({} : Params).pushAll roomsPairs).assignments "http://x/" = roomsValues ∧
      rooms.reached roomsUpdate.targets roomsValues = [⟨2⟩, ⟨1⟩] ∧
      ((rooms.hub ⟨1⟩).table.byPredicate.get? "http://x/temp" = some ⟨10⟩ ∧
        (rooms.leaf ⟨10⟩).isCell = true ∧
        (∀ k ∈ [⟨2⟩, ⟨1⟩], (rooms.hub k).table.isReserved ⟨10⟩ = false) ∧
        ∀ k ∈ roomsUpdate.targets, ∀ e ∈ roomsValues,
          (rooms.hub k).table.byPredicate.get? e.1 = some ⟨10⟩ → e.1 = "http://x/temp") ∧
      ((rooms.leaf ⟨12⟩).isCell = true ∧
        (∀ k ∈ [⟨2⟩, ⟨1⟩], (rooms.hub k).table.isReserved ⟨12⟩ = false) ∧
        ∀ k ∈ roomsUpdate.targets, ∀ e ∈ roomsValues,
          (rooms.hub k).table.byPredicate.get? e.1 ≠ some ⟨12⟩) := by
    decide +kernel
  have h := update_request (b := rooms) ⟨{}, default, {}, _, Disk.sound_empty, rfl⟩ ho roomsUpdate
    known roomsPairs
  rw [show roomsUpdate.request.space.getD Name.base = "http://x/" from rfl] at h
  dsimp only at h
  rw [hvalues, hreached] at h
  obtain ⟨-, -, hcount, hshown, hkept, huntouched⟩ := h
  obtain ⟨s, hs, -, hget⟩ := hshown ⟨1⟩ (by decide)
  obtain ⟨hl, hc, hr, alone⟩ := htemp
  exact ⟨ho, known, hvalues, hcount,
    ⟨s, hs.snapshot, hget ("http://x/temp", .int 21) List.mem_cons_self ⟨10⟩ hl hc hr alone⟩,
    hkept ⟨12⟩ hlevel.1 hlevel.2.1 hlevel.2.2, huntouched ⟨3⟩ (by decide)⟩

end Board

end Switchboard
