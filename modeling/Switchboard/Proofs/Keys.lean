import Mathlib.Data.List.Nodup
import Mathlib.Data.List.TakeWhile
import Mathlib.Data.String.Basic
import Switchboard.Proofs.Texts

/-!
# The keys of published texts

A leaf goes by the trailing segment of its predicate, or by the whole predicate if another one
ends in the same segment. Both rules together keep the short names of a hub apart: the trailing
segment of a trailing segment is the segment itself, so no whole predicate is the segment that
another one has for itself. The names are in descending order, so the index is a function of what
is registered.

The reserved keys are not part of the index. A predicate that ends in one of them takes it a
second time, unless it has to go by its whole name.

* `LeafTable.key_inj`: no two indexed predicates have one key.
* `LeafTable.shortNames_congr`: the index does not depend on the order of registration.
* `Board.shortNames_canonical`: what the index is after any leaves were offered to a hub.
* `Board.nodup_members`: when the member names of a published text are distinct.
-/

namespace Switchboard

namespace Name

/-- **A trailing segment is its own trailing segment.** -/
theorem localChars_localChars (name : List Char) :
    localChars (localChars name) = localChars name := by
  unfold localChars
  cases name.reverse with
  | nil => rfl
  | cons c r => simp only [List.reverse_reverse, List.takeWhile_idem]

theorem localName_localName (name : String) : localName (localName name) = localName name := by
  rw [localName, localName, String.toList_ofList, localChars_localChars]

theorem localName_label (r : Reserved) : localName r.label = r.label := by
  cases r <;> decide

end Name

namespace LeafTable

variable {t t' : LeafTable} {p q : String} {l : LeafId}

/-! ### Sorting -/

theorem perm_insertDescending (e : ShortName) (es : List ShortName) :
    (insertDescending e es).Perm (e :: es) := by
  induction es with
  | nil => exact .refl _
  | cons f es ih =>
    rw [insertDescending]
    split
    · exact .refl _
    · exact (ih.cons f).trans (.swap e f es)

theorem perm_sortDescending (es : List ShortName) : (sortDescending es).Perm es := by
  induction es with
  | nil => exact .refl _
  | cons e es ih => exact (perm_insertDescending e _).trans (ih.cons e)

theorem pairwise_insertDescending {e : ShortName} {es : List ShortName}
    (h : es.Pairwise fun a b => b.key ≤ a.key) :
    (insertDescending e es).Pairwise fun a b => b.key ≤ a.key := by
  induction es with
  | nil => exact List.pairwise_singleton _ e
  | cons f es ih =>
    obtain ⟨hf, hes⟩ := List.pairwise_cons.1 h
    rw [insertDescending]
    split
    · rename_i hle
      refine List.pairwise_cons.2 ⟨fun g hg => ?_, h⟩
      rcases List.mem_cons.1 hg with rfl | hg
      · exact hle
      · exact le_trans (hf g hg) hle
    · rename_i hlt
      refine List.pairwise_cons.2 ⟨fun g hg => ?_, ih hes⟩
      rcases mem_insertDescending.1 hg with rfl | hg
      · exact (le_total _ _).resolve_left hlt
      · exact hf g hg

theorem pairwise_sortDescending (es : List ShortName) :
    (sortDescending es).Pairwise fun a b => b.key ≤ a.key := by
  induction es with
  | nil => exact .nil
  | cons e es ih => exact pairwise_insertDescending ih

/-! ### Keys -/

/-- Whether a predicate is registered for a leaf that is in no reserved slot. -/
def IsIndexed (t : LeafTable) (p : String) : Prop :=
  ∃ l, t.byPredicate.get? p = some l ∧ t.isReserved l = false

theorem mem_indexed {e : String × LeafId} : e ∈ t.indexed ↔
    t.byPredicate.get? e.1 = some e.2 ∧ t.isReserved e.2 = false := by
  rw [indexed, List.mem_filter, Bool.not_eq_true', Register.get?_eq_some_iff]

theorem nodup_indexed (t : LeafTable) : (t.indexed.map Prod.fst).Nodup :=
  t.byPredicate.distinct.sublist (List.filter_sublist.map _)

/-- A predicate goes by its trailing segment if it is the only one that ends in it. -/
theorem isUnique_iff (hp : t.IsIndexed p) : t.isUnique p = true ↔
    ∀ q, t.IsIndexed q → Name.localName q = Name.localName p → q = p := by
  obtain ⟨l, hl⟩ := hp
  have hmem : ∀ e, e ∈ (t.indexed.filter fun e => Name.localName e.1 = Name.localName p) ↔
      e ∈ t.indexed ∧ Name.localName e.1 = Name.localName p := by
    intro e
    rw [List.mem_filter, decide_eq_true_eq]
  have hself := (hmem (p, l)).2 ⟨mem_indexed.2 hl, rfl⟩
  rw [isUnique, decide_eq_true_eq]
  constructor
  · rintro hone q ⟨k, hk⟩ hq
    obtain ⟨e, he⟩ := List.length_eq_one_iff.1 hone
    have hqe := (hmem (q, k)).2 ⟨mem_indexed.2 hk, hq⟩
    rw [he, List.mem_singleton] at hself hqe
    exact congrArg Prod.fst (hqe.trans hself.symm)
  · intro hall
    -- all that is left in the filter is the entry of `p`, and it is there once
    have hsame : ∀ e ∈ (t.indexed.filter fun e => Name.localName e.1 = Name.localName p),
        e = (p, l) := by
      intro e he
      obtain ⟨hi, hn⟩ := (hmem e).1 he
      have hg := mem_indexed.1 hi
      have he1 : e.1 = p := hall e.1 ⟨e.2, hg⟩ hn
      rw [he1, hl.1] at hg
      exact Prod.ext he1 (Option.some.inj hg.1).symm
    have hnodup := (List.Nodup.of_map _ t.nodup_indexed).filter
      fun e => decide (Name.localName e.1 = Name.localName p)
    rw [List.eq_replicate_of_mem hsame] at hnodup hself ⊢
    rw [List.length_replicate]
    exact Nat.le_antisymm (List.nodup_replicate.1 hnodup)
      (Nat.pos_of_ne_zero (List.mem_replicate.1 hself).1)

theorem key_of_unique (h : t.isUnique p = true) : t.key p = Name.localName p := if_pos h

theorem key_of_shared (h : t.isUnique p = false) : t.key p = p := by
  rw [key, h, if_neg Bool.false_ne_true]

/-- A key ends in the same segment as its predicate. -/
theorem localName_key (t : LeafTable) (p : String) :
    Name.localName (t.key p) = Name.localName p := by
  cases h : t.isUnique p with
  | true => rw [key_of_unique h, Name.localName_localName]
  | false => rw [key_of_shared h]

/-- **No two indexed predicates have one key.** -/
theorem key_inj (hp : t.IsIndexed p) (hq : t.IsIndexed q) (h : t.key p = t.key q) : p = q := by
  have hlocal : Name.localName p = Name.localName q := by
    rw [← localName_key t p, h, localName_key]
  cases hup : t.isUnique p with
  | true => exact ((isUnique_iff hp).1 hup q hq hlocal.symm).symm
  | false =>
    cases huq : t.isUnique q with
    | true => exact (isUnique_iff hq).1 huq p hp hlocal
    | false => rwa [key_of_shared hup, key_of_shared huq] at h

/-! ### The index -/

theorem perm_shortNames (t : LeafTable) :
    t.shortNames.Perm (t.indexed.map fun e => ⟨t.key e.1, e.1, e.2⟩) :=
  perm_sortDescending _

theorem nodup_predicates (t : LeafTable) : (t.shortNames.map ShortName.predicate).Nodup := by
  rw [(t.perm_shortNames.map _).nodup_iff, List.map_map]
  exact t.nodup_indexed

theorem isIndexed_of_mem {e : ShortName} (he : e ∈ t.shortNames) : t.IsIndexed e.predicate :=
  ⟨e.leaf, (mem_shortNames.1 he).2⟩

/-- An indexed predicate has an entry. -/
theorem IsIndexed.exists_mem (hp : t.IsIndexed p) :
    ∃ e ∈ t.shortNames, e.predicate = p ∧ e.key = t.key p := by
  obtain ⟨l, hl⟩ := hp
  exact ⟨⟨t.key p, p, l⟩, mem_shortNames.2 ⟨rfl, hl⟩, rfl, rfl⟩

/-- **The keys are strictly descending.** -/
theorem descending_keys (t : LeafTable) :
    (t.shortNames.map ShortName.key).Pairwise (· > ·) := by
  have hne : (t.shortNames).Pairwise fun a b => a.key ≠ b.key := by
    have hd := t.nodup_predicates
    rw [List.Nodup, List.pairwise_map] at hd
    refine hd.imp_of_mem fun ha hb hab hk => hab ?_
    rw [(mem_shortNames.1 ha).1, (mem_shortNames.1 hb).1] at hk
    exact key_inj (isIndexed_of_mem ha) (isIndexed_of_mem hb) hk
  rw [List.pairwise_map]
  exact (pairwise_sortDescending _).imp₂ (fun a b hle hne => lt_of_le_of_ne hle hne.symm) hne

theorem nodup_keys (t : LeafTable) : (t.shortNames.map ShortName.key).Nodup :=
  t.descending_keys.imp fun hgt => (ne_of_lt hgt).symm

theorem isReserved_congr (slots : ∀ r, t'.slot r = t.slot r) (l : LeafId) :
    t'.isReserved l = t.isReserved l := by
  rw [isReserved, isReserved]
  show (decide (l = t'.slot .instant) || decide (l = t'.slot .datetime)) =
    (decide (l = t.slot .instant) || decide (l = t.slot .datetime))
  rw [slots, slots]

/-- **The index does not depend on the order of registration**: tables with the same leaves under
the same predicates and in the same slots have the same index. -/
theorem shortNames_congr (same : ∀ p, t'.byPredicate.get? p = t.byPredicate.get? p)
    (slots : ∀ r, t'.slot r = t.slot r) : t'.shortNames = t.shortNames := by
  have hindexed : ∀ p, t'.IsIndexed p ↔ t.IsIndexed p := by
    intro p
    simp only [IsIndexed, same, isReserved_congr slots]
  have hkey : ∀ p, t.IsIndexed p → t'.key p = t.key p := by
    intro p hp
    have hu : t'.isUnique p = t.isUnique p := by
      rw [Bool.eq_iff_iff, isUnique_iff ((hindexed p).2 hp), isUnique_iff hp]
      simp only [hindexed]
    rw [key, key, hu]
  have hperm : t'.shortNames.Perm t.shortNames := by
    refine (List.perm_ext_iff_of_nodup (.of_map _ t'.nodup_predicates)
      (.of_map _ t.nodup_predicates)).2 fun e => ?_
    rw [mem_shortNames, mem_shortNames, same, isReserved_congr slots]
    refine and_congr_left fun he => ?_
    rw [hkey e.predicate ⟨e.leaf, he⟩]
  have hdesc := List.pairwise_map.1 t.descending_keys
  have hdesc' := List.pairwise_map.1 t'.descending_keys
  exact hperm.eq_of_pairwise (fun _ _ _ _ hab hba => absurd hab (lt_asymm hba)) hdesc' hdesc

/-- **What the index of a table is.** Every registered leaf that is in no reserved slot has one
entry, and there are no others. An entry goes by its trailing segment, or by its whole predicate
if another entry ends in the same segment. -/
structure IsIndex (t : LeafTable) : Prop where
  once : (t.shortNames.map ShortName.predicate).Nodup
  entered : ∀ p l, (∃ e ∈ t.shortNames, e.predicate = p ∧ e.leaf = l) ↔
    t.byPredicate.get? p = some l ∧ t.isReserved l = false
  unreserved : ∀ e ∈ t.shortNames, ∀ r : Name.Reserved, e.predicate ≠ r.predicate
  short : ∀ e ∈ t.shortNames,
    (∀ f ∈ t.shortNames, Name.localName f.predicate = Name.localName e.predicate →
      f.predicate = e.predicate) → e.key = Name.localName e.predicate
  whole : ∀ e ∈ t.shortNames,
    (∃ f ∈ t.shortNames, f.predicate ≠ e.predicate ∧
      Name.localName f.predicate = Name.localName e.predicate) → e.key = e.predicate
  descending : (t.shortNames.map ShortName.key).Pairwise (· > ·)

theorem isIndex (slotted : t.IsSlotted) : t.IsIndex where
  once := t.nodup_predicates
  entered p l := by
    constructor
    · rintro ⟨e, he, rfl, rfl⟩
      exact (mem_shortNames.1 he).2
    · intro h
      exact ⟨⟨t.key p, p, l⟩, mem_shortNames.2 ⟨rfl, h⟩, rfl, rfl⟩
  unreserved e he r hr := by
    -- the leaf of a reserved predicate is in the slot of that predicate
    obtain ⟨-, hg, hres⟩ := mem_shortNames.1 he
    rw [hr] at hg
    rw [isReserved_iff.2 ⟨r, slotted r e.leaf hg⟩] at hres
    cases hres
  short e he halone := by
    rw [(mem_shortNames.1 he).1]
    refine key_of_unique ((isUnique_iff (isIndexed_of_mem he)).2 fun q hq hlocal => ?_)
    obtain ⟨f, hf, rfl, -⟩ := hq.exists_mem
    exact halone f hf hlocal
  whole e he hshared := by
    obtain ⟨f, hf, hne, hlocal⟩ := hshared
    rw [(mem_shortNames.1 he).1]
    refine key_of_shared (Bool.eq_false_iff.2 fun hu => hne ?_)
    exact (isUnique_iff (isIndexed_of_mem he)).1 hu f.predicate (isIndexed_of_mem hf) hlocal
  descending := t.descending_keys

/-! ### Member names -/

/-- The names of the members of the texts of a table, in order. -/
def memberNames (t : LeafTable) : List String :=
  [Name.Reserved.instant, .datetime].map Name.Reserved.label ++ t.shortNames.map ShortName.key

theorem keys_layout (t : LeafTable) (leafOf : LeafId → Leaf) :
    (t.layout leafOf).map Member.key = t.memberNames := by
  rw [layout, memberNames, List.map_append, List.map_map, List.map_map]
  rfl

/-- A predicate goes by a reserved name if it ends in it and either is just that or the only one
that ends so. -/
theorem key_eq_label_iff (hp : t.IsIndexed p) (r : Name.Reserved) : t.key p = r.label ↔
    Name.localName p = r.label ∧
      (p = r.label ∨ ∀ q, t.IsIndexed q → Name.localName q = r.label → q = p) := by
  constructor
  · intro hk
    have hlocal : Name.localName p = r.label := by
      rw [← localName_key t p, hk, Name.localName_label]
    refine ⟨hlocal, ?_⟩
    cases hu : t.isUnique p with
    | true => exact .inr fun q hq hn => (isUnique_iff hp).1 hu q hq (hn.trans hlocal.symm)
    | false => exact .inl ((key_of_shared hu).symm.trans hk)
  · rintro ⟨hlocal, h⟩
    cases hu : t.isUnique p with
    | true => exact (key_of_unique hu).trans hlocal
    | false =>
      rw [key_of_shared hu]
      refine h.resolve_right fun halone => ?_
      rw [(isUnique_iff hp).2 fun q hq hn => halone q hq (hn.trans hlocal)] at hu
      cases hu

/-- **When the member names are distinct**: every predicate that ends in a reserved name goes by
its whole name, since another one ends so too, and is not just the reserved name. -/
theorem nodup_memberNames (t : LeafTable) : t.memberNames.Nodup ↔
    ∀ (r : Name.Reserved) p, t.IsIndexed p → Name.localName p = r.label →
      p ≠ r.label ∧ ∃ q, t.IsIndexed q ∧ q ≠ p ∧ Name.localName q = r.label := by
  have hlabels : ([Name.Reserved.instant, .datetime].map Name.Reserved.label).Nodup := by decide
  have happ : t.memberNames.Nodup ↔
      ∀ (r : Name.Reserved) p, t.IsIndexed p → t.key p ≠ r.label := by
    rw [memberNames, List.nodup_append]
    constructor
    · rintro ⟨-, -, hne⟩ r p hp hk
      obtain ⟨e, he, -, hek⟩ := hp.exists_mem
      refine hne r.label (List.mem_map.2 ⟨r, ?_, rfl⟩) e.key (List.mem_map_of_mem he)
        (hek.trans hk).symm
      cases r <;> decide
    · intro hne
      refine ⟨hlabels, t.nodup_keys, fun a ha c hc hac => ?_⟩
      obtain ⟨r, -, rfl⟩ := List.mem_map.1 ha
      obtain ⟨e, he, rfl⟩ := List.mem_map.1 hc
      exact hne r e.predicate (isIndexed_of_mem he) ((mem_shortNames.1 he).1.symm.trans hac.symm)
  rw [happ]
  refine forall_congr' fun r => forall_congr' fun p => forall_congr' fun hp => ?_
  rw [Ne, key_eq_label_iff hp, not_and, not_or]
  refine imp_congr_right fun _ => and_congr_right fun _ => ?_
  simp only [not_forall, exists_prop]
  exact exists_congr fun q => and_congr_right fun _ => and_comm

/-- What a table shows is a function of its index and its slots. -/
theorem render_capture_of_fields (slotted : t.IsSlotted) (slotted' : t'.IsSlotted)
    (names : t'.shortNames = t.shortNames) (slots : ∀ r, t'.slot r = t.slot r)
    {leafOf leafOf' : LeafId → Leaf}
    (same : ∀ l, (leafOf' l).isArray = (leafOf l).isArray ∧ (leafOf' l).values = (leafOf l).values)
    (time time' : Timestamp) :
    t'.render leafOf' (t'.capture leafOf' time') = t.render leafOf (t.capture leafOf time) := by
  have hfields : t'.fields = t.fields := by
    rw [fields, fields, names]
    simp only [slots]
  have htext : ∀ f, fieldText leafOf' f = fieldText leafOf f := by
    intro f
    rw [fieldText, fieldText, (same f.2).1, (same f.2).2]
  rw [render_capture slotted, render_capture slotted', hfields, List.map_congr_left fun f _ => htext f]

end LeafTable

namespace Board

variable {b : Board} {h : HubId}

/-! ### Offering leaves -/

/-- The board after leaves are offered to a hub in order, each under a predicate. -/
def offerLeaves (b : Board) (h : HubId) (offers : List (String × LeafId)) : Board :=
  offers.foldl (fun b e => (b.addLeaf h e.1 e.2).1) b

/-- The leaf that is offered first under a predicate. -/
def firstOffer (offers : List (String × LeafId)) (p : String) : Option LeafId :=
  (offers.find? fun e => e.1 = p).map Prod.snd

/-- **A hub registers the leaf that is offered first** under a predicate, unless it has one. -/
theorem get?_offerLeaves (b : Board) (h : HubId) (offers : List (String × LeafId)) (p : String) :
    ((b.offerLeaves h offers).hub h).table.byPredicate.get? p =
      ((b.hub h).table.byPredicate.get? p).or (firstOffer offers p) := by
  induction offers generalizing b with
  | nil => exact Option.or_none.symm
  | cons e offers ih =>
    show (((b.addLeaf h e.1 e.2).1.offerLeaves h offers).hub h).table.byPredicate.get? p = _
    rw [ih, get?_addLeaf, Option.or_assoc, firstOffer, firstOffer, List.find?_cons]
    by_cases hp : e.1 = p
    · rw [if_pos hp, decide_eq_true hp]
      rfl
    · rw [if_neg hp, decide_eq_false hp, Option.none_or]

/-- What comes of leaves that are offered to a hub: leaves keep their contents, registered leaves
stay, one that is registered for a reserved slot is put there, and the text of the hub is dropped
if there is any new leaf. -/
structure Takes (b b' : Board) (h : HubId) : Prop where
  body : ∀ l, (b'.leaf l).body = (b.leaf l).body
  isVolatile : (b'.hub h).isVolatile = (b.hub h).isVolatile
  kept : ∀ p, (b'.hub h).table.byPredicate.get? p = none → (b.hub h).table.byPredicate.get? p = none
  slotted : (b.hub h).table.IsSlotted → (b'.hub h).table.IsSlotted
  slot : ∀ r : Name.Reserved, (b'.hub h).table.byPredicate.get? r.predicate = none →
    (b'.hub h).table.slot r = (b.hub h).table.slot r
  formatted : b' = b ∨ (b'.hub h).formatted = none ∧
    ∃ p, (b.hub h).table.byPredicate.get? p = none ∧ (b'.hub h).table.byPredicate.get? p ≠ none

theorem Takes.refl (b : Board) (h : HubId) : Takes b b h :=
  ⟨fun _ => rfl, rfl, fun _ => id, id, fun _ _ => rfl, .inl rfl⟩

theorem Takes.trans {b' b'' : Board} (x : Takes b b' h) (y : Takes b' b'' h) : Takes b b'' h where
  body l := (y.body l).trans (x.body l)
  isVolatile := y.isVolatile.trans x.isVolatile
  kept p hp := x.kept p (y.kept p hp)
  slotted hs := y.slotted (x.slotted hs)
  slot r hr := (y.slot r hr).trans (x.slot r (y.kept _ hr))
  formatted := by
    rcases y.formatted with rfl | ⟨hn, p, hp, hp'⟩
    · exact x.formatted
    · exact .inr ⟨hn, p, x.kept p hp, hp'⟩

theorem takes_addLeaf (b : Board) (h : HubId) (e : String × LeafId) :
    Takes b (b.addLeaf h e.1 e.2).1 h := by
  cases hc : (b.hub h).table.byPredicate.contains e.1 with
  | true =>
    rw [addLeaf_of_taken hc]
    exact .refl b h
  | false =>
    have hget := get?_addLeaf b h e.1 e.2
    have htable : ((b.addLeaf h e.1 e.2).1.hub h).table = (b.hub h).table.add e.1 e.2 := by
      rw [hub_addLeaf hc, if_pos rfl]
    refine ⟨body_addLeaf hc, (like_addLeaf hc h).2.2.1, fun p hp => ?_, fun hs r l hl => ?_,
      fun r hr => ?_, .inr ⟨?_, e.1, ?_, ?_⟩⟩
    · rw [hget, Option.or_eq_none_iff] at hp
      exact hp.1
    · rw [htable, LeafTable.byPredicate_add, Register.get?_put] at hl
      rw [htable, LeafTable.slot_add]
      by_cases hp : e.1 = r.predicate
      · rw [if_pos hp] at hl ⊢
        exact Option.some.inj hl
      · rw [if_neg hp] at hl ⊢
        exact hs r l hl
    · rw [htable, LeafTable.byPredicate_add, Register.get?_put] at hr
      rw [htable, LeafTable.slot_add]
      split at hr
      · cases hr
      · rename_i hp
        rw [if_neg hp]
    · rw [hub_addLeaf hc, if_pos rfl]
    · exact Option.isNone_iff_eq_none.1 (Option.isSome_eq_false_iff.1 hc)
    · rw [hget, if_pos rfl, Ne, Option.or_eq_none_iff]
      exact fun hn => nomatch hn.2

theorem takes_offerLeaves (b : Board) (h : HubId) (offers : List (String × LeafId)) :
    Takes b (b.offerLeaves h offers) h := by
  induction offers generalizing b with
  | nil => exact .refl b h
  | cons e offers ih => exact (takes_addLeaf b h e).trans (ih (b.addLeaf h e.1 e.2).1)

section Order

variable {offers offers' : List (String × LeafId)}
variable (same : ∀ p, ((b.offerLeaves h offers').hub h).table.byPredicate.get? p =
  ((b.offerLeaves h offers).hub h).table.byPredicate.get? p)
variable (slotted : (b.hub h).table.IsSlotted)
include same slotted

/-- The slots of a hub after leaves were offered are told by what is registered. -/
theorem slot_offerLeaves (r : Name.Reserved) :
    ((b.offerLeaves h offers').hub h).table.slot r =
      ((b.offerLeaves h offers).hub h).table.slot r := by
  have hx := takes_offerLeaves b h offers
  have hy := takes_offerLeaves b h offers'
  cases hg : ((b.offerLeaves h offers).hub h).table.byPredicate.get? r.predicate with
  | some l =>
    rw [hx.slotted slotted r l hg, hy.slotted slotted r l ((same _).trans hg)]
  | none => rw [hx.slot r hg, hy.slot r ((same _).trans hg)]

theorem shortNames_offerLeaves : ((b.offerLeaves h offers').hub h).table.shortNames =
    ((b.offerLeaves h offers).hub h).table.shortNames :=
  LeafTable.shortNames_congr same (slot_offerLeaves same slotted)

/-- **The text of a hub does not depend on the order** in which its leaves were offered. -/
theorem formatted_offerLeaves : ((b.offerLeaves h offers').formatted h).2 =
    ((b.offerLeaves h offers).formatted h).2 := by
  have hx := takes_offerLeaves b h offers
  have hy := takes_offerLeaves b h offers'
  have hlive : (b.offerLeaves h offers').liveText h = (b.offerLeaves h offers).liveText h := by
    refine congrArg String.ofList (LeafTable.render_capture_of_fields (hx.slotted slotted)
      (hy.slotted slotted) (shortNames_offerLeaves same slotted) (slot_offerLeaves same slotted)
      (fun l => ?_) _ _)
    have hbody := (hy.body l).trans (hx.body l).symm
    exact ⟨by unfold Leaf.isArray; rw [hbody], by unfold Leaf.values; rw [hbody]⟩
  have hkept : ((b.offerLeaves h offers').hub h).formatted =
      ((b.offerLeaves h offers).hub h).formatted := by
    -- the two boards have new leaves both or neither
    rcases hx.formatted with ex | ⟨nx, p, hp, hp'⟩ <;> rcases hy.formatted with ey | ⟨ny, q, hq, hq'⟩
    · rw [ex, ey]
    · rw [same, ex] at hq'
      exact absurd hq hq'
    · rw [← same, ey] at hp'
      exact absurd hp hp'
    · rw [nx, ny]
  rw [formatted_snd, formatted_snd, hlive, hkept, hx.isVolatile, hy.isVolatile]

end Order

/-- **The short names of a hub are canonical.** Offered leaves are registered in turn, under the
predicates that are free. The index has one entry for each registered leaf that is in no reserved
slot, its keys are trailing segments or whole predicates and strictly descend. Offers that lead to
the same leaves under the same predicates lead to the same index, so to the same texts of all
contents, and to the same text of the hub. -/
theorem shortNames_canonical (hb : Reachable b) (h : HubId) (offers : List (String × LeafId)) :
    let t := ((b.offerLeaves h offers).hub h).table
    (∀ p, t.byPredicate.get? p =
      ((b.hub h).table.byPredicate.get? p).or (firstOffer offers p)) ∧
    t.IsIndex ∧
    ∀ offers', let t' := ((b.offerLeaves h offers').hub h).table
      (∀ p, t'.byPredicate.get? p = t.byPredicate.get? p) →
        t'.shortNames = t.shortNames ∧
        (∀ leafOf time time',
          t'.render leafOf (t'.capture leafOf time') = t.render leafOf (t.capture leafOf time)) ∧
        ((b.offerLeaves h offers').formatted h).2 = ((b.offerLeaves h offers).formatted h).2 := by
  have slotted : (b.hub h).table.IsSlotted := hb.sound.slotted h
  have hx := (takes_offerLeaves b h offers).slotted slotted
  refine ⟨get?_offerLeaves b h offers, LeafTable.isIndex hx, fun offers' same => ?_⟩
  have hy := (takes_offerLeaves b h offers').slotted slotted
  have hnames := shortNames_offerLeaves same slotted
  have hslots := slot_offerLeaves same slotted
  exact ⟨hnames,
    fun _ => LeafTable.render_capture_of_fields hx hy hnames hslots fun _ => ⟨rfl, rfl⟩,
    formatted_offerLeaves same slotted⟩

/-- A hub without leaves of its own, two scalars and an array. -/
def threeLeaves : Board := (start {} default {}).run
  [.openHub (Name.hubName "r"), .makeLeaf "a" .scalar "a", .makeLeaf "b" .scalar "b",
    .makeLeaf "c" .array "c"]

/-- Offers of a leaf under a reserved predicate and another one, of a leaf under two predicates
that end alike, of one under what they end in, and of one under a predicate that is taken. -/
def clashing : List (String × LeafId) :=
  [(Name.Reserved.instant.predicate, ⟨6⟩), ("http://x/a/t", ⟨7⟩), ("http://x/v", ⟨6⟩),
    ("http://x/b/t", ⟨7⟩), ("t", ⟨8⟩), ("http://x/a/t", ⟨8⟩), ("http://x/w", ⟨8⟩)]

/-- The same without the offer that comes to nothing, in another order. -/
def clashingBack : List (String × LeafId) :=
  [("http://x/w", ⟨8⟩), ("t", ⟨8⟩), ("http://x/b/t", ⟨7⟩), ("http://x/v", ⟨6⟩),
    ("http://x/a/t", ⟨7⟩), (Name.Reserved.instant.predicate, ⟨6⟩)]

theorem shortNames_canonical_clashing :
    (((threeLeaves.offerLeaves ⟨1⟩ clashing).hub ⟨1⟩).table.shortNames.map ShortName.key =
      ["w", "t", "http://x/b/t", "http://x/a/t"]) ∧
      ((threeLeaves.offerLeaves ⟨1⟩ clashing).hub ⟨1⟩).table.IsIndex ∧
      ((threeLeaves.offerLeaves ⟨1⟩ clashingBack).formatted ⟨1⟩).2 =
        ((threeLeaves.offerLeaves ⟨1⟩ clashing).formatted ⟨1⟩).2 := by
  have hc := shortNames_canonical (b := threeLeaves) ⟨{}, default, {}, _, Disk.sound_empty, rfl⟩
    ⟨1⟩ clashing
  -- both lists lead to the same registrations, in another order
  have hperm : ((threeLeaves.offerLeaves ⟨1⟩ clashingBack).hub ⟨1⟩).table.byPredicate.entries.Perm
      ((threeLeaves.offerLeaves ⟨1⟩ clashing).hub ⟨1⟩).table.byPredicate.entries := by
    decide +kernel
  refine ⟨by decide +kernel, hc.2.1, (hc.2.2 clashingBack fun p => Option.ext fun l => ?_).2.2⟩
  rw [Register.get?_eq_some_iff, Register.get?_eq_some_iff, hperm.mem_iff]

/-! ### The members of a published text -/

/-- **The member names of a text.** The text of a hub is an object with the reserved names first
and the short names after them. No two short names are equal. All names are distinct exactly if
every predicate that ends in a reserved name has to go by its whole name, and is more than that. -/
theorem nodup_members (hb : Reachable b) (h : HubId) :
    ∃ ms, Json.read (b.formatted h).2.toList = some (.object ms) ∧
      ms.map Prod.fst = (b.hub h).table.memberNames.map (fun name => some name.toList) ∧
      ((b.hub h).table.shortNames.map ShortName.key).Nodup ∧
      ((ms.map Prod.fst).Nodup ↔
        ∀ (r : Name.Reserved) p, (b.hub h).table.IsIndexed p → Name.localName p = r.label →
          p ≠ r.label ∧ ∃ q, (b.hub h).table.IsIndexed q ∧ q ≠ p ∧ Name.localName q = r.label) := by
  obtain ⟨settings, wall, disk, ops, hdisk, rfl⟩ := hb
  have hstart := sound_start settings wall disk hdisk
  have hc := run_changes hstart ops
  obtain ⟨s, -, hdec⟩ := (ChangesBy.holdsTexts hc hstart
    (holdsTexts_start settings wall disk h)).decodes_formatted hc (ChangesBy.sound hc hstart)
  have hnames : ((((start settings wall disk).run ops).layout h).map fun m : Member =>
      (some m.key.toList, m.value ((s.get? m.predicate).getD []))).map Prod.fst =
      (((start settings wall disk).run ops).hub h).table.memberNames.map
        fun name => some name.toList := by
    rw [← LeafTable.keys_layout, List.map_map, List.map_map]
    rfl
  refine ⟨_, hdec.read, hnames, LeafTable.nodup_keys _, ?_⟩
  -- different names are written differently
  rw [hnames, List.nodup_map_iff fun _ _ he => String.toList_inj.1 (Option.some.inj he),
    LeafTable.nodup_memberNames]

/-- A hub with one leaf, under a predicate that ends in the name of a reserved one. -/
def shadowed : Board := (start {} default {}).run
  [.openHub (Name.hubName "r"), .makeLeaf "v" .scalar "v", .addLeaf ⟨1⟩ "http://x/instant" ⟨6⟩]

/-- The name of the time occurs a second time, for the leaf. -/
theorem nodup_members_shadowed : ∃ ms,
    Json.read (shadowed.formatted ⟨1⟩).2.toList = some (.object ms) ∧
      ms.map Prod.fst = ["instant", "datetime", "instant"].map (fun name => some name.toList) ∧
      ¬ (ms.map Prod.fst).Nodup := by
  obtain ⟨ms, hread, hnames, -, hnodup⟩ :=
    nodup_members (b := shadowed) ⟨{}, default, {}, _, Disk.sound_empty, rfl⟩ ⟨1⟩
  refine ⟨ms, hread, hnames.trans (congrArg _ (by decide +kernel)), fun hd => ?_⟩
  obtain ⟨-, q, ⟨l, hl, -⟩, hq, -⟩ := hnodup.1 hd .instant "http://x/instant"
    ⟨⟨6⟩, by decide +kernel⟩ (by decide +kernel)
  -- no other predicate is registered
  have hall : ∀ e ∈ (shadowed.hub ⟨1⟩).table.byPredicate.entries, e.1 = "http://x/instant" := by
    decide +kernel
  exact hq (hall (q, l) (Register.get?_eq_some_iff.1 hl))

end Board

end Switchboard
