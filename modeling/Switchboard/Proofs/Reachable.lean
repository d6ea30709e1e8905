import Switchboard.Proofs.Change

/-!
# Reachable boards

A board is reachable if some operations lead there from the start, over a history directory in
which every name leads to a file of its own. All reachable boards are sound.

* `step_changes`: an operation on a sound board is a chain of changes.
* `Reachable.sound`: reachable boards are sound.
-/

namespace Switchboard

namespace Board

/-- The boards that operations lead to. -/
def Reachable (b : Board) : Prop :=
  ∃ settings wall disk ops, Disk.Sound disk ∧ b = (start settings wall disk).run ops

variable {A : Action → Prop} {E : Edit → Prop} {b b' : Board}

/-! ### Publications and counts -/

/-- Every board keeps to plans without a bound. -/
theorem plansWithin_true (b : Board) : PlansWithin (fun _ => True) b :=
  fun _ _ _ _ _ => trivial

theorem publish_changes (hp : PlansWithin A b) {h : HubId} (held : b.isHubHeld h = true)
    (time : Timestamp) : ChangesBy A E b (b.publish h time) :=
  Moves.changes (publish_moves _ b h time hp held)

theorem count_changes (hp : PlansWithin A b) (l : LeafId) (steps : Int) :
    ChangesBy A E b (b.count l steps).1 :=
  Moves.changes (count_moves hp l steps)

theorem close_changes (hp : PlansWithin A b) (c : ConsumerId) : ChangesBy A E b (b.close c) :=
  Moves.changes (close_moves hp c)

theorem publishAll_moves (hb : PlansWithin A b) {hs : List HubId}
    (held : ∀ h ∈ hs, b.isHubHeld h = true) (time : Timestamp) :
    Moves A b (b.publishAll hs time) := by
  induction hs generalizing b with
  | nil => exact .refl
  | cons h hs ih =>
    have hm := publish_moves A b h time hb (held h List.mem_cons_self)
    refine hm.trans (ih (Moves.plans hm hb) fun k hk => ?_)
    rw [(Moves.frame hm).isHubHeld]
    exact held k (List.mem_cons_of_mem h hk)

theorem foldl_publishAll (parts : List (List HubId)) (time : Timestamp) (b : Board) :
    parts.foldl (fun b part => b.publishAll part time) b = b.publishAll parts.flatten time := by
  rw [publishAll, List.foldl_flatten]
  rfl

/-- **Finishing publishes the touched hubs in order**, however many workers share them. -/
theorem finish_eq {tx : Transaction} (ht : b.transaction = some tx) :
    b.finish = ({ b.publishAll tx.hubs tx.openedAt with transaction := none }, tx.hubs.length) := by
  unfold finish
  rw [ht]
  dsimp only
  rw [foldl_publishAll, flatten_workParts]

theorem isHubHeld_of_touched {tx : Transaction} (ht : b.transaction = some tx) {h : HubId}
    (hh : h ∈ tx.hubs) : b.isHubHeld h = true :=
  (isHubHeld_iff b h).2 (.inr (.inr (.inr ⟨tx, ht, hh⟩)))

theorem finish_changes (hp : PlansWithin A b) : ChangesBy A E b b.finish.1 := by
  cases ht : b.transaction with
  | none =>
    unfold finish
    rw [ht]
  | some tx =>
    rw [finish_eq ht]
    have held : ∀ h ∈ tx.hubs, b.isHubHeld h = true := fun h hh => isHubHeld_of_touched ht hh
    have hm := publishAll_moves hp held tx.openedAt
    exact Relation.ReflTransGen.tail (Moves.changes hm) (.transact none fun _ h => by cases h)

/-! ### Hubs and leaves -/

theorem onlyIf_changes {allowed : Bool} (h : allowed = true → ChangesBy A E b b') :
    ChangesBy A E b (b.onlyIf allowed b') :=
  onlyIf_of (P := ChangesBy A E b) .refl h

/-- A hub that is found by its name is held. -/
theorem isHubHeld_of_hub? {name : String} {h : HubId} (hh : b.hub? name = some h) :
    b.isHubHeld h = true :=
  (isHubHeld_iff b h).2 (.inr (.inl (Register.mem_values_of_get? hh)))

theorem openHub_of_new {name id : String} (legal : Name.hubId? name = some id)
    (new : b.hub? name = none) : b.openHub name =
      .ok ((b.newHub name true).1.enterHub (b.newHub name true).2, (b.newHub name true).2) := by
  unfold openHub
  rw [legal, new]

/-- A name that leads to a hub is that of a registered one, or a new hub is made for it. -/
theorem openHub_cases {name : String} {h : HubId} (ho : b.openHub name = .ok (b', h)) :
    (b.hub? name = some h ∧ b' = b) ∨ ∃ id, Name.hubId? name = some id ∧ b.hub? name = none ∧
      b' = (b.newHub name true).1.enterHub (b.newHub name true).2 ∧
        h = (b.newHub name true).2 := by
  cases hl : Name.hubId? name with
  | none =>
    unfold openHub at ho
    rw [hl] at ho
    cases ho
  | some id =>
    cases hn : b.hub? name with
    | some k =>
      unfold openHub at ho
      rw [hl, hn] at ho
      cases ho
      exact .inl ⟨rfl, rfl⟩
    | none =>
      rw [openHub_of_new hl hn] at ho
      obtain ⟨rfl, rfl⟩ := Prod.mk.inj (Except.ok.inj ho)
      exact .inr ⟨id, rfl, rfl, rfl, rfl⟩

/-- What a name leads to is a hub that is held. -/
theorem openHub_changes (he : E .register) {name : String} {h : HubId}
    (ho : b.openHub name = .ok (b', h)) :
    ChangesBy A E b b' ∧ b'.isHubHeld h = true := by
  rcases openHub_cases ho with ⟨hn, rfl⟩ | ⟨id, hl, hn, rfl, rfl⟩
  · exact ⟨.refl, isHubHeld_of_hub? hn⟩
  · refine ⟨.single (.openHub name id hl hn he), @isHubHeld_of_hub? _ name _ ?_⟩
    rw [hub?, registry_openHub hl hn, Register.get?_put_self]

/-- A leaf that was just made is one that callers may get at. -/
theorem fair_newLeaf (hb : Sound b) (x : Leaf) : (b.newLeaf x).1.IsFair (b.newLeaf x).2 where
  room := by
    show b.leaves.size < (b.leaves.add x).size
    rw [Store.size_add]
    omega
  slots h r hs := by
    have hr := hb.rooms h _ ((LeafTable.mem_leaves_iff _ _).2 (.inl ⟨r, rfl⟩))
    change (b.hub h).table.slot r = _ at hs
    rw [hs] at hr
    exact absurd hr (Nat.lt_irrefl _)

/-- The leaf that a name asks for. -/
theorem openLeaf_of_new {name : String} {kind : Name.LeafKind}
    (hk : Name.leafKind? name = some kind) (new : b.leaf? name = none) :
    ∃ make : LeafMake, b.openLeaf name = .ok ((b.newLeaf (make.leaf name b.now)).1.enterLeaf name
      (b.newLeaf (make.leaf name b.now)).2, (b.newLeaf (make.leaf name b.now)).2) := by
  unfold openLeaf
  rw [hk, new]
  cases kind with
  | scalar => exact ⟨.scalar, rfl⟩
  | array => exact ⟨.array, rfl⟩

theorem owner_make (make : LeafMake) (name : String) (now : Int) :
    (make.leaf name now).owner = none := by
  cases make <;> rfl

/-- A leaf that is known by name is known. -/
theorem isKnownLeaf_of_leaf? {name : String} {l : LeafId} (hl : b.leaf? name = some l) :
    b.isKnownLeaf l = true :=
  (isKnownLeaf_iff b l).2 (.inl (Register.mem_values_of_get? hl))

/-- A name that leads to a leaf is that of a known one, or a new leaf is made for it. -/
theorem openLeaf_cases {name : String} {l : LeafId} (ho : b.openLeaf name = .ok (b', l)) :
    (b.leaf? name = some l ∧ b' = b) ∨ ∃ make : LeafMake,
      b' = (b.newLeaf (make.leaf name b.now)).1.enterLeaf name
        (b.newLeaf (make.leaf name b.now)).2 ∧ l = (b.newLeaf (make.leaf name b.now)).2 := by
  cases hk : Name.leafKind? name with
  | none =>
    unfold openLeaf at ho
    rw [hk] at ho
    cases ho
  | some kind =>
    cases hn : b.leaf? name with
    | some k =>
      unfold openLeaf at ho
      rw [hk, hn] at ho
      cases ho
      exact .inl ⟨rfl, rfl⟩
    | none =>
      obtain ⟨make, hm⟩ := openLeaf_of_new hk hn
      rw [hm] at ho
      obtain ⟨rfl, rfl⟩ := Prod.mk.inj (Except.ok.inj ho)
      exact .inr ⟨make, rfl, rfl⟩

theorem openLeaf_changes (hb : Sound b) (he : E .register) {name : String} {l : LeafId}
    (ho : b.openLeaf name = .ok (b', l)) :
    ChangesBy A E b b' ∧ b'.IsFair l ∧ ∀ h, b'.isHubHeld h = b.isHubHeld h := by
  rcases openLeaf_cases ho with ⟨hl, rfl⟩ | ⟨make, rfl, rfl⟩
  · exact ⟨.refl, hb.fair l (isKnownLeaf_of_leaf? hl), fun _ => rfl⟩
  · have hf := fair_newLeaf hb (make.leaf name b.now)
    have h1 : ChangesBy A E b _ := .single (.newLeaf _ (owner_make make name b.now) he)
    exact ⟨h1.tail (.enterLeaf name _ hf he), ⟨hf.room, hf.slots⟩, fun _ => rfl⟩

theorem makeLeaf_changes (hb : Sound b) (he : E .register) (label : String) (kind : LeafMake)
    (name : String) : ChangesBy A E b ((b.newLeaf (kind.leaf name b.now)).1.labelLeaf label
      (b.newLeaf (kind.leaf name b.now)).2 false) := by
  have h1 : ChangesBy A E b (b.newLeaf (kind.leaf name b.now)).1 :=
    .single (.newLeaf _ (owner_make kind name b.now) he)
  exact h1.tail (.labelLeaf label _ (fair_newLeaf hb _) he)

theorem addLeaf_changes (he : E .register) {h : HubId} (held : b.isHubHeld h = true) {l : LeafId}
    (fair : b.IsFair l)
    (predicate : String) : ChangesBy A E b (b.addLeaf h predicate l).1 := by
  cases free : (b.hub h).table.byPredicate.contains predicate with
  | true =>
    rw [addLeaf, free]
    exact .refl
  | false => exact .single (.addLeaf h predicate l held fair free he)

theorem addMeter_changes (hb : Sound b) (he : E .register) {h : HubId} (held : b.isHubHeld h = true)
    (predicate name : String) : ChangesBy A E b (b.addMeter h predicate name).1 ∧
      (b.addMeter h predicate name).1.IsFair (b.addMeter h predicate name).2 := by
  have h1 : ChangesBy A E b (b.newLeaf (.meter name b.settings.leastWindow b.now)).1 :=
    .single (.newLeaf _ rfl he)
  have hf := fair_newLeaf hb (.meter name b.settings.leastWindow b.now)
  generalize hp : b.newLeaf (.meter name b.settings.leastWindow b.now) = p at h1 hf
  obtain ⟨b1, l⟩ := p
  have held1 : b1.isHubHeld h = true := by
    have : b1 = (b.newLeaf (.meter name b.settings.leastWindow b.now)).1 := by rw [hp]
    rw [this]
    exact held
  have h2 : ChangesBy A E b1 _ := addLeaf_changes he held1 hf predicate
  unfold addMeter
  rw [hp]
  cases free : (b1.hub h).table.byPredicate.contains predicate with
  | true =>
    have hs : b1.addLeaf h predicate l = (b1, false) := by
      rw [addLeaf, free]
      rfl
    dsimp only
    rw [hs]
    exact ⟨h1, hf⟩
  | false =>
    -- the predicate was free: the meter is registered, entered and tracked
    have hf2 := fair_addLeaf (l := l) free hf
    generalize ha : b1.addLeaf h predicate l = q at h2 hf2
    obtain ⟨b2, added⟩ := q
    have hadded : added = true := by
      rw [addLeaf, free] at ha
      exact (Prod.mk.inj ha).2.symm
    dsimp only
    rw [ha, hadded]
    exact ⟨(h1.trans h2).tail (.enterLeaf name l hf2 he) |>.tail (.track _), hf2.room, hf2.slots⟩

/-! ### Transactions -/

theorem openTransaction_changes (b : Board) (kind : UpdateKind) :
    ChangesBy A E b (b.openTransaction kind) := by
  -- no hub is touched yet
  refine .single (.transact _ fun tx ht h hh => ?_)
  cases ht
  cases hh

theorem touch_changes {h : HubId} (held : b.isHubHeld h = true) : ChangesBy A E b (b.touch h) := by
  refine .single (.transact _ fun tx ht k hk => ?_)
  obtain ⟨tx', ht', rfl⟩ := Option.map_eq_some_iff.1 ht
  change k ∈ (tx'.touched.putNew (b.hub h).name h).values at hk
  rw [Register.putNew] at hk
  split at hk
  · exact isHubHeld_of_touched ht' hk
  · rcases Register.mem_values_put hk with rfl | hk
    · exact held
    · exact isHubHeld_of_touched ht' hk

/-- What a write within a transaction does. -/
theorem setValues_cases (b : Board) (h : HubId) (predicate : String) (vs : List Literal) :
    (∃ tx l, b.transaction = some tx ∧ (b.hub h).table.byPredicate.get? predicate = some l ∧
      b.setValues h predicate vs = ((b.modifyLeaf l (·.writeAll vs tx.openedAt)).touch h, true)) ∨
    (b.transaction = none ∨ (b.hub h).table.byPredicate.get? predicate = none) ∧
      b.setValues h predicate vs = (b, false) := by
  unfold setValues
  cases ht : b.transaction with
  | none => exact .inr ⟨.inl rfl, rfl⟩
  | some tx =>
    cases hl : (b.hub h).table.byPredicate.get? predicate with
    | none => exact .inr ⟨.inr rfl, rfl⟩
    | some l => exact .inl ⟨tx, l, rfl, rfl, rfl⟩

theorem setValues_changes {h : HubId} (held : b.isHubHeld h = true) (predicate : String)
    (vs : List Literal) (hw : E .write) : ChangesBy A E b (b.setValues h predicate vs).1 := by
  rcases setValues_cases b h predicate vs with ⟨tx, l, -, hl, he⟩ | ⟨-, he⟩ <;> rw [he]
  · have h1 : ChangesBy A E b (b.modifyLeaf l (·.writeAll vs tx.openedAt)) :=
      .single (.write l vs tx.openedAt (isKnownLeaf_of_get? hl) hw)
    have held' : (b.modifyLeaf l (·.writeAll vs tx.openedAt)).isHubHeld h = true := held
    exact h1.trans (touch_changes held')

theorem register_changes (hb : Sound b) (he : E .register) (hubName predicate leafName : String) :
    ChangesBy A E b (b.register hubName predicate leafName).1 := by
  unfold register
  split
  · exact .refl
  · rename_i b1 h h1
    obtain ⟨c1, held⟩ := openHub_changes (A := A) he h1
    split
    · exact c1
    · rename_i b2 l h2
      -- the leaf is opened on the board that has the hub already
      obtain ⟨c2, fair, same⟩ := openLeaf_changes (A := A) (ChangesBy.sound c1 hb) he h2
      exact (c1.trans c2).trans (addLeaf_changes he ((same h).trans held) fair predicate)

theorem classify_changes (hb : Sound b) (subject predicate : String) (object : TripleObject)
    (he : ∀ e, (Op.classify subject predicate object).Edits e → E e) :
    ChangesBy A E b (b.classify subject predicate object).1 := by
  cases object with
  | iri name =>
    rw [classify]
    split
    · exact register_changes hb (he _ rfl) subject predicate name
    · exact .refl
  | literal v =>
    rw [classify]
    split
    · rename_i h _ hh
      exact setValues_changes (isHubHeld_of_hub? hh) predicate [v] (he _ rfl)
    · exact .refl

/-! ### Time -/

theorem sample_changes (hp : PlansWithin A b) (l : LeafId) (now : Int) :
    ChangesBy A E b (b.sample l now).1 := by
  unfold sample
  split
  · rename_i m body
    split
    · rename_i m' _
      have h1 : Change A E b _ := .sample l m m' (some b.wall) body
      exact .trans (.single h1) (Moves.changes (refresh_moves (publish_moves A) (h1.plans hp) l))
    · rename_i m' _
      exact .single (.sample l m m' (b.leaf l).updatedAt body)
  · exact .refl

theorem sampleEach_fst (b : Board) (ls : List LeafId) (now : Int) :
    (b.sampleEach ls now).1 = ls.foldl (fun b l => (b.sample l now).1) b := by
  refine (List.foldl_hom Prod.fst ?_).symm
  rintro ⟨b, n⟩ l
  dsimp only
  rcases b.sample l now with ⟨b', raised⟩
  cases raised <;> rfl

theorem foldl_changes {α : Type} {f : Board → α → Board}
    (hf : ∀ b a, PlansWithin A b → ChangesBy A E b (f b a)) (as : List α) (hp : PlansWithin A b) :
    ChangesBy A E b (as.foldl f b) := by
  induction as generalizing b with
  | nil => exact .refl
  | cons a as ih => exact (hf b a hp).trans (ih (ChangesBy.plans (hf b a hp) hp))

theorem sampleEach_changes (hp : PlansWithin A b) (ls : List LeafId) (now : Int) :
    ChangesBy A E b (b.sampleEach ls now).1 := by
  rw [sampleEach_fst]
  exact foldl_changes (fun _ l hp => sample_changes hp l now) ls hp

theorem sampleAll_changes (hp : PlansWithin A b) : ChangesBy A E b b.sampleAll.1 := by
  have h1 : Change A E b _ := .track (b.registry.meters.filter b.isLeafHeld)
  exact .trans (.single h1) (sampleEach_changes (h1.plans hp) _ _)

theorem advance_changes (hp : PlansWithin A b) (nanos : Int) :
    ChangesBy A E b (b.advance nanos) := by
  have h1 : Change A E b _ :=
    .clock (.ofNanos (b.wall.totalNanos + nanos)) (b.now + nanos) b.sampleDue
  unfold advance
  dsimp only
  split
  · split
    · refine .trans (.single h1) (.tail (sampleAll_changes (h1.plans hp)) ?_)
      exact .clock _ _ _
    · exact .single h1
  · exact .single h1

/-! ### Consumers -/

theorem dropReceiver_changes (b : Board) (c : ConsumerId) :
    ChangesBy A E b (b.dropReceiver c).1 := by
  unfold dropReceiver
  split
  · rename_i q is
    exact .single (.hangUp c q is)
  · exact .refl

theorem receive_changes (b : Board) {c : ConsumerId} (he : E (.receive c)) :
    ChangesBy A E b (b.receive c).1 := by
  unfold receive
  split
  · rename_i q is
    split
    · exact .single (.receive c q is he)
    · exact .refl
  · exact .refl

theorem takeNotes_changes (b : Board) (c : ConsumerId) : ChangesBy A E b (b.takeNotes c).1 := by
  unfold takeNotes
  split
  · rename_i o is
    exact .single (.takeNotes c o is)
  · exact .refl

theorem labelConsumer_changes (b : Board) (label : String) (c : ConsumerId) :
    ChangesBy A E b (b.labelConsumer label c) := by
  unfold labelConsumer
  split
  · rename_i old _
    exact (dropReceiver_changes b old.consumer).tail (.labelConsumers _)
  · exact .single (.labelConsumers _)

theorem dropConsumer_changes (b : Board) (label : String) :
    ChangesBy A E b (b.dropConsumer label).1 := by
  unfold dropConsumer
  split
  · exact .single (.labelConsumers _)
  · exact .refl

theorem settle_changes (hp : PlansWithin A b) : ChangesBy A E b b.settle := by
  refine foldl_changes (fun b c hp => ?_) _ hp
  split
  · exact .refl
  · exact close_changes hp c

theorem newConsumer_changes (b : Board) {x : Consumer} (plans : x.PlansWithin A)
    (idle : x.waiting = []) (label : String) :
    ChangesBy A E b ((b.newConsumer x).1.labelConsumer label (b.newConsumer x).2) := by
  have h1 : Change A E b (b.newConsumer x).1 := .newConsumer x plans idle
  exact .trans (.single h1) (labelConsumer_changes _ label _)

theorem foldl_subscribe_changes {hs : List HubId} (held : ∀ h ∈ hs, b.isHubHeld h = true)
    (c : ConsumerId) : ChangesBy A E b (hs.foldl (fun b h => b.subscribe h c) b) := by
  induction hs generalizing b with
  | nil => exact .refl
  | cons h hs ih =>
    have h1 : ChangesBy A E b (b.subscribe h c) :=
      .single (.subscribe h c (held h List.mem_cons_self))
    exact h1.trans (ih fun k hk => held k (List.mem_cons_of_mem h hk))

theorem connect_changes (hp : PlansWithin A b) {targets : List HubId}
    (known : targets.all b.isRegistered = true)
    (capacity : Nat) : ChangesBy A E b (b.connect targets capacity).1 := by
  let x : Consumer := .session { queue := { capacity := max 1 capacity }, targets }
  have hx : x.PlansWithin A := nofun
  have h1 : Change A E b (b.newConsumer x).1 := .newConsumer x hx rfl
  have held : ∀ h ∈ targets, (b.newConsumer x).1.isHubHeld h = true :=
    fun h hh => isHubHeld_of_isRegistered (List.all_eq_true.1 known h hh)
  have h2 : ChangesBy A E b _ :=
    .trans (.single h1) (foldl_subscribe_changes held (b.newConsumer x).2)
  exact h2.trans (count_changes (ChangesBy.plans h2 hp) _ 1)

/-! ### Operations -/

/-- **Every operation on a sound board is a chain of changes**, within the same bound on plans. -/
theorem step_changesBy (hb : Sound b) (hp : PlansWithin A b) {op : Op} (ho : op.PlansWithin A) :
    ChangesBy A op.Edits b (b.step op) := by
  cases op with
  | openHub name =>
    have he : Op.Edits (.openHub name) .register := rfl
    exact orElse_of .refl fun _ _ ho => (openHub_changes he ho).1
  | makeHub label name => exact .single (.makeHub label name rfl)
  | labelHub label h => exact onlyIf_changes fun held => .single (.labelHub label h held)
  | openLeaf name =>
    have he : Op.Edits (.openLeaf name) .register := rfl
    exact orElse_of .refl fun _ _ ho => (openLeaf_changes hb he ho).1
  | makeLeaf label kind name =>
    have he : Op.Edits (.makeLeaf label kind name) .register := rfl
    exact makeLeaf_changes hb he label kind name
  | labelLeaf label l =>
    exact onlyIf_changes fun hl => .single (.labelLeaf label l (hb.fair l hl) rfl)
  | dropLeaf label => exact .single (.dropLeaf label)
  | addLeaf h predicate l =>
    refine onlyIf_changes fun ha => ?_
    have he : Op.Edits (.addLeaf h predicate l) .register := rfl
    obtain ⟨held, known⟩ := Bool.and_eq_true_iff.1 ha
    exact addLeaf_changes he held (hb.fair l known) predicate
  | addMeter label h predicate name =>
    refine onlyIf_changes fun held => ?_
    have he : Op.Edits (.addMeter label h predicate name) .register := rfl
    obtain ⟨h1, fair⟩ := addMeter_changes hb he held predicate name
    exact h1.tail (.labelLeaf label _ fair he)
  | setVolatile h => exact onlyIf_changes fun held => .single (.setVolatile h held)
  | openTransaction kind => exact onlyIf_changes fun _ => openTransaction_changes b kind
  | touch h => exact onlyIf_changes fun held => touch_changes held
  | setValue h predicate v =>
    exact onlyIf_changes fun held => setValues_changes held predicate [v] rfl
  | setValues h predicate vs =>
    exact onlyIf_changes fun held => setValues_changes held predicate vs rfl
  | classify subject predicate object =>
    exact onlyIf_changes fun _ => classify_changes hb subject predicate object fun _ he => he
  | finish => exact finish_changes hp
  | abandon => exact .single (.transact none fun _ h => by cases h)
  | write l vs time => exact onlyIf_changes fun known => .single (.write l vs time known rfl)
  | increment l => exact onlyIf_changes fun _ => count_changes hp l 1
  | decrement l => exact onlyIf_changes fun _ => count_changes hp l (-1)
  | sample l now => exact onlyIf_changes fun _ => sample_changes hp l now
  | sampleAll => exact sampleAll_changes hp
  | update h time => exact onlyIf_changes fun held => publish_changes hp held time
  | formatted h =>
    exact onlyIf_changes fun held => .single (.move (.formatted h held))
  | json h => exact onlyIf_changes fun held => .single (.move (.json h held))
  | observe label noted answers planned =>
    have plans : (Consumer.observer { noted, answers, planned }).PlansWithin A := by
      rintro o ⟨⟩
      exact ho
    exact newConsumer_changes b plans rfl label
  | listen label capacity =>
    have plans : (Consumer.channel { capacity }).PlansWithin A := nofun
    exact newConsumer_changes b plans rfl label
  | connect label targets capacity =>
    exact onlyIf_changes fun known =>
      (connect_changes hp known capacity).trans (labelConsumer_changes _ _ _)
  | subscribe h c =>
    exact onlyIf_changes fun ha => .single (.subscribe h c (Bool.and_eq_true_iff.1 ha).1)
  | unsubscribe h c =>
    exact onlyIf_changes fun ha => .single (.unsubscribe h c (Bool.and_eq_true_iff.1 ha).1)
  | close c => exact onlyIf_changes fun _ => close_changes hp c
  | receive c => exact onlyIf_changes fun _ => receive_changes b rfl
  | takeNotes c => exact onlyIf_changes fun _ => takeNotes_changes b c
  | dropReceiver c => exact onlyIf_changes fun _ => dropReceiver_changes b c
  | dropConsumer label => exact dropConsumer_changes b label
  | settle => exact settle_changes hp
  | advance nanos => exact advance_changes hp nanos
  | setWall t => exact .single (.clock t b.now b.sampleDue)
  | stopSampler => exact .single (.clock b.wall b.now none)

theorem step_changes (hb : Sound b) (op : Op) : Changes b (b.step op) :=
  ChangesBy.all (step_changesBy hb (plansWithin_true b) (op.plansWithin_true))

theorem step_sound (hb : Sound b) (op : Op) : Sound (b.step op) :=
  ChangesBy.sound (step_changes hb op) hb

theorem run_sound (hb : Sound b) (ops : List Op) : Sound (b.run ops) := by
  induction ops generalizing b with
  | nil => exact hb
  | cons op ops ih => exact ih (step_sound hb op)

theorem run_changes (hb : Sound b) (ops : List Op) : Changes b (b.run ops) := by
  induction ops generalizing b with
  | nil => exact .refl
  | cons op ops ih => exact (step_changes hb op).trans (ih (step_sound hb op))

/-- Consumers have planned what operations plan for them. -/
theorem run_plans (hb : Sound b) (hp : PlansWithin A b) {ops : List Op}
    (ho : ∀ op ∈ ops, op.PlansWithin A) : PlansWithin A (b.run ops) := by
  induction ops generalizing b with
  | nil => exact hp
  | cons op ops ih =>
    have hc := step_changesBy hb hp (ho op List.mem_cons_self)
    exact ih (step_sound hb op) (ChangesBy.plans hc hp) fun o hm =>
      ho o (List.mem_cons_of_mem op hm)

/-! ### The start -/

theorem hubId?_system : Name.hubId? (Name.hubName Name.systemId) = some Name.systemId :=
  Name.hubId?_hubName (by decide)

variable (settings : Settings) (wall : Timestamp) (disk : Disk)

/-- The system hub at the start. -/
def systemHub : Hub where
  name := Name.hubName Name.systemId
  table := ((LeafTable.mk Register.empty ⟨0⟩ ⟨1⟩).add Name.connectionsPredicate ⟨2⟩).add
    Name.sendRatePredicate ⟨3⟩
  isVolatile := true
  series := some ⟨Name.hubName Name.systemId, Name.systemId, (disk.openFile Name.systemId).2⟩

/-- The leaves at the start: those of the reserved slots, the counter of open connections and the
meter of sent messages. -/
def systemLeaves : List Leaf :=
  [.scalar Name.Reserved.instant.predicate, .scalar Name.Reserved.datetime.predicate,
    (Leaf.counter Name.connectionsLeaf).attach ⟨0⟩,
    (Leaf.meter Name.sendRateLeaf settings.leastWindow 0).attach ⟨0⟩]

/-- **What a board holds at its start.** -/
theorem start_eq : start settings wall disk =
    { settings, wall
      leaves := ⟨systemLeaves settings⟩
      hubs := ⟨[systemHub disk]⟩
      disk := (disk.openFile Name.systemId).1
      registry :=
        { hubs := Register.empty.put (Name.hubName Name.systemId) ⟨0⟩
          hubsById := Register.empty.put (systemHub disk).id ⟨0⟩
          leaves := (Register.empty.put Name.connectionsLeaf ⟨2⟩).put Name.sendRateLeaf ⟨3⟩
          meters := [⟨3⟩]
          system := ⟨0⟩
          connections := ⟨2⟩
          sendMeter := ⟨3⟩ }
      sampleDue := if settings.startSampler then some settings.sampleInterval else none } := by
  have hn := newHub_true (b := { settings, wall, disk }) (Name.hubName Name.systemId) hubId?_system
  unfold start
  dsimp only
  rw [hn]
  rfl

theorem hub_start (h : HubId) : (start settings wall disk).hub h =
    if h = ⟨0⟩ then systemHub disk else default := by
  rw [start_eq]
  obtain ⟨i⟩ := h
  cases i with
  | zero => rfl
  | succ i => rfl

/-- Nothing has happened at the start. -/
theorem events_start : (start settings wall disk).events = [] := by
  rw [start_eq]
  rfl

theorem isHubHeld_start {h : HubId} (hh : (start settings wall disk).isHubHeld h = true) :
    h = ⟨0⟩ := by
  rw [isHubHeld_iff, start_eq] at hh
  rcases hh with hh | hh | hh | ⟨tx, ht, -⟩
  · exact hh
  · rcases Register.mem_values_put hh with hh | hh
    · exact hh
    · cases hh
  · cases hh
  · cases ht

theorem values_systemHub : (systemHub disk).table.byPredicate.values = [⟨2⟩, ⟨3⟩] := by
  show (((LeafTable.mk Register.empty ⟨0⟩ ⟨1⟩).add Name.connectionsPredicate ⟨2⟩).add
    Name.sendRatePredicate ⟨3⟩).byPredicate.values = _
  decide +kernel

theorem slot_systemHub (r : Name.Reserved) :
    (systemHub disk).table.slot r = ⟨0⟩ ∨ (systemHub disk).table.slot r = ⟨1⟩ := by
  show (((LeafTable.mk Register.empty ⟨0⟩ ⟨1⟩).add Name.connectionsPredicate ⟨2⟩).add
    Name.sendRatePredicate ⟨3⟩).slot r = _ ∨ (((LeafTable.mk Register.empty ⟨0⟩ ⟨1⟩).add
      Name.connectionsPredicate ⟨2⟩).add Name.sendRatePredicate ⟨3⟩).slot r = _
  cases r
  · exact .inl (by decide +kernel)
  · exact .inr (by decide +kernel)

/-- Callers can get at the two leaves with the statistics. -/
theorem isKnownLeaf_start {l : LeafId} (hl : (start settings wall disk).isKnownLeaf l = true) :
    l = ⟨2⟩ ∨ l = ⟨3⟩ := by
  rw [isKnownLeaf_iff] at hl
  rcases hl with hl | ⟨x, hx, -⟩ | ⟨h, hl⟩
  · rw [start_eq] at hl
    rcases Register.mem_values_put hl with hl | hl
    · exact .inr hl
    · rcases Register.mem_values_put hl with hl | hl
      · exact .inl hl
      · cases hl
  · rw [start_eq] at hx
    cases hx
  · rw [hub_start] at hl
    split at hl
    · rw [values_systemHub] at hl
      simpa using hl
    · cases hl

theorem slot_start (h : HubId) (r : Name.Reserved) :
    ((start settings wall disk).hub h).table.slot r = ⟨0⟩ ∨
      ((start settings wall disk).hub h).table.slot r = ⟨1⟩ := by
  rw [hub_start]
  split
  · exact slot_systemHub disk r
  · cases r <;> exact .inl rfl

theorem owner_start {l : LeafId} {h : HubId}
    (ho : ((start settings wall disk).leaf l).owner = some h) : h = ⟨0⟩ ∧ (l = ⟨2⟩ ∨ l = ⟨3⟩) := by
  rw [start_eq] at ho
  obtain ⟨i⟩ := l
  match i with
  | 0 | 1 => cases ho
  | 2 =>
    cases ho
    exact ⟨rfl, .inl rfl⟩
  | 3 =>
    cases ho
    exact ⟨rfl, .inr rfl⟩
  | _ + 4 => cases ho

theorem system_start : (start settings wall disk).registry.system = ⟨0⟩ := by rw [start_eq]

theorem hubs_start : (start settings wall disk).registry.hubs =
    Register.empty.put (Name.hubName Name.systemId) ⟨0⟩ := by rw [start_eq]

theorem leaves_start : (start settings wall disk).leaves.size = 4 := by
  rw [start_eq]
  rfl

theorem named_start {name : String} {h : HubId}
    (hn : (start settings wall disk).registry.hubs.get? name = some h) :
    ((start settings wall disk).hub h).name = name := by
  rw [hubs_start, Register.get?_put] at hn
  split at hn
  · rename_i he
    cases hn
    rw [hub_start, if_pos rfl]
    exact he
  · cases hn

theorem rooms_start (h : HubId) : ∀ l ∈ ((start settings wall disk).hub h).table.leaves,
    l.index < (start settings wall disk).leaves.size := by
  intro l hl
  rw [leaves_start]
  rw [LeafTable.mem_leaves_iff] at hl
  rcases hl with ⟨r, rfl⟩ | hl
  · rcases slot_start settings wall disk h r with e | e <;> rw [e] <;> decide
  · rw [hub_start] at hl
    split at hl
    · rw [values_systemHub] at hl
      rcases List.mem_cons.1 hl with rfl | hl
      · decide
      · rcases List.mem_singleton.1 hl with rfl
        decide
    · cases hl

/-- What is known are the counter and the meter, which are in no slot. -/
theorem fair_start {l : LeafId} (hl : (start settings wall disk).isKnownLeaf l = true) :
    (start settings wall disk).IsFair l := by
  have hl' := isKnownLeaf_start settings wall disk hl
  refine ⟨?_, fun h r hs => ?_⟩
  · rw [leaves_start]
    rcases hl' with rfl | rfl <;> decide
  · rcases slot_start settings wall disk h r with e | e <;> rw [e] at hs <;>
      rcases hl' with rfl | rfl <;> cases hs

theorem hasSeries_start {h : HubId} {s : TimeSeries}
    (hs : ((start settings wall disk).hub h).series = some s) :
    (start settings wall disk).HasSeries h s := by
  rw [hub_start] at hs
  split at hs
  · rename_i hh
    cases hs
    subst hh
    refine ⟨?_, ?_, fun f hf => ?_⟩
    · rw [hub_start, if_pos rfl, hubs_start]
      exact Register.get?_put_self ..
    · rw [hub_start, if_pos rfl]
      exact hubId?_system
    · rw [start_eq]
      exact Disk.names_openFile_self disk hf
  · cases hs

/-- A board is sound at its start. -/
theorem sound_start (hd : disk.Sound) : Sound (start settings wall disk) where
  named _ _ hn := named_start settings wall disk hn
  held h hh := by
    rw [isHubHeld_start settings wall disk hh, start_eq]
    exact Nat.zero_lt_one
  rooms := rooms_start settings wall disk
  fair _ hl := fair_start settings wall disk hl
  slotted h r l hg := by
    rw [hub_start] at hg
    split at hg
    · cases r <;> cases hg
    · cases hg
  owned l h ho := by
    obtain ⟨rfl, hl⟩ := owner_start settings wall disk ho
    rw [hub_start, if_pos rfl, values_systemHub]
    rcases hl with rfl | rfl <;> simp
  once h := by
    rw [hub_start]
    split <;> exact List.nodup_nil
  connections := by
    rw [leaves_start, start_eq]
    show 2 < 4
    decide
  counter := by rw [start_eq]; rfl
  sendMeter := by
    rw [leaves_start, start_eq]
    show 3 < 4
    decide
  meter := by rw [start_eq]; rfl
  system := by rw [hubs_start, system_start, Register.get?_put_self]
  live := by rw [system_start, hub_start, if_pos rfl]; rfl
  series _ _ hs := hasSeries_start settings wall disk hs
  disk := by
    rw [start_eq]
    exact Disk.sound_openFile hd _
  published h s line hm := by
    rw [start_eq] at hm
    cases hm

/-- At the start there are no consumers, and so nothing is planned. -/
theorem plansWithin_start (A : Action → Prop) : PlansWithin A (start settings wall disk) := by
  rw [start_eq]
  intro c o hc p hp
  have ho : (default : Consumer) = .observer o := hc
  cases ho
  cases hp

/-- **Reachable boards are sound.** -/
theorem Reachable.sound (h : Reachable b) : Sound b := by
  obtain ⟨settings, wall, disk, ops, hd, rfl⟩ := h
  exact run_sound (sound_start settings wall disk hd) ops

/-- Operations lead from reachable boards to reachable boards. -/
theorem Reachable.run (h : Reachable b) (ops : List Op) : Reachable (b.run ops) := by
  obtain ⟨settings, wall, disk, ops', hd, rfl⟩ := h
  exact ⟨settings, wall, disk, ops' ++ ops, hd, (run_append _ ops' ops).symm⟩

end Board

end Switchboard
