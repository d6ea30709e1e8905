import Switchboard.Proofs.Registration

/-!
# What is published of open transactions

A write within a transaction takes effect at once, and a hub can be published at any time: by a
counter or a meter that moves, and by hand. So a publication shows for each cell what transactions
wrote to it last, whether they are finished, open or abandoned. It shows what finished ones left
exactly if this is the same.

A ledger keeps apart what was written and what of it is settled. It follows from the operations
alone, and from where leaves are registered.

* `step_accounts`: the cells show what the ledger says was written last.
* `published_shows_latest`: so does every publication of a run.
-/

namespace Switchboard

/-- What transactions wrote to the cells: last of all, last of those that are finished, and last of
the open one. Nothing written is the same as no values. -/
structure Ledger where
  latest : LeafId → List Literal := fun _ => []
  settled : LeafId → List Literal := fun _ => []
  pending : LeafId → Option (List Literal) := fun _ => none

namespace Ledger

/-- The open transaction writes to a cell. -/
def write (L : Ledger) (l : LeafId) (vs : List Literal) : Ledger :=
  { L with
    latest := fun k => if l = k then vs else L.latest k
    pending := fun k => if l = k then some vs else L.pending k }

/-- The open transaction writes to a cell, or does not. -/
def book (L : Ledger) : Option (LeafId × List Literal) → Ledger
  | some (l, vs) => L.write l vs
  | none => L

/-- The open transaction is finished. -/
def settle (L : Ledger) : Ledger :=
  { L with
    settled := fun l => (L.pending l).getD (L.settled l)
    pending := fun _ => none }

/-- The open transaction is abandoned. -/
def abandon (L : Ledger) : Ledger := { L with pending := fun _ => none }

end Ledger

/-- Whether an operation writes leaves within transactions only, now and later. -/
def Op.transacts : Op → Bool
  | .write .. => false
  | .observe _ _ _ planned => planned.all fun p => !p.2.isSet
  | _ => true

theorem Op.plansWithin_of_transacts {op : Op} (ho : op.transacts = true) :
    op.PlansWithin fun a => a.isSet = false := by
  cases op with
  | observe label noted answers planned =>
    intro p hp
    have := List.all_eq_true.1 ho p hp
    rwa [Bool.not_eq_true'] at this
  | _ => trivial

namespace Board

/-- The leaf that a predicate of a hub leads to, if a transaction is open. -/
def target? (b : Board) (h : HubId) (predicate : String) : Option LeafId :=
  if b.transaction.isSome then (b.hub h).table.byPredicate.get? predicate else none

/-- The leaf that an operation writes within the open transaction, and what it writes. -/
def written? (b : Board) : Op → Option (LeafId × List Literal)
  | .setValue h predicate v =>
    if b.isHubHeld h then (b.target? h predicate).map (·, [v]) else none
  | .setValues h predicate vs =>
    if b.isHubHeld h then (b.target? h predicate).map (·, vs) else none
  | .classify subject predicate (.literal v) =>
    match Name.hubId? subject, b.hub? subject with
    | some _, some h => (b.target? h predicate).map (·, [v])
    | _, _ => none
  | _ => none

/-- The ledger after an operation. -/
def account (b : Board) (L : Ledger) : Op → Ledger
  | .finish => L.settle
  | .abandon => L.abandon
  | op => L.book (b.written? op)

/-- The ledger after operations. -/
def ledger (b : Board) (L : Ledger) : List Op → Ledger
  | [] => L
  | op :: ops => (b.step op).ledger (b.account L op) ops

variable {b b' : Board} {L : Ledger}

theorem ledger_append (b : Board) (L : Ledger) (ops : List Op) (op : Op) :
    b.ledger L (ops ++ [op]) = (b.run ops).account (b.ledger L ops) op := by
  induction ops generalizing b L with
  | nil => rfl
  | cons o ops ih => exact ih (b.step o) (b.account L o)

/-! ### Writes -/

/-- What a write to a predicate does. -/
theorem setValues_target (b : Board) (h : HubId) (predicate : String) (vs : List Literal) :
    (b.target? h predicate = none ∧ (b.setValues h predicate vs).1 = b) ∨
      ∃ l time, b.target? h predicate = some l ∧ b.isKnownLeaf l = true ∧
        (b.setValues h predicate vs).1 = (b.modifyLeaf l (·.writeAll vs time)).touch h := by
  unfold target?
  rcases setValues_cases b h predicate vs with ⟨tx, l, ht, hl, he⟩ | ⟨hn, he⟩ <;> rw [he]
  · right
    rw [ht]
    exact ⟨l, tx.openedAt, hl, isKnownLeaf_of_get? hl, rfl⟩
  · left
    refine ⟨?_, rfl⟩
    rcases hn with hn | hn
    · rw [hn]
      rfl
    · rw [hn, ite_self]

/-- **An operation that writes** does nothing, or writes one leaf within the open transaction. -/
theorem step_written (b : Board) {op : Op} (he : op.edit? = some .write)
    (ho : op.transacts = true) : (b.written? op = none ∧ b.step op = b) ∨
      ∃ l vs time h, b.written? op = some (l, vs) ∧ b.isKnownLeaf l = true ∧
        b.step op = (b.modifyLeaf l (·.writeAll vs time)).touch h := by
  -- the three writing operations come down to `setValues`
  have hset : ∀ h predicate vs, (((b.target? h predicate).map (·, vs) = none ∧
      (b.setValues h predicate vs).1 = b) ∨ ∃ l ws time k,
        (b.target? h predicate).map (·, vs) = some (l, ws) ∧ b.isKnownLeaf l = true ∧
          (b.setValues h predicate vs).1 = (b.modifyLeaf l (·.writeAll ws time)).touch k) := by
    intro h predicate vs
    rcases b.setValues_target h predicate vs with ⟨hn, hs⟩ | ⟨l, time, hl, hk, hs⟩
    · exact .inl ⟨by rw [hn]; rfl, hs⟩
    · exact .inr ⟨l, vs, time, h, by rw [hl]; rfl, hk, hs⟩
  cases op with
  | setValue h predicate v =>
    rw [step, written?, onlyIf]
    split
    · exact hset h predicate [v]
    · exact .inl ⟨rfl, rfl⟩
  | setValues h predicate vs =>
    rw [step, written?, onlyIf]
    split
    · exact hset h predicate vs
    · exact .inl ⟨rfl, rfl⟩
  | classify subject predicate object =>
    cases object with
    | iri name => cases he
    | literal v =>
      rw [step, written?]
      -- without an open transaction the operation is left out, and there is no target
      cases ht : b.transaction.isSome with
      | false =>
        left
        refine ⟨?_, rfl⟩
        split
        · rw [target?, ht]
          rfl
        · rfl
      | true =>
        rw [onlyIf_true, classify]
        rcases Name.hubId? subject with _ | id
        · exact .inl ⟨rfl, rfl⟩
        · rcases b.hub? subject with _ | h
          · exact .inl ⟨rfl, rfl⟩
          · exact hset h predicate [v]
  | write l vs time => cases ho
  | _ => cases he

/-! ### The cells show what was written last -/

/-- Whether the cells show what the ledger says was written last. -/
structure Accounts (b : Board) (L : Ledger) : Prop where
  shown : ∀ l, b.isKnownLeaf l = true → b.IsOpenCell l →
    (b.leaf l).values = (b.leaf l).shown (L.latest l)
  fresh : ∀ l, b.leaves.size ≤ l.index → L.latest l = []

theorem Accounts.of_keepsCells (ha : b.Accounts L) (hs : KeepsCells b b') : b'.Accounts L where
  shown l hk ho := by
    have ho' := hs.isOpenCell.1 ho
    rw [hs.values l ho', (hs.leaf l).shown]
    exact ha.shown l (hs.known l hk) ho'
  fresh l hl := ha.fresh l (Nat.le_trans hs.leafCount hl)

theorem Accounts.of_onlyRegisters (ha : b.Accounts L) (hb : Sound b) (hb' : Sound b')
    (hx : OnlyRegisters b b') : b'.Accounts L where
  shown l hk ho := by
    rcases hx.openCell hb hb' hk ho with ⟨hk1, ho1, hbody⟩ | ⟨hl, hv⟩
    · obtain ⟨-, hvals, hshown⟩ := OnlyRegisters.of_body hbody
      rw [hvals, hshown]
      exact ha.shown l hk1 ho1
    · rw [ha.fresh l hl]
      exact hv
  fresh l hl := ha.fresh l (Nat.le_trans hx.size hl)

theorem Accounts.write (ha : b.Accounts L) (hb : Sound b) {l : LeafId}
    (hl : b.isKnownLeaf l = true) (vs : List Literal) (time : Timestamp) (h : HubId) :
    ((b.modifyLeaf l (·.writeAll vs time)).touch h).Accounts (L.write l vs) := by
  have hf := Frame.writeLeaf b l vs time
  have hroom := (hb.fair l hl).room
  have hleaf : ∀ k, ((b.modifyLeaf l (·.writeAll vs time)).touch h).leaf k =
      if l = k then (b.leaf l).writeAll vs time else b.leaf k :=
    fun k => leaf_modifyLeaf b l k (·.writeAll vs time)
  have hsize : ((b.modifyLeaf l (·.writeAll vs time)).touch h).leaves.size = b.leaves.size := by
    show (b.leaves.put l.index _).size = _
    rw [Store.size_put]
    omega
  have halike : ∀ k, Leaf.Alike (b.leaf k)
      (((b.modifyLeaf l (·.writeAll vs time)).touch h).leaf k) := hf.leaf
  constructor
  case shown =>
    intro k hk ho
    have ho' : b.IsOpenCell k := by
      refine ⟨?_, ho.unslotted⟩
      rw [← (halike k).isCell]
      exact ho.cell
    rw [(halike k).shown, hleaf]
    show _ = (b.leaf k).shown (if l = k then vs else L.latest k)
    split
    · rename_i hlk
      subst hlk
      exact Leaf.values_writeAll ho'.cell vs time
    · exact ha.shown k hk ho'
  case fresh =>
    intro k hk
    rw [hsize] at hk
    have hne : l ≠ k := by
      rintro rfl
      omega
    show (if l = k then vs else L.latest k) = []
    rw [if_neg hne]
    exact ha.fresh k hk

/-- No operation but a write within a transaction changes what was written last. -/
theorem latest_account (b : Board) (L : Ledger) {op : Op} (hw : b.written? op = none) :
    (b.account L op).latest = L.latest := by
  have hbook : (L.book (b.written? op)).latest = L.latest := by rw [hw]; rfl
  cases op with
  | finish | abandon => rfl
  | _ => exact hbook

theorem written?_of_edit? {op : Op} (he : op.edit? ≠ some .write) : b.written? op = none := by
  cases op with
  | setValue h p v => exact absurd rfl he
  | setValues h p vs => exact absurd rfl he
  | classify s p object =>
    cases object with
    | literal v => exact absurd rfl he
    | iri name => rfl
  | _ => rfl

theorem Accounts.congr {M : Ledger} (ha : b.Accounts L) (hM : M.latest = L.latest) :
    b.Accounts M where
  shown l hk ho := by rw [hM]; exact ha.shown l hk ho
  fresh l hl := by rw [hM]; exact ha.fresh l hl

/-- **The cells show what was written last**, and so does all that an operation publishes. -/
theorem step_accounts (hb : Sound b) (hp : PlansWithin (fun a => a.isSet = false) b) {op : Op}
    (ho : op.transacts = true) (ha : b.Accounts L) : (b.step op).Accounts (b.account L op) ∧
      ∀ h s line, Event.published h s line ∈ news b (b.step op) → (b.step op).Tells h s line := by
  have hquiet : (b.step op).journal = b.journal →
      ∀ h s line, Event.published h s line ∈ news b (b.step op) → (b.step op).Tells h s line := by
    intro hj h s line he
    rw [news_of_events (by rw [events_of_journal_eq hj, List.append_nil])] at he
    cases he
  by_cases hr : op.edit? = some .register
  · have hx := step_onlyRegisters hb hr
    have hw : b.written? op = none := written?_of_edit? (by rw [hr]; exact nofun)
    exact ⟨(ha.of_onlyRegisters hb (step_sound hb op) hx).congr (latest_account b L hw),
      hquiet hx.journal⟩
  by_cases he : op.edit? = some .write
  · rcases b.step_written he ho with ⟨hw, hs⟩ | ⟨l, vs, time, h, hw, hl, hs⟩
    · refine ⟨?_, hquiet (by rw [hs])⟩
      rw [hs]
      exact ha.congr (latest_account b L hw)
    · have hbook : L.book (b.written? op) = L.write l vs := by rw [hw]; rfl
      have hacc : b.account L op = L.write l vs := by
        cases op with
        | finish | abandon => cases he
        | _ => exact hbook
      refine ⟨?_, hquiet (by rw [hs]; rfl)⟩
      rw [hs, hacc]
      exact ha.write hb hl vs time h
  · obtain ⟨hs, ht⟩ := step_keepsCells hb hp (Op.plansWithin_of_transacts ho) hr he
    exact ⟨(ha.of_keepsCells hs).congr (latest_account b L (written?_of_edit? he)), ht⟩

/-! ### Runs -/

/-- What a run of operations that write within transactions only keeps. -/
structure Booked (b : Board) (L : Ledger) : Prop where
  sound : Sound b
  plans : PlansWithin (fun a => a.isSet = false) b
  accounts : b.Accounts L

theorem Booked.step (hb : b.Booked L) {op : Op} (ho : op.transacts = true) :
    (b.step op).Booked (b.account L op) where
  sound := step_sound hb.sound op
  plans := ChangesBy.plans (step_changesBy hb.sound hb.plans (Op.plansWithin_of_transacts ho))
    hb.plans
  accounts := (step_accounts hb.sound hb.plans ho hb.accounts).1

theorem Booked.run (hb : b.Booked L) {ops : List Op} (ho : ∀ op ∈ ops, op.transacts = true) :
    (b.run ops).Booked (b.ledger L ops) := by
  induction ops generalizing b L with
  | nil => exact hb
  | cons op ops ih =>
    exact ih (hb.step (ho op List.mem_cons_self)) fun o h => ho o (List.mem_cons_of_mem op h)

section Start

variable (settings : Settings) (wall : Timestamp) {disk : Disk}

/-- At the start nothing is written: the two leaves that are known are no cells. -/
theorem booked_start (hd : disk.Sound) : (start settings wall disk).Booked {} := by
  refine ⟨sound_start settings wall disk hd, plansWithin_start settings wall disk _,
    ⟨fun l hk ho => ?_, fun _ _ => rfl⟩⟩
  have hc := ho.cell
  rw [start_eq] at hc
  rcases isKnownLeaf_start settings wall disk hk with rfl | rfl <;> cases hc

end Start

/-- What a publication shows of the open cells of its hub, and when that is what finished
transactions left. -/
structure ShowsLatest (b : Board) (L : Ledger) (h : HubId) (s : Snapshot) (line : String) :
    Prop where
  line : line = b.render h s
  latest : ∀ p l, (b.hub h).table.byPredicate.get? p = some l → b.IsOpenCell l →
    s.get? p = some ((b.leaf l).shown (L.latest l))
  settled : ∀ p l, (b.hub h).table.byPredicate.get? p = some l → b.IsOpenCell l →
    (s.get? p = some ((b.leaf l).shown (L.settled l)) ↔
      (b.leaf l).shown (L.latest l) = (b.leaf l).shown (L.settled l))

theorem Tells.showsLatest {h : HubId} {s : Snapshot} {line : String} (ht : b.Tells h s line)
    (ha : b.Accounts L) : b.ShowsLatest L h s line := by
  have hlatest : ∀ p l, (b.hub h).table.byPredicate.get? p = some l → b.IsOpenCell l →
      s.get? p = some ((b.leaf l).shown (L.latest l)) := by
    intro p l hl ho
    rw [ht.cells p l hl ho, ha.shown l (isKnownLeaf_of_get? hl) ho]
  refine ⟨ht.line, hlatest, fun p l hl ho => ?_⟩
  rw [hlatest p l hl ho, Option.some.injEq]

/-- From the start on, the snapshot of a hub is what it published last. -/
theorem snapshot_of_changes {settings : Settings} {wall : Timestamp} {disk : Disk}
    (hc : Changes (start settings wall disk) b) (h : HubId) :
    (b.hub h).snapshot = (published h b.events).getLast?.map Prod.fst := by
  refine ChangesBy.snapshot hc ?_
  rw [start_eq]
  obtain ⟨i⟩ := h
  cases i <;> rfl

/-- **A publication shows what was written last**, by whichever transaction, and so what finished
ones left exactly if that is the same. The snapshot of a hub is its last publication. -/
theorem published_shows_latest (settings : Settings) (wall : Timestamp) {disk : Disk}
    (hd : disk.Sound) {ops : List Op} (ho : ∀ op ∈ ops, op.transacts = true) (h : HubId) :
    let b := start settings wall disk
    (∀ before op after, ops = before ++ op :: after → ∀ s line,
      Event.published h s line ∈ news (b.run before) (b.run (before ++ [op])) →
        (b.run (before ++ [op])).ShowsLatest (b.ledger {} (before ++ [op])) h s line) ∧
    ((b.run ops).hub h).snapshot = (published h (b.run ops).events).getLast?.map Prod.fst := by
  intro b
  have hb := booked_start settings wall hd
  refine ⟨fun before op after hops s line he => ?_, ?_⟩
  · have hbefore : ∀ o ∈ before, o.transacts = true := by
      intro o hm
      refine ho o ?_
      rw [hops]
      exact List.mem_append_left _ hm
    have hop : op.transacts = true := by
      refine ho op ?_
      rw [hops]
      exact List.mem_append_right _ List.mem_cons_self
    have hmid := hb.run hbefore
    rw [run_append, run_cons, run_nil] at he
    rw [ledger_append, run_append, run_cons, run_nil]
    obtain ⟨ha, ht⟩ := step_accounts hmid.sound hmid.plans hop hmid.accounts
    exact (ht h s line he).showsLatest ha
  · exact snapshot_of_changes (run_changes hb.sound ops) h

/-- A hub with a scalar and a counter. A transaction writes the scalar, the counter moves, the
transaction is abandoned, and the counter moves again. -/
def abandonedRun : List Op :=
  [.openHub (Name.hubName "r"), .makeLeaf "v" .scalar "v", .makeLeaf "n" .counter "n",
    .addLeaf ⟨1⟩ "http://x/v" ⟨6⟩, .addLeaf ⟨1⟩ "http://x/n" ⟨7⟩, .openTransaction .batch,
    .setValue ⟨1⟩ "http://x/v" (.int 1), .increment ⟨7⟩, .abandon, .increment ⟨7⟩]

/-- What was written and never finished is published, before the transaction is abandoned and
after. -/
theorem published_shows_latest_abandonedRun :
    let b := start {} default {}
    (∀ op ∈ abandonedRun, op.transacts = true) ∧
    (((b.run (abandonedRun.take 8)).hub ⟨1⟩).snapshot.bind (·.get? "http://x/v") =
      some [.int 1]) ∧
    (((b.run abandonedRun).hub ⟨1⟩).snapshot.bind (·.get? "http://x/v") = some [.int 1]) ∧
    (published ⟨1⟩ (b.run abandonedRun).events).length = 2 ∧
    (b.ledger {} abandonedRun).latest ⟨6⟩ = [.int 1] ∧
    (b.ledger {} abandonedRun).settled ⟨6⟩ = [] ∧
    (∀ before op after, abandonedRun = before ++ op :: after → ∀ s line,
      Event.published ⟨1⟩ s line ∈ news (b.run before) (b.run (before ++ [op])) →
        (b.run (before ++ [op])).ShowsLatest (b.ledger {} (before ++ [op])) ⟨1⟩ s line) ∧
    ((b.run abandonedRun).hub ⟨1⟩).snapshot =
      (published ⟨1⟩ (b.run abandonedRun).events).getLast?.map Prod.fst := by
  have ho : ∀ op ∈ abandonedRun, op.transacts = true := by decide +kernel
  exact ⟨ho, by decide +kernel, by decide +kernel, by decide +kernel, by decide +kernel,
    by decide +kernel, published_shows_latest {} default Disk.sound_empty ho ⟨1⟩⟩

end Board

end Switchboard
