import Mathlib.Data.List.Nodup
import Switchboard.Proofs.ObservedPublication

/-!
# Commits

A transaction writes to leaves of registered hubs and is finished. If consumers only observe,
finishing publishes each hub that a write has hit, once, as of the time of the transaction, with
the last value that was written to each cell. All other hubs stay as they were.

* `publishAll_observed`: what it does to publish several hubs in turn.
* `written_eq`: what the writes of a transaction leave behind.
* `finish_written`: what they leave behind when their transaction is finished.
* `commit`: what finishing a transaction does.
-/

namespace Switchboard

namespace Board

variable {b b' b'' : Board}

/-! ### Publishing several hubs -/

/-- What became of a hub that was published once: it keeps what it published, its file has one
line more, and each of its consumers was told once, in order. -/
structure PublishedOnce (b b' : Board) (h : HubId) (s : Snapshot) (line : String) : Prop where
  published : published h (news b b') = [(s, line)]
  calls : calls h (news b b') = (b.hub h).consumers
  snapshot : (b'.hub h).snapshot = some s
  formatted : (b'.hub h).formatted = some line
  wrapped : (b'.hub h).wrapped = some ((b.hub h).wrap line)
  file : ∀ f, (b.hub h).file? = some f → b'.disk.content f = b.disk.content f ++ Lines.write line

/-- A hub that nothing happened to. -/
structure Untouched (b b' : Board) (h : HubId) : Prop where
  hub : b'.hub h = b.hub h
  published : published h (news b b') = []
  calls : calls h (news b b') = []
  file : ∀ f, (b.hub h).file? = some f → b'.disk.content f = b.disk.content f

/-- What a hub shows that is published with others: the time, the reserved predicates and the
registered ones, and the values of the cells that are in no reserved slot of these hubs. -/
structure Shows (b : Board) (hs : List HubId) (time : Timestamp) (values : LeafId → List Literal)
    (h : HubId) (s : Snapshot) : Prop where
  takenAt : s.takenAt = time
  predicates : ∀ p, s.values.contains p = true ↔
    (∃ r : Name.Reserved, p = r.predicate) ∨ (b.hub h).table.byPredicate.contains p = true
  cells : ∀ p l, (b.hub h).table.byPredicate.get? p = some l → (b.leaf l).isCell = true →
    (∀ k ∈ hs, (b.hub k).table.isReserved l = false) → s.get? p = some (values l)

theorem sort_ne_meter {l : LeafId} (hc : (b.leaf l).isCell = true) : (b.leaf l).sort ≠ .meter := by
  intro h
  rw [Leaf.isCell, h] at hc
  cases hc

theorem shows_posted (b : Board) {hs : List HubId} {h : HubId} (hh : h ∈ hs) (time : Timestamp) :
    Shows b hs time (fun l => (b.leaf l).values) h (b.posted h time) where
  takenAt := rfl
  predicates p := LeafTable.contains_capture _ _ _ p
  cells p l hl _ hr := by
    have hg := LeafTable.get?_capture hl (b.stamp h time).leaf time
    rw [leaf_stamp_of_not_isReserved b h time (hr h hh)] at hg
    exact hg

/-- One hub out of several is published, and the others after it. -/
theorem PublishedAlone.once {h : HubId} {s : Snapshot} {line : String}
    (hp : PublishedAlone b b' h s line) (hu : Untouched b' b'' h) (hg : b'.events <+: b''.events) :
    PublishedOnce b b'' h s line := by
  obtain ⟨es, he, hpub, hcalls, -⟩ := hp.events
  obtain ⟨gone, hk⟩ := hp.kept
  have hn : news b b'' = es ++ news b' b'' := by
    rw [news_trans ⟨es, he.symm⟩ hg, news_of_events he]
  constructor
  case published => rw [hn, published_append, hpub, hu.published]; rfl
  case calls => rw [hn, calls_append, hcalls, hu.calls, List.append_nil]
  case snapshot => rw [hu.hub, hk]; rfl
  case formatted => rw [hu.hub, hk]; rfl
  case wrapped => rw [hu.hub, hk]; rfl
  case file =>
    intro f hf
    have hf' : (b'.hub h).file? = some f := by rw [hk]; exact hf
    rw [hu.file f hf', hp.disk, Hub.content_logged, if_pos hf]

/-- The publication of one hub does not touch another one. -/
theorem PublishedAlone.untouched (hb : Sound b) {h k : HubId} {s : Snapshot} {line : String}
    (hp : PublishedAlone b b' h s line) (hk : k ≠ h) : Untouched b b' k := by
  obtain ⟨es, he, -, -, hother⟩ := hp.events
  refine ⟨hp.others k hk, ?_, ?_, fun f hf => ?_⟩
  · rw [news_of_events he]
    exact (hother k hk).1
  · rw [news_of_events he]
    exact (hother k hk).2
  · rw [hp.disk, Hub.content_logged, if_neg fun h' => hk (hb.files_apart hf h')]

theorem Untouched.trans {h : HubId} (hu : Untouched b b' h) (hu' : Untouched b' b'' h)
    (hg : b.events <+: b'.events) (hg' : b'.events <+: b''.events) : Untouched b b'' h := by
  refine ⟨hu'.hub.trans hu.hub, ?_, ?_, fun f hf => ?_⟩
  · rw [news_trans hg hg', published_append, hu.published, hu'.published]
    rfl
  · rw [news_trans hg hg', calls_append, hu.calls, hu'.calls]
    rfl
  · rw [hu'.file f (by rw [hu.hub]; exact hf), hu.file f hf]

theorem Untouched.once {h : HubId} {s : Snapshot} {line : String} (hu : Untouched b b' h)
    (hp : PublishedOnce b' b'' h s line) (hg : b.events <+: b'.events)
    (hg' : b'.events <+: b''.events) : PublishedOnce b b'' h s line := by
  refine ⟨?_, ?_, hp.snapshot, hp.formatted, ?_, fun f hf => ?_⟩
  · rw [news_trans hg hg', published_append, hu.published, hp.published]
    rfl
  · rw [news_trans hg hg', calls_append, hu.calls, hp.calls, hu.hub]
    rfl
  · rw [hp.wrapped, hu.hub]
  · rw [hp.file f (by rw [hu.hub]; exact hf), hu.file f hf]

/-- **What it does to publish several hubs** if consumers only observe. -/
theorem publishAll_observed (hb : Sound b) (ho : Observed b) {hs : List HubId} (distinct : hs.Nodup)
    (held : ∀ h ∈ hs, b.isHubHeld h = true) (time : Timestamp) :
    (∀ h ∈ hs, ∃ s, PublishedOnce b (b.publishAll hs time) h s (b.render h s) ∧
      Shows b hs time (fun l => (b.leaf l).values) h s) ∧
    ∀ h, h ∉ hs → Untouched b (b.publishAll hs time) h := by
  induction hs generalizing b with
  | nil =>
    refine ⟨fun h hh => absurd hh List.not_mem_nil, fun h _ => ⟨rfl, ?_, ?_, fun _ _ => rfl⟩⟩
    · rw [publishAll, List.foldl_nil, news_self]
      rfl
    · rw [publishAll, List.foldl_nil, news_self]
      rfl
  | cons h hs ih =>
    obtain ⟨hnot, distinct⟩ := List.nodup_cons.1 distinct
    have hp := publish_observed hb.meter ho h time
    have hm := publish_moves (fun _ => True) b h time (plansWithin_true b)
      (held h List.mem_cons_self)
    have hb' : Sound (b.publish h time) :=
      ChangesBy.sound (Moves.changes (E := fun _ => True) hm) hb
    have held' : ∀ k ∈ hs, (b.publish h time).isHubHeld k = true := by
      intro k hk
      rw [hp.frame.isHubHeld]
      exact held k (List.mem_cons_of_mem h hk)
    have hg : b.events <+: (b.publish h time).events := Moves.grows hm
    have hg' : (b.publish h time).events <+: ((b.publish h time).publishAll hs time).events :=
      Moves.grows (publishAll_moves (plansWithin_true _) held' time)
    -- the others are published after `h`, on a board on which consumers still only observe
    obtain ⟨hin, hout⟩ := ih hb' hp.observed distinct held'
    show (∀ k ∈ h :: hs, ∃ s, PublishedOnce b ((b.publish h time).publishAll hs time) k s _ ∧ _) ∧
      ∀ k, k ∉ h :: hs → Untouched b ((b.publish h time).publishAll hs time) k
    refine ⟨fun k hk => ?_, fun k hk => ?_⟩
    · rcases List.mem_cons.1 hk with rfl | hmem
      · refine ⟨b.posted k time, ?_, shows_posted b List.mem_cons_self time⟩
        rw [← postedLine_eq]
        exact hp.once (hout k hnot) hg'
      · have hne : k ≠ h := by
          rintro rfl
          exact hnot hmem
        obtain ⟨s, hs', hshow⟩ := hin k hmem
        have hu := hp.untouched hb hne
        rw [render_eq hp.frame] at hs'
        refine ⟨s, hu.once hs' hg hg', hshow.takenAt, fun p => ?_, fun p l hl hc hr => ?_⟩
        · rw [hshow.predicates, hu.hub]
        · have hleaf := hp.leaf l (sort_ne_meter hc) (hr h List.mem_cons_self)
          rw [← hleaf]
          refine hshow.cells p l (by rw [hu.hub]; exact hl) ?_ fun j hj => ?_
          · rw [hleaf]
            exact hc
          · rw [(hp.frame.hub j).table]
            exact hr j (List.mem_cons_of_mem h hj)
    · rw [List.mem_cons, not_or] at hk
      exact (hp.untouched hb hk.1).trans (hout k hk.2) hg hg'

end Board

/-! ### The writes of a transaction -/

/-- A write within a transaction: of one value, or of several. -/
inductive WriteCall
  | value (h : HubId) (predicate : String) (v : Literal)
  | values (h : HubId) (predicate : String) (vs : List Literal)

namespace WriteCall

/-- The hub that is written to. -/
def hub : WriteCall → HubId
  | value h _ _ => h
  | values h _ _ => h

/-- The predicate that is written under. -/
def predicate : WriteCall → String
  | value _ p _ => p
  | values _ p _ => p

/-- What is written. -/
def literals : WriteCall → List Literal
  | value _ _ v => [v]
  | values _ _ vs => vs

/-- The call as an operation. -/
def op : WriteCall → Op
  | value h p v => .setValue h p v
  | values h p vs => .setValues h p vs

/-- The leaf that is written to, if the predicate is registered. -/
def leaf? (b : Board) (w : WriteCall) : Option LeafId :=
  (b.hub w.hub).table.byPredicate.get? w.predicate

/-- Whether the predicate is registered. -/
def hits (b : Board) (w : WriteCall) : Bool := (w.leaf? b).isSome

end WriteCall

namespace Board

/-- What is written to a leaf, in order. -/
def writesTo (b : Board) (l : LeafId) (ws : List WriteCall) : List (List Literal) :=
  (ws.filter fun w => w.leaf? b = some l).map WriteCall.literals

/-- The values of a leaf after some writes: what the last of them left, or what was there. -/
def lastWritten (b : Board) (ws : List WriteCall) (time : Timestamp) (l : LeafId) : List Literal :=
  match (b.writesTo l ws).getLast? with
  | some vs => ((b.leaf l).writeAll vs time).values
  | none => (b.leaf l).values

/-- The hubs that are hit, by name in order of the first hit. -/
def touchAll (b : Board) (r : Register HubId) (ws : List WriteCall) : Register HubId :=
  ws.foldl (fun r w => if w.hits b then r.putNew (b.hub w.hub).name w.hub else r) r

variable {b : Board}

theorem step_op {w : WriteCall} (held : b.isHubHeld w.hub = true) :
    b.step w.op = (b.setValues w.hub w.predicate w.literals).1 := by
  cases w with
  | value h p v =>
    show b.onlyIf (b.isHubHeld h) _ = _
    rw [show b.isHubHeld h = true from held, onlyIf_true]
    rfl
  | values h p vs =>
    show b.onlyIf (b.isHubHeld h) _ = _
    rw [show b.isHubHeld h = true from held, onlyIf_true]
    rfl

/-- What one write leaves behind. -/
theorem step_op_eq {tx : Transaction} (ht : b.transaction = some tx) {w : WriteCall}
    (held : b.isHubHeld w.hub = true) : b.step w.op =
    { b with
      leaves := (b.step w.op).leaves
      transaction := some { tx with touched := b.touchAll tx.touched [w] } } ∧
    ∀ l, (b.step w.op).leaf l =
      (b.writesTo l [w]).foldl (fun x vs => x.writeAll vs tx.openedAt) (b.leaf l) := by
  rw [step_op held]
  rcases setValues_cases b w.hub w.predicate w.literals with ⟨tx', k, ht', hk, he⟩ | ⟨hn, he⟩
  · rw [ht] at ht'
    cases ht'
    -- the predicate is registered: the leaf is written and the hub touched
    have hhit : w.hits b = true := by rw [WriteCall.hits, WriteCall.leaf?, hk]; rfl
    rw [he]
    refine ⟨?_, fun l => ?_⟩
    · rw [touchAll, List.foldl_cons, List.foldl_nil, if_pos hhit, touch]
      show { b with
        leaves := _
        transaction := b.transaction.map _ } = _
      rw [ht]
      rfl
    · show (b.modifyLeaf k (·.writeAll w.literals tx.openedAt)).leaf l = _
      rw [leaf_modifyLeaf, writesTo]
      by_cases hl : k = l
      · rw [if_pos hl, List.filter_cons, if_pos (by simp [WriteCall.leaf?, hk, hl]), hl]
        rfl
      · rw [if_neg hl, List.filter_cons, if_neg (by simp [WriteCall.leaf?, hk, hl])]
        rfl
  · have hk : (b.hub w.hub).table.byPredicate.get? w.predicate = none := by
      rcases hn with hn | hn
      · rw [ht] at hn
        cases hn
      · exact hn
    have hmiss : w.hits b = false := by rw [WriteCall.hits, WriteCall.leaf?, hk]; rfl
    rw [he]
    refine ⟨?_, fun l => ?_⟩
    · rw [touchAll, List.foldl_cons, List.foldl_nil, if_neg (by rw [hmiss]; decide), ← ht]
    · rw [writesTo, List.filter_cons, if_neg (by simp [WriteCall.leaf?, hk])]
      rfl

/-- Writes find the same leaves on boards with the same hubs. -/
theorem writesTo_congr {b' : Board} (hh : ∀ h, b'.hub h = b.hub h) (l : LeafId)
    (ws : List WriteCall) : b'.writesTo l ws = b.writesTo l ws := by
  unfold writesTo WriteCall.leaf?
  simp only [hh]

theorem touchAll_congr {b' : Board} (hh : ∀ h, b'.hub h = b.hub h) (r : Register HubId)
    (ws : List WriteCall) : b'.touchAll r ws = b.touchAll r ws := by
  unfold touchAll WriteCall.hits WriteCall.leaf?
  simp only [hh]

/-- **What the writes of a transaction leave behind**: nothing but leaves and the hubs that were
hit. -/
theorem written_eq {tx : Transaction} (ht : b.transaction = some tx) {ws : List WriteCall}
    (held : ∀ w ∈ ws, b.isRegistered w.hub = true) :
    b.run (ws.map WriteCall.op) =
    { b with
      leaves := (b.run (ws.map WriteCall.op)).leaves
      transaction := some { tx with touched := b.touchAll tx.touched ws } } ∧
    ∀ l, (b.run (ws.map WriteCall.op)).leaf l =
      (b.writesTo l ws).foldl (fun x vs => x.writeAll vs tx.openedAt) (b.leaf l) := by
  induction ws generalizing b tx with
  | nil =>
    refine ⟨?_, fun l => rfl⟩
    show b = { b with transaction := some tx }
    rw [← ht]
  | cons w ws ih =>
    obtain ⟨he, hl⟩ := step_op_eq ht (isHubHeld_of_isRegistered (held w List.mem_cons_self))
    rw [List.map_cons, run_cons]
    generalize hb' : b.step w.op = b' at he hl
    have hh : ∀ h, b'.hub h = b.hub h := by
      intro h
      rw [he]
      rfl
    have ht' : b'.transaction = some { tx with touched := b.touchAll tx.touched [w] } := by rw [he]
    have held' : ∀ v ∈ ws, b'.isRegistered v.hub = true := by
      intro v hv
      rw [he]
      exact held v (List.mem_cons_of_mem w hv)
    obtain ⟨he', hl'⟩ := ih ht' held'
    refine ⟨?_, fun l => ?_⟩
    · rw [touchAll_congr hh] at he'
      rw [he', he]
      rfl
    · rw [hl', hl, writesTo_congr hh, ← List.foldl_append]
      unfold writesTo
      rw [← List.map_append, ← List.filter_append]
      rfl

theorem touchAll_cons (b : Board) (r : Register HubId) (w : WriteCall) (ws : List WriteCall) :
    b.touchAll r (w :: ws) =
      b.touchAll (if w.hits b then r.putNew (b.hub w.hub).name w.hub else r) ws := rfl

theorem alike_foldl_writeAll (x : Leaf) (ws : List (List Literal)) (time : Timestamp) :
    Leaf.Alike x (ws.foldl (fun x vs => x.writeAll vs time) x) := by
  induction ws generalizing x with
  | nil => exact .refl x
  | cons vs ws ih => exact (Leaf.alike_writeAll x vs time).trans (ih _)

/-! ### The last write -/

/-- What is written to a cell does not depend on what was there. -/
theorem values_writeAll_writeAll {x : Leaf} (hx : x.isCell = true) (vs ws : List Literal)
    (time : Timestamp) : ((x.writeAll vs time).writeAll ws time).values =
      (x.writeAll ws time).values := by
  obtain ⟨name, body, updatedAt, owner⟩ := x
  cases body with
  | scalar v => rfl
  | array v => rfl
  | counter n => cases hx
  | meter m => cases hx

/-- **The last write to a cell counts.** -/
theorem values_foldl_writeAll {x : Leaf} (hx : x.isCell = true) (ws : List (List Literal))
    (time : Timestamp) : (ws.foldl (fun x vs => x.writeAll vs time) x).values =
      match ws.getLast? with
      | some vs => (x.writeAll vs time).values
      | none => x.values := by
  induction ws generalizing x with
  | nil => rfl
  | cons vs ws ih =>
    have hx' : (x.writeAll vs time).isCell = true := by
      rw [(Leaf.alike_writeAll x vs time).isCell]
      exact hx
    rw [List.foldl_cons, ih hx']
    cases ws with
    | nil => rfl
    | cons us ws =>
      rw [List.getLast?_cons_cons]
      cases hl : (us :: ws).getLast? with
      | none => simp at hl
      | some last => exact values_writeAll_writeAll hx vs last time

/-! ### The hubs that are hit -/

/-- The hubs of a register go by their own names, and are registered. -/
def NamesHubs (b : Board) (r : Register HubId) : Prop :=
  ∀ name h, r.get? name = some h →
    (b.hub h).name = name ∧ b.registry.hubs.get? name = some h

theorem NamesHubs.nodup {r : Register HubId} (hr : NamesHubs b r) : r.values.Nodup := by
  -- hubs go by the names under which they stand, and no name stands twice
  have hk : r.values.map (fun h => (b.hub h).name) = r.keys := by
    rw [Register.values, List.map_map]
    refine List.map_congr_left fun e he => ?_
    exact (hr e.1 e.2 (Register.get?_eq_some_iff.2 he)).1
  refine List.Nodup.of_map (fun h => (b.hub h).name) ?_
  rw [hk]
  exact r.nodup_keys

/-- A registered hub is found by its name. -/
theorem get?_of_isRegistered (hb : Sound b) {h : HubId} (hr : b.isRegistered h = true) :
    b.registry.hubs.get? (b.hub h).name = some h := by
  rw [isRegistered, List.contains_iff_mem] at hr
  obtain ⟨e, he, rfl⟩ := List.mem_map.1 hr
  have hg : b.registry.hubs.get? e.1 = some e.2 := Register.get?_eq_some_iff.2 he
  rw [hb.named e.1 e.2 hg]
  exact hg

/-- A registered hub is put into a register under its own name, unless it is there. -/
theorem NamesHubs.putNew {r : Register HubId} (hr : NamesHubs b r) {h : HubId}
    (registered : b.registry.hubs.get? (b.hub h).name = some h) :
    NamesHubs b (r.putNew (b.hub h).name h) ∧
      ∀ k, k ∈ (r.putNew (b.hub h).name h).values ↔ k = h ∨ k ∈ r.values := by
  rw [Register.putNew]
  split
  · rename_i hc
    obtain ⟨j, hj⟩ := Option.isSome_iff_exists.1 hc
    -- names lead to one hub only, so what is there under the name is this hub
    have hjh := (hr _ j hj).2
    rw [registered] at hjh
    cases hjh
    refine ⟨hr, fun k => ⟨.inr, ?_⟩⟩
    rintro (rfl | hk)
    · exact Register.mem_values_of_get? hj
    · exact hk
  · rename_i hc
    rw [Bool.not_eq_true] at hc
    refine ⟨fun name k hg => ?_, fun k => Register.mem_values_put_of_free _ hc⟩
    rw [Register.get?_put] at hg
    split at hg
    · rename_i hn
      cases hg
      exact ⟨hn, hn ▸ registered⟩
    · exact hr name k hg

/-- **The hubs that are touched are those that a write hits.** -/
theorem touchAll_spec (hb : Sound b) {r : Register HubId} (hr : NamesHubs b r) {ws : List WriteCall}
    (known : ∀ w ∈ ws, b.isRegistered w.hub = true) : NamesHubs b (b.touchAll r ws) ∧
      ∀ h, h ∈ (b.touchAll r ws).values ↔
        h ∈ r.values ∨ ∃ w ∈ ws, w.hub = h ∧ w.hits b = true := by
  induction ws generalizing r with
  | nil => exact ⟨hr, fun h => by simp [touchAll]⟩
  | cons w ws ih =>
    have known' : ∀ v ∈ ws, b.isRegistered v.hub = true :=
      fun v hv => known v (List.mem_cons_of_mem w hv)
    rw [touchAll_cons]
    split
    · rename_i hhit
      obtain ⟨hput, hvalues⟩ := hr.putNew (get?_of_isRegistered hb (known w List.mem_cons_self))
      obtain ⟨h1, h2⟩ := ih hput known'
      refine ⟨h1, fun h => ?_⟩
      rw [h2, hvalues, List.exists_mem_cons_iff]
      constructor
      · rintro ((rfl | hh) | hh)
        · exact .inr (.inl ⟨rfl, hhit⟩)
        · exact .inl hh
        · exact .inr (.inr hh)
      · rintro (hh | ⟨rfl, -⟩ | hh)
        · exact .inl (.inr hh)
        · exact .inl (.inl rfl)
        · exact .inr hh
    · rename_i hmiss
      obtain ⟨h1, h2⟩ := ih hr known'
      refine ⟨h1, fun h => ?_⟩
      rw [h2, List.exists_mem_cons_iff]
      constructor
      · rintro (hh | hh)
        · exact .inl hh
        · exact .inr (.inr hh)
      · rintro (hh | ⟨-, hh⟩ | hh)
        · exact .inl hh
        · exact absurd hh hmiss
        · exact .inr hh

/-! ### Leaves when several hubs are published -/

/-- **Publishing hubs leaves leaves alone** that are in none of their slots and no meters. -/
theorem leaf_publishAll (hb : Sound b) (ho : Observed b) {hs : List HubId}
    (held : ∀ h ∈ hs, b.isHubHeld h = true) (time : Timestamp) {l : LeafId}
    (hl : (b.leaf l).sort ≠ .meter) (hr : ∀ k ∈ hs, (b.hub k).table.isReserved l = false) :
    (b.publishAll hs time).leaf l = b.leaf l := by
  induction hs generalizing b with
  | nil => rfl
  | cons h hs ih =>
    have hp := publish_observed hb.meter ho h time
    have hm := publish_moves (fun _ => True) b h time (plansWithin_true b)
      (held h List.mem_cons_self)
    have hleaf := hp.leaf l hl (hr h List.mem_cons_self)
    rw [← hleaf]
    refine ih (Moves.sound hm hb) hp.observed (fun k hk => ?_) (by rwa [hleaf]) fun k hk => ?_
    · rw [hp.frame.isHubHeld]
      exact held k (List.mem_cons_of_mem h hk)
    · rw [(hp.frame.hub k).table]
      exact hr k (List.mem_cons_of_mem h hk)

/-! ### A transaction that writes and ends -/

section Written

variable {tx : Transaction} (ht : b.transaction = some tx) {ws : List WriteCall}
variable (known : ∀ w ∈ ws, b.isRegistered w.hub = true)
include ht known

theorem hub_written (h : HubId) : (b.run (ws.map WriteCall.op)).hub h = b.hub h := by
  rw [(written_eq ht known).1]
  rfl

theorem events_written : (b.run (ws.map WriteCall.op)).events = b.events := by
  rw [(written_eq ht known).1]
  rfl

theorem alike_written (l : LeafId) :
    Leaf.Alike (b.leaf l) ((b.run (ws.map WriteCall.op)).leaf l) := by
  rw [(written_eq ht known).2]
  exact alike_foldl_writeAll _ _ _

/-- No write publishes anything. -/
theorem untouched_written (h : HubId) : Untouched b (b.run (ws.map WriteCall.op)) h := by
  have hn : news b (b.run (ws.map WriteCall.op)) = [] :=
    news_of_events (by rw [events_written ht known, List.append_nil])
  refine ⟨hub_written ht known h, by rw [hn]; rfl, by rw [hn]; rfl, fun f _ => ?_⟩
  rw [(written_eq ht known).1]

end Written

/-- What became of a board when the writes of a transaction were finished: some hubs were
published, and nothing happened to the others. Cells hold what was written to them. -/
structure Finished (b b' : Board) (hs : List HubId) (ws : List WriteCall) (time : Timestamp) :
    Prop where
  shown : ∀ h ∈ hs, ∃ s, PublishedOnce b b' h s (b.render h s) ∧
    Shows b hs time (b.lastWritten ws time) h s
  cells : ∀ l, (b.leaf l).isCell = true → (∀ k ∈ hs, (b.hub k).table.isReserved l = false) →
    b'.leaf l = (b.writesTo l ws).foldl (fun x vs => x.writeAll vs time) (b.leaf l)
  untouched : ∀ h, h ∉ hs → Untouched b b' h

/-- **What writes leave behind** when their transaction is finished: the hubs that were hit are
counted and published. -/
theorem finish_written (hb : Sound b) (ho : Observed b) {time : Timestamp} {kind : UpdateKind}
    (ht : b.transaction = some ⟨time, kind, Register.empty⟩) {ws : List WriteCall}
    (known : ∀ w ∈ ws, b.isRegistered w.hub = true) :
    ∃ hs : List HubId, hs.Nodup ∧ (∀ h, h ∈ hs ↔ ∃ w ∈ ws, w.hub = h ∧ w.hits b = true) ∧
      (b.run (ws.map WriteCall.op)).finish.2 = hs.length ∧
      Finished b (b.run (ws.map WriteCall.op)).finish.1 hs ws time := by
  obtain ⟨he, hl⟩ := written_eq ht known
  have hh := hub_written ht known
  have halike := alike_written ht known
  have hsame := untouched_written ht known
  have hg : b.events <+: (b.run (ws.map WriteCall.op)).events :=
    events_written ht known ▸ List.prefix_rfl
  have hs1 : Sound (b.run (ws.map WriteCall.op)) := run_sound hb _
  have ho1 : Observed (b.run (ws.map WriteCall.op)) := fun c => by rw [he]; exact ho c
  obtain ⟨hnamed, hmem⟩ := touchAll_spec (r := Register.empty) hb (fun _ _ hn => by cases hn) known
  have ht1 : (b.run (ws.map WriteCall.op)).transaction =
      some ⟨time, kind, b.touchAll Register.empty ws⟩ := by rw [he]
  generalize b.run (ws.map WriteCall.op) = b1 at *
  generalize b.touchAll Register.empty ws = r at *
  -- the touched hubs are published in turn
  have hheld : ∀ h ∈ r.values, b1.isHubHeld h = true := fun h hh => isHubHeld_of_touched ht1 hh
  have hg' : b1.events <+: (b1.publishAll r.values time).events :=
    Moves.grows (publishAll_moves (plansWithin_true b1) hheld time)
  obtain ⟨hin, hout⟩ := publishAll_observed hs1 ho1 hnamed.nodup hheld time
  rw [finish_eq ht1]
  refine ⟨r.values, hnamed.nodup, fun h => ?_, rfl, fun h hm => ?_, fun l hc hr => ?_,
    fun h hm => ?_⟩
  · rw [hmem]
    simp [Register.values, Register.empty]
  · obtain ⟨s, hp, hshow⟩ := hin h hm
    rw [render_congr (congrArg Hub.table (hh h)) halike] at hp
    have hp' := (hsame h).once hp hg hg'
    refine ⟨s, ⟨hp'.published, hp'.calls, hp'.snapshot, hp'.formatted, hp'.wrapped, hp'.file⟩,
      hshow.takenAt, fun p => ?_, fun p l hpl hc hr => ?_⟩
    · rw [hshow.predicates, hh]
    · have hc' : (b1.leaf l).isCell = true := (halike l).isCell.trans hc
      rw [hshow.cells p l (by rw [hh]; exact hpl) hc' fun k hk => by rw [hh]; exact hr k hk, hl]
      exact congrArg some (values_foldl_writeAll hc (b.writesTo l ws) time)
  · have hsort : (b1.leaf l).sort ≠ .meter := sort_ne_meter ((halike l).isCell.trans hc)
    have hkept := leaf_publishAll hs1 ho1 hheld time hsort fun k hk => by rw [hh]; exact hr k hk
    exact hkept.trans (hl l)
  · have hu := (hsame h).trans (hout h hm) hg hg'
    exact ⟨hu.hub, hu.published, hu.calls, hu.file⟩

/-! ### Finishing -/

/-- The operations of a transaction, but for its end. -/
def writeOps (kind : UpdateKind) (ws : List WriteCall) : List Op :=
  .openTransaction kind :: ws.map WriteCall.op

/-- **What finishing a transaction does**, on every reachable board on which consumers only
observe. The hubs that a write has hit are counted. Each of them is published once: it shows the
time at which the transaction was opened, the reserved and the registered predicates, and in every
cell that is in no reserved slot the last value that was written to it. Its file has one line more
and each of its consumers was told once. Nothing happened to any other hub. -/
theorem commit (hb : Reachable b) (free : b.transaction = none) (kind : UpdateKind)
    (ws : List WriteCall) (known : ∀ w ∈ ws, b.isRegistered w.hub = true) (ho : Observed b) :
    ∃ hs : List HubId, hs.Nodup ∧ (∀ h, h ∈ hs ↔ ∃ w ∈ ws, w.hub = h ∧ w.hits b = true) ∧
      (b.run (writeOps kind ws)).finish.2 = hs.length ∧
      (∀ h ∈ hs, (b.hub h).consumers.Nodup ∧
        ∃ s, PublishedOnce b (b.run (writeOps kind ws)).finish.1 h s (b.render h s) ∧
          Shows b hs b.wall (b.lastWritten ws b.wall) h s) ∧
      ∀ h, h ∉ hs → Untouched b (b.run (writeOps kind ws)).finish.1 h := by
  have hopen : b.step (.openTransaction kind) = b.openTransaction kind := by
    show b.onlyIf b.transaction.isNone _ = _
    rw [free]
    rfl
  have hs1 : Sound (b.openTransaction kind) := hopen ▸ step_sound hb.sound _
  -- with the open transaction the board has the same hubs, leaves and events as before
  obtain ⟨hs, hn, hmem, hcount, hf⟩ := finish_written (b := b.openTransaction kind) hs1 ho rfl known
  rw [writeOps, run_cons, hopen]
  refine ⟨hs, hn, hmem, hcount, fun h hh => ⟨hb.sound.once h, ?_⟩, fun h hh => ?_⟩
  · obtain ⟨s, hp, hshow⟩ := hf.shown h hh
    exact ⟨s, ⟨hp.published, hp.calls, hp.snapshot, hp.formatted, hp.wrapped, hp.file⟩,
      hshow.takenAt, hshow.predicates, hshow.cells⟩
  · have hu := hf.untouched h hh
    exact ⟨hu.hub, hu.published, hu.calls, hu.file⟩

/-- Two hubs that share a leaf, and a channel on the first of them. -/
def sharedLeaf : Board :=
  (start {} default {}).run
    [.openHub (Name.hubName "r"), .openHub (Name.hubName "s"), .makeLeaf "v" .scalar "v",
      .makeLeaf "w" .array "w", .addLeaf ⟨1⟩ "http://x/v" ⟨8⟩, .addLeaf ⟨2⟩ "http://x/v" ⟨8⟩,
      .addLeaf ⟨2⟩ "http://x/w" ⟨9⟩, .listen "c" 4, .subscribe ⟨1⟩ ⟨0⟩]

/-- Writes to both hubs in turn, one of them under an unknown predicate. -/
def sharedWrites : List WriteCall :=
  [.value ⟨1⟩ "http://x/v" (.int 1), .values ⟨2⟩ "http://x/w" [.int 2, .int 3],
    .value ⟨1⟩ "http://x/u" (.int 4), .value ⟨2⟩ "http://x/v" (.int 5)]

/-- Both hubs are published, and both show what was written to the leaf last. -/
theorem commit_sharedLeaf : sharedLeaf.transaction = none ∧
    (∀ w ∈ sharedWrites, sharedLeaf.isRegistered w.hub = true) ∧ Observed sharedLeaf ∧
    sharedLeaf.lastWritten sharedWrites sharedLeaf.wall ⟨8⟩ = [.int 5] ∧
    ∃ hs : List HubId, hs.Nodup ∧
      (∀ h, h ∈ hs ↔ ∃ w ∈ sharedWrites, w.hub = h ∧ w.hits sharedLeaf = true) ∧
      (sharedLeaf.run (writeOps .batch sharedWrites)).finish.2 = hs.length ∧
      (∀ h ∈ hs, (sharedLeaf.hub h).consumers.Nodup ∧
        ∃ s, PublishedOnce sharedLeaf (sharedLeaf.run (writeOps .batch sharedWrites)).finish.1 h s
            (sharedLeaf.render h s) ∧
          Shows sharedLeaf hs sharedLeaf.wall
            (sharedLeaf.lastWritten sharedWrites sharedLeaf.wall) h s) ∧
      ∀ h, h ∉ hs →
        Untouched sharedLeaf (sharedLeaf.run (writeOps .batch sharedWrites)).finish.1 h := by
  have hr : Reachable sharedLeaf := ⟨{}, default, {}, _, Disk.sound_empty, rfl⟩
  have free : sharedLeaf.transaction = none := by decide +kernel
  have known : ∀ w ∈ sharedWrites, sharedLeaf.isRegistered w.hub = true := by decide +kernel
  have ho : Observed sharedLeaf := by decide +kernel
  exact ⟨free, known, ho, by decide +kernel, commit hr free .batch sharedWrites known ho⟩

end Board

end Switchboard
