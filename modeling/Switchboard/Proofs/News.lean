import Switchboard.Proofs.Reachable

/-!
# What happened in between

The journal of a board only grows, so what happened between two boards of a run is a list of
events, and the lists of two consecutive runs are joined. `published`, `lines`, `calls` and
`messages` are what such a list says about one hub or one consumer.

* `news_trans`: the news of consecutive runs are joined.
* `ChangesBy.snapshot`: the snapshot of a hub is what it published last.
-/

namespace Switchboard

/-- What a hub published, and as which line. -/
def published (h : HubId) (es : List Event) : List (Snapshot × String) :=
  es.filterMap fun
    | .published k s line => if k = h then some (s, line) else none
    | _ => none

/-- The lines that a hub published. -/
def lines (h : HubId) (es : List Event) : List String := (published h es).map Prod.snd

/-- The consumers that were told of a hub, in order. -/
def calls (h : HubId) (es : List Event) : List ConsumerId :=
  es.filterMap fun
    | .informed c k _ => if k = h then some c else none
    | _ => none

/-- The messages about a hub that the queue of a consumer accepted. -/
def messages (c : ConsumerId) (h : HubId) (es : List Event) : List String :=
  es.filterMap fun
    | .queued d k text => if d = c ∧ k = h then some text else none
    | _ => none

section Append

variable (c : ConsumerId) (h : HubId) (es fs : List Event)

@[simp] theorem published_append : published h (es ++ fs) = published h es ++ published h fs :=
  List.filterMap_append

@[simp] theorem lines_append : lines h (es ++ fs) = lines h es ++ lines h fs := by
  rw [lines, published_append, List.map_append]
  rfl

@[simp] theorem calls_append : calls h (es ++ fs) = calls h es ++ calls h fs :=
  List.filterMap_append

@[simp] theorem messages_append : messages c h (es ++ fs) = messages c h es ++ messages c h fs :=
  List.filterMap_append

end Append

theorem published_one (h k : HubId) (s : Snapshot) (line : String) :
    published h [.published k s line] = if k = h then [(s, line)] else [] := by
  unfold published
  split
  · rename_i hk
    simp [hk]
  · rename_i hk
    simp [hk]

theorem mem_published {h : HubId} {es : List Event} {s : Snapshot} {line : String} :
    (s, line) ∈ published h es ↔ Event.published h s line ∈ es := by
  rw [published, List.mem_filterMap]
  constructor
  · rintro ⟨e, he, hs⟩
    split at hs
    · split at hs
      · rename_i hk
        cases hs
        rwa [hk] at he
      · cases hs
    · cases hs
  · exact fun he => ⟨_, he, if_pos rfl⟩

/-- Events that are no publications publish nothing. -/
theorem published_of_quiet (h : HubId) {es : List Event}
    (hq : ∀ e ∈ es, e.publication? = none) : published h es = [] := by
  rw [published, List.filterMap_eq_nil_iff]
  intro e he
  have := hq e he
  cases e with
  | published k s line => cases this
  | _ => rfl

namespace Board

variable {A : Action → Prop} {E : Edit → Prop} {b b' b'' : Board}

theorem events_note (b : Board) (e : Event) : (b.note e).events = b.events ++ [e] :=
  List.reverse_cons

theorem events_of_journal {es : List Event} (h : b'.journal = es ++ b.journal) :
    b'.events = b.events ++ es.reverse := by
  rw [events, h, List.reverse_append]
  rfl

theorem events_of_journal_eq (h : b'.journal = b.journal) : b'.events = b.events := by
  rw [events, h]
  rfl

theorem events_post (b : Board) (h : HubId) (time : Timestamp) : (b.post h time).events =
    b.events ++ [.published h (b.posted h time) (b.postedLine h time)] := by
  rw [events, journal_post, List.reverse_cons]
  rfl

theorem news_of_events {es : List Event} (h : b'.events = b.events ++ es) : news b b' = es := by
  rw [news, h, List.drop_left]

theorem news_post (b : Board) (h : HubId) (time : Timestamp) : news b (b.post h time) =
    [.published h (b.posted h time) (b.postedLine h time)] :=
  news_of_events (events_post b h time)

/-- Everything that happened is news since the start. -/
theorem news_start (settings : Settings) (wall : Timestamp) (disk : Disk) (b : Board) :
    news (start settings wall disk) b = b.events :=
  news_of_events (by rw [events_start, List.nil_append])

@[simp] theorem news_self (b : Board) : news b b = [] :=
  news_of_events (List.append_nil _).symm

/-- What happened, appended to what had happened before. -/
theorem events_eq_news (h : b.events <+: b'.events) : b'.events = b.events ++ news b b' := by
  obtain ⟨es, he⟩ := h
  rw [news_of_events he.symm, he]

/-- **The news of consecutive runs are joined.** -/
theorem news_trans (h : b.events <+: b'.events) (h' : b'.events <+: b''.events) :
    news b b'' = news b b' ++ news b' b'' := by
  apply news_of_events
  rw [← List.append_assoc, ← events_eq_news h, ← events_eq_news h']

/-- A journal only grows. -/
theorem Move.grows (h : Move A b b') : b.events <+: b'.events := by
  rcases h.post_or_quiet with ⟨k, time, -, rfl⟩ | ⟨-, es, he, -⟩
  · exact ⟨_, (events_post b k time).symm⟩
  · exact ⟨_, (events_of_journal he).symm⟩

theorem Moves.grows (h : Moves A b b') : b.events <+: b'.events := by
  induction h with
  | refl => exact List.prefix_rfl
  | tail _ hm ih => exact ih.trans hm.grows

theorem journal_newHub (b : Board) (name : String) (withHistory : Bool) :
    (b.newHub name withHistory).1.journal = b.journal := rfl

theorem journal_addLeaf (b : Board) (h : HubId) (predicate : String) (l : LeafId) :
    (b.addLeaf h predicate l).1.journal = b.journal := by
  unfold addLeaf
  split <;> rfl

theorem disk_addLeaf (b : Board) (h : HubId) (predicate : String) (l : LeafId) :
    (b.addLeaf h predicate l).1.disk = b.disk := by
  unfold addLeaf
  split <;> rfl

/-- Apart from moves, no change is noted in the journal or writes to a file. -/
theorem Change.move_or_quiet (h : Change A E b b') : Move A b b' ∨
    b'.journal = b.journal ∧ ∀ f, b'.disk.content f = b.disk.content f := by
  cases h with
  | move m => exact .inl m
  | openHub name id legal _ _ =>
    refine .inr ⟨journal_newHub b name true, fun f => ?_⟩
    rw [newHub_true name legal]
    exact Disk.content_openFile b.disk id f
  | makeHub label name _ =>
    refine .inr ⟨journal_newHub b name false, fun f => ?_⟩
    rw [newHub_false]
    rfl
  | addLeaf h predicate l _ _ _ _ =>
    refine .inr ⟨journal_addLeaf b h predicate l, fun f => ?_⟩
    rw [disk_addLeaf]
  | _ => exact .inr ⟨rfl, fun _ => rfl⟩

/-- A change posts a hub that is held, or publishes nothing. -/
theorem Change.post_or_quiet (hc : Change A E b b') :
    (∃ k time, b.isHubHeld k = true ∧ b' = b.post k time) ∨
      ∀ e ∈ news b b', e.publication? = none := by
  rcases hc.move_or_quiet with m | ⟨hj, -⟩
  · rcases m.post_or_quiet with ⟨k, time, held, he⟩ | ⟨-, es, he, hq⟩
    · exact .inl ⟨k, time, held, he⟩
    · refine .inr fun e hm => ?_
      rw [news_of_events (events_of_journal he), List.mem_reverse] at hm
      exact hq e hm
  · refine .inr fun e hm => ?_
    rw [news_of_events (by rw [events_of_journal_eq hj, List.append_nil])] at hm
    cases hm

/-- **What a change publishes is what a posting shows.** -/
theorem Change.of_published (hc : Change A E b b') {h : HubId} {s : Snapshot} {line : String}
    (he : .published h s line ∈ news b b') : ∃ time, b.isHubHeld h = true ∧ b' = b.post h time ∧
      s = b.posted h time ∧ line = b.postedLine h time := by
  rcases hc.post_or_quiet with ⟨k, time, held, rfl⟩ | hq
  · rw [news_post, List.mem_singleton] at he
    cases he
    exact ⟨time, held, rfl, rfl, rfl⟩
  · exact absurd (hq _ he) (by simp [Event.publication?])

theorem Change.grows (h : Change A E b b') : b.events <+: b'.events := by
  rcases h.move_or_quiet with m | ⟨hj, -⟩
  · exact m.grows
  · exact events_of_journal_eq hj ▸ List.prefix_rfl

theorem ChangesBy.grows (h : ChangesBy A E b b') : b.events <+: b'.events := by
  induction h with
  | refl => exact List.prefix_rfl
  | tail _ hm ih => exact ih.trans hm.grows

/-- **What a chain of changes publishes is what a posting on the way shows.** -/
theorem ChangesBy.of_published (hc : ChangesBy A E b b') {h : HubId} {s : Snapshot} {line : String}
    (he : .published h s line ∈ news b b') : ∃ c time, ChangesBy A E b c ∧ c.isHubHeld h = true ∧
      s = c.posted h time ∧ line = c.postedLine h time := by
  induction hc with
  | refl =>
    rw [news_self] at he
    cases he
  | @tail c d hcs hc ih =>
    rw [news_trans (ChangesBy.grows hcs) hc.grows, List.mem_append] at he
    rcases he with he | he
    · exact ih he
    · obtain ⟨time, held, -, hs, hl⟩ := hc.of_published he
      exact ⟨c, time, hcs, held, hs, hl⟩

theorem step_grows (hb : Sound b) (op : Op) : b.events <+: (b.step op).events :=
  ChangesBy.grows (step_changes hb op)

/-! ### The present snapshot -/

theorem snapshot_modifyHub {k : HubId} {f : Hub → Hub}
    (hf : (f (b.hub k)).snapshot = (b.hub k).snapshot) (h : HubId) :
    ((b.modifyHub k f).hub h).snapshot = (b.hub h).snapshot := by
  rw [hub_modifyHub]
  split
  · rename_i hk
    subst hk
    exact hf
  · rfl

theorem snapshot_formatted (b : Board) (k h : HubId) :
    ((b.formatted k).1.hub h).snapshot = (b.hub h).snapshot := by
  rcases b.formatted_fst k with e | ⟨-, -, e⟩ <;> rw [e]
  exact snapshot_modifyHub rfl h

theorem snapshot_json (b : Board) (k h : HubId) :
    ((b.json k).1.hub h).snapshot = (b.hub h).snapshot := by
  rcases b.json_fst k with e | ⟨-, -, e⟩ <;> rw [e]
  rw [snapshot_modifyHub rfl]
  exact snapshot_formatted b k h

/-- A move posts a hub, or leaves all snapshots as they are. -/
theorem Move.snapshot (hm : Move A b b') :
    (∃ k time, b' = b.post k time) ∨ ∀ h, (b'.hub h).snapshot = (b.hub h).snapshot := by
  cases hm with
  | post k time _ => exact .inl ⟨k, time, rfl⟩
  | subscribe _ _ k c _ _ =>
    refine .inr (snapshot_modifyHub ?_)
    unfold Hub.subscribe
    split <;> rfl
  | unsubscribe _ _ k c _ _ => exact .inr (snapshot_modifyHub rfl)
  | leave k gone _ => exact .inr (snapshot_modifyHub rfl)
  | formatted k _ => exact .inr (snapshot_formatted b k)
  | json k _ => exact .inr (snapshot_json b k)
  | _ => exact .inr fun _ => rfl

theorem Change.snapshot (hc : Change A E b b') :
    (∃ k time, b' = b.post k time) ∨ ∀ h, (b'.hub h).snapshot = (b.hub h).snapshot := by
  -- a new hub has no snapshot, and neither has the default that stood in its place
  have hnew : ∀ {c : Board} {name : String} {disk : Disk} {series : Option TimeSeries},
      c.hubs = (b.addHub name disk series).hubs → ∀ h, (c.hub h).snapshot = (b.hub h).snapshot := by
    intro c name disk series hh h
    have he : c.hub h = (b.addHub name disk series).hub h := by rw [hub, hh]; rfl
    rw [he, hub_addHub]
    split
    · rename_i hi
      rw [hub_of_size_le (Nat.le_of_eq hi)]
      rfl
    · rfl
  cases hc with
  | move m => exact m.snapshot
  | openHub name id legal _ _ =>
    rw [newHub_true name legal]
    exact .inr (@hnew _ name (b.disk.openFile id).1 _ rfl)
  | makeHub label name _ =>
    rw [newHub_false]
    exact .inr (@hnew _ name b.disk none rfl)
  | addLeaf k predicate l _ _ free _ =>
    rw [addLeaf_fst free]
    exact .inr fun h => snapshot_modifyHub rfl h
  | setVolatile k _ => exact .inr (snapshot_modifyHub rfl)
  | subscribe k c _ =>
    refine .inr (snapshot_modifyHub ?_)
    unfold Hub.subscribe
    split <;> rfl
  | unsubscribe k c _ => exact .inr (snapshot_modifyHub rfl)
  | _ => exact .inr fun _ => rfl

/-- A change posts a hub, or publishes nothing and leaves all snapshots as they are. -/
theorem Change.post_or_keeps (hc : Change A E b b') : (∃ k time, b' = b.post k time) ∨
    (∀ h, (b'.hub h).snapshot = (b.hub h).snapshot) ∧ ∀ h, published h (news b b') = [] := by
  rcases hc.snapshot with hp | hs
  · exact .inl hp
  · rcases hc.post_or_quiet with ⟨k, time, -, rfl⟩ | hq
    · exact .inl ⟨k, time, rfl⟩
    · exact .inr ⟨hs, fun h => published_of_quiet h hq⟩

/-- **The snapshot of a hub is what it published last.** -/
theorem ChangesBy.snapshot (hc : ChangesBy A E b b') {h : HubId}
    (hb : (b.hub h).snapshot = (published h b.events).getLast?.map Prod.fst) :
    (b'.hub h).snapshot = (published h b'.events).getLast?.map Prod.fst := by
  induction hc with
  | refl => exact hb
  | @tail c d _ hc ih =>
    rcases hc.post_or_keeps with ⟨k, time, rfl⟩ | ⟨hs, hn⟩
    · rw [events_post, published_append, published_one, hub_post]
      split
      -- the posted hub has its new snapshot, which stands last in the journal
      · rw [List.getLast?_concat]
        rfl
      · rw [List.append_nil]
        exact ih
    · rw [hs, ih, events_eq_news hc.grows, published_append, hn, List.append_nil]

end Board

end Switchboard
