import Switchboard.Proofs.SessionTally
import Switchboard.Proofs.Depth
import Switchboard.Proofs.Peak
import Switchboard.Proofs.Stamps

/-!
# Sampling meters

A meter is counted, written and sampled by callers, by sessions and by planned actions, and it is
written when a hub is stamped that has it in a reserved slot. `Board.Lives` says in which order all
this happened between two boards. A sample that raises the peak publishes the hub that owns the
meter; what that brings about comes after the sample.

To sample a meter again at the same instant closes a window of no length, so the second time does
nothing, unless the meter has counted in between.

* `Lives.body`: what a meter lives through makes it what it is.
* `run_lives`: what callers do to it.
* `sample_eq`, `sample_lives`: what a sample does to its meter, and when something is published.
* `sampleEach_once`: a meter that is tracked several times.
-/

namespace Switchboard

namespace Board

variable {A : Action → Prop} {b b' b'' : Board} {l k : LeafId} {m : Meter} {h : HubId}
variable {acts acts' : List Meter.Act} {now : Int}

/-! ### What a meter lives through -/

/-- A board on which a meter was sampled, before anything is published. -/
def sampled (b : Board) (l : LeafId) (now : Int) : Board :=
  match (b.leaf l).body with
  | .meter m => b.modifyLeaf l fun x =>
    { x with
      body := .meter (m.sample now).1
      updatedAt := if (m.sample now).2 then some b.wall else x.updatedAt }
  | _ => b

/-- **What a meter lives through** between two boards, in order. Whoever counts, writes or samples
it, and whatever else happens that leaves its content alone. What a sample brings about by
publishing a hub comes after the sample itself. -/
inductive Lives (l : LeafId) : Board → List Meter.Act → Board → Prop
  | idle {b b' : Board} (same : (b'.leaf l).body = (b.leaf l).body) : Lives l b [] b'
  | count (b : Board) (nested : Board → HubId → Timestamp → Board) (steps : Int) :
    Lives l b [.count steps] (b.countWith nested l steps).1
  | write (b : Board) (vs : List Literal) (time : Timestamp) :
    Lives l b [.write] (b.modifyLeaf l (·.writeAll vs time))
  | sample {b : Board} {now : Int} {acts : List Meter.Act}
    (during : Lives l (b.sampled l now) acts (b.sample l now).1) :
    Lives l b (.sample now :: acts) (b.sample l now).1
  | trans {b b' b'' : Board} {acts acts' : List Meter.Act} (first : Lives l b acts b')
    (second : Lives l b' acts' b'') : Lives l b (acts ++ acts') b''

theorem leaf_sampled (body : (b.leaf l).body = .meter m) (now : Int) (k : LeafId) :
    (b.sampled l now).leaf k =
      if l = k then { b.leaf l with
        body := .meter (m.sample now).1
        updatedAt := if (m.sample now).2 then some b.wall else (b.leaf l).updatedAt }
      else b.leaf k := by
  rw [sampled, body]
  exact leaf_modifyLeaf b l k _

theorem body_sampled (body : (b.leaf l).body = .meter m) (now : Int) :
    ((b.sampled l now).leaf l).body = .meter (m.sample now).1 := by
  rw [leaf_sampled body, if_pos rfl]

/-- **A sample publishes the owner of its meter exactly if it raised the peak**, and says so. -/
theorem sample_eq (body : (b.leaf l).body = .meter m) (now : Int) :
    b.sample l now = if (m.sample now).2 then ((b.sampled l now).refresh publish l, true)
      else (b.sampled l now, false) := by
  rw [sample, sampled, body]
  dsimp only
  rcases m.sample now with ⟨m', raised⟩
  cases raised <;> rfl

/-- **What a meter lives through makes it what it is.** -/
theorem Lives.body (hl : Lives l b acts b') (body : (b.leaf l).body = .meter m) :
    (b'.leaf l).body = .meter (m.replay acts) := by
  induction hl generalizing m with
  | idle same => exact same.trans body
  | count b nested steps =>
    rw [countWith, body]
    dsimp only
    rw [leaf_modifyLeaf, if_pos rfl]
    rfl
  | write b vs time =>
    rw [leaf_modifyLeaf, if_pos rfl, Leaf.writeAll, body]
    rfl
  | sample during ih => exact ih (body_sampled body _)
  | trans first second ih ih' =>
    rw [Meter.replay_append]
    exact ih' (ih body)

/-! ### Publications do not sample -/

/-- A meter lives through a stretch without samples. -/
def LivesUnsampled (l : LeafId) (b b' : Board) : Prop :=
  ∃ acts, Lives l b acts b' ∧ ∀ a ∈ acts, a.isSample = false

theorem LivesUnsampled.idle (same : (b'.leaf l).body = (b.leaf l).body) : LivesUnsampled l b b' :=
  ⟨[], .idle same, nofun⟩

theorem LivesUnsampled.trans (hl : LivesUnsampled l b b') (hl' : LivesUnsampled l b' b'') :
    LivesUnsampled l b b'' := by
  obtain ⟨acts, first, hu⟩ := hl
  obtain ⟨acts', second, hu'⟩ := hl'
  refine ⟨acts ++ acts', first.trans second, fun a ha => ?_⟩
  exact (List.mem_append.1 ha).elim (hu a) (hu' a)

/-- A leaf is written, which may be the meter. -/
theorem livesUnsampled_write (b : Board) (l k : LeafId) (vs : List Literal) (time : Timestamp) :
    LivesUnsampled l b (b.modifyLeaf k (·.writeAll vs time)) := by
  by_cases hk : k = l
  · subst hk
    exact ⟨[.write], .write b vs time, by simp [Meter.Act.isSample]⟩
  · refine .idle ?_
    rw [leaf_modifyLeaf, if_neg hk]

/-- **Publications count and write a meter, but do not sample it.** -/
theorem Move.livesUnsampled (hm : Move A b b') (body : (b.leaf l).body = .meter m) :
    LivesUnsampled l b b' := by
  cases hm with
  | post h time _ =>
    -- both reserved slots are written, and then nothing else happens to a leaf
    have hstamp : LivesUnsampled l b (b.stamp h time) :=
      (livesUnsampled_write b l _ [instantOf time] time).trans
        (livesUnsampled_write _ l _ [datetimeOf time] time)
    exact hstamp.trans (.idle (congrArg Leaf.body (leaf_post b h time l)))
  | count k n steps counter =>
    refine .idle ?_
    rw [leaf_modifyLeaf, if_neg]
    rintro rfl
    rw [body] at counter
    cases counter
  | tick k m' steps body' =>
    by_cases hk : k = l
    · subst hk
      have hc : (b.countWith publish k steps).1 = b.modifyLeaf k fun x =>
          { x with body := .meter { m' with count := m'.count + steps } } := by
        rw [countWith, body']
      refine ⟨[.count steps], ?_, by simp [Meter.Act.isSample]⟩
      rw [← hc]
      exact .count b publish steps
    · refine .idle ?_
      rw [leaf_modifyLeaf, if_neg hk]
  | write label v x _ _ => exact livesUnsampled_write b l x.leaf [v] b.wall
  | formatted h _ => exact .idle (congrArg Leaf.body (leaf_formatted b h l))
  | json h _ => exact .idle (congrArg Leaf.body (leaf_json b h l))
  | _ => exact .idle rfl

theorem Moves.livesUnsampled (hm : Moves A b b') (body : (b.leaf l).body = .meter m) :
    LivesUnsampled l b b' := by
  induction hm with
  | refl => exact .idle rfl
  | tail _ hm ih =>
    obtain ⟨acts, hl, hu⟩ := ih
    exact LivesUnsampled.trans ⟨acts, hl, hu⟩ (hm.livesUnsampled (hl.body body))

theorem refresh_livesUnsampled (body : (b.leaf l).body = .meter m) (k : LeafId) :
    LivesUnsampled l b (b.refresh publish k) :=
  Moves.livesUnsampled (refresh_moves (publish_moves _) (plansWithin_true b) k) body

/-- What a sample brings about does not sample the meter again. -/
theorem livesUnsampled_sampled (body : (b.leaf l).body = .meter m) (now : Int) :
    LivesUnsampled l (b.sampled l now) (b.sample l now).1 := by
  rw [sample_eq body]
  split
  · exact refresh_livesUnsampled (body_sampled body now) l
  · exact .idle rfl

/-- **A sample, and then what it brings about.** -/
theorem sample_lives (body : (b.leaf l).body = .meter m) (now : Int) :
    ∃ acts, Lives l b (.sample now :: acts) (b.sample l now).1 ∧ ∀ a ∈ acts,
      a.isSample = false := by
  obtain ⟨acts, hl, hu⟩ := livesUnsampled_sampled body now
  exact ⟨acts, .sample hl, hu⟩

/-- **What callers do to a meter**: each operation on it is one act, and a sample may bring about
more. -/
theorem step_lives (known : b.isKnownLeaf l = true) (body : (b.leaf l).body = .meter m) :
    Lives l b [.count 1] (b.step (.increment l)) ∧ Lives l b [.count (-1)] (b.step (.decrement l)) ∧
      (∀ vs time, Lives l b [.write] (b.step (.write l vs time))) ∧
      ∀ now, ∃ acts, Lives l b (.sample now :: acts) (b.step (.sample l now)) ∧
        ∀ a ∈ acts, a.isSample = false := by
  have hon : ∀ c : Board, b.onlyIf (b.isKnownLeaf l) c = c := by
    intro c
    rw [known, onlyIf_true]
  refine ⟨?_, ?_, fun vs time => ?_, fun now => ?_⟩ <;> rw [step, hon]
  · exact .count b publish 1
  · exact .count b publish (-1)
  · exact .write b vs time
  · exact sample_lives body now

/-- What callers can do to a meter. -/
inductive Operates (l : LeafId) : Op → Meter.Act → Prop
  | increment : Operates l (.increment l) (.count 1)
  | decrement : Operates l (.decrement l) (.count (-1))
  | write (vs : List Literal) (time : Timestamp) : Operates l (.write l vs time) .write
  | sample (now : Int) : Operates l (.sample l now) (.sample now)

/-- An operation on a meter is one act, and if it is a sample it may bring about more, which are no
samples. -/
theorem Operates.lives {op : Op} {a : Meter.Act} (ho : Operates l op a)
    (known : b.isKnownLeaf l = true) (body : (b.leaf l).body = .meter m) :
    ∃ brought, Lives l b (a :: brought) (b.step op) ∧ (∀ x ∈ brought, x.isSample = false) ∧
      (a.isSample = false → brought = []) := by
  obtain ⟨hincrement, hdecrement, hwrite, hsample⟩ := step_lives known body
  cases ho with
  | increment => exact ⟨[], hincrement, nofun, fun _ => rfl⟩
  | decrement => exact ⟨[], hdecrement, nofun, fun _ => rfl⟩
  | write vs time => exact ⟨[], hwrite vs time, nofun, fun _ => rfl⟩
  | sample now =>
    obtain ⟨brought, hl, hu⟩ := hsample now
    exact ⟨brought, hl, hu, nofun⟩

/-- Callers can still get at a meter after they did something to it. -/
theorem Operates.known {op : Op} {a : Meter.Act} (ho : Operates l op a)
    (known : b.isKnownLeaf l = true) (body : (b.leaf l).body = .meter m) :
    (b.step op).isKnownLeaf l = true := by
  have hon : ∀ c : Board, b.onlyIf (b.isKnownLeaf l) c = c := by
    intro c
    rw [known, onlyIf_true]
  have hcount : ∀ steps, (b.count l steps).1.isKnownLeaf l = true := by
    intro steps
    rw [count, countWith, body]
    exact known
  have hsampled : ∀ now, (b.sampled l now).isKnownLeaf l = true := by
    intro now
    rw [sampled, body]
    exact known
  cases ho with
  | increment => exact (congrArg (isKnownLeaf · l) (hon _)).trans (hcount 1)
  | decrement => exact (congrArg (isKnownLeaf · l) (hon _)).trans (hcount (-1))
  | write vs time => exact (congrArg (isKnownLeaf · l) (hon _)).trans known
  | sample now =>
    rw [step, hon, sample_eq body]
    split
    · have hm := refresh_moves (publish_moves _) (plansWithin_true (b.sampled l now)) l
      exact ((Moves.frame hm).isKnownLeaf l).trans (hsampled now)
    · exact hsampled now

/-- **What callers do to a meter one after the other**, it lives through in this order. -/
theorem run_lives {ops : List Op} {asked : List Meter.Act}
    (ho : List.Forall₂ (Operates l) ops asked) (known : b.isKnownLeaf l = true)
    (body : (b.leaf l).body = .meter m) :
    ∃ acts, Meter.Brings asked acts ∧ Lives l b acts (b.run ops) := by
  induction ho generalizing b m with
  | nil => exact ⟨[], .nil, .idle rfl⟩
  | cons hop _ ih =>
    obtain ⟨brought, hl, hu, hnone⟩ := hop.lives known body
    obtain ⟨acts, hb, hl'⟩ := ih (hop.known known body) (hl.body body)
    exact ⟨_, .cons hu hnone hb, hl.trans hl'⟩

/-! ### What a sample publishes -/

/-- Nothing but the meter changes until something is published. -/
theorem sampled_change (E : Edit → Prop) (body : (b.leaf l).body = .meter m) (now : Int) :
    Change A E b (b.sampled l now) := by
  rw [sampled, body]
  exact .sample l m (m.sample now).1
    (if (m.sample now).2 then some b.wall else (b.leaf l).updatedAt) body

theorem events_sampled (b : Board) (l : LeafId) (now : Int) :
    (b.sampled l now).events = b.events := by
  unfold sampled
  split <;> rfl

theorem hub_sampled (b : Board) (l : LeafId) (now : Int) (h : HubId) :
    (b.sampled l now).hub h = b.hub h := by
  unfold sampled
  split <;> rfl

/-- A hub that is published is posted before anything else happens. -/
theorem publish_first (hb : Sound b) (held : b.isHubHeld h = true) (time : Timestamp) :
    ∃ rest, news b (b.publish h time) =
      .published h (b.posted h time) (b.postedLine h time) :: rest := by
  have hpost : Move (fun _ => True) b _ := .post h time held
  have hpass := passWith_moves (publish_moves fun _ => True) ((b.post h time).hub h).consumers
    (plansWithin_true _) ((hpost.frame.isHubHeld h).trans held)
  refine ⟨news (b.post h time)
    (passWith publish h (b.post h time) ((b.post h time).hub h).consumers).1, ?_⟩
  rw [publish_eq hb held]
  show news b (passWith publish h (b.post h time) ((b.post h time).hub h).consumers).1 = _
  rw [news_trans hpost.grows (Moves.grows hpass), news_post]
  rfl

/-- The snapshot shows the meter as it was sampled, wherever it is registered, if the hub does not
stamp it. -/
theorem get?_posted_sampled {p : String} (body : (b.leaf l).body = .meter m)
    (hp : (b.hub h).table.byPredicate.get? p = some l)
    (hr : (b.hub h).table.isReserved l = false) (time : Timestamp) :
    ((b.sampled l now).posted h time).get? p = some [.integer (m.sample now).1.peak] := by
  have ht : (((b.sampled l now).stamp h time).hub h).table = (b.hub h).table :=
    congrArg Hub.table (hub_sampled b l now h)
  have hleaf : ((b.sampled l now).stamp h time).leaf l = (b.sampled l now).leaf l :=
    leaf_stamp_of_not_isReserved _ h time (by rw [hub_sampled]; exact hr)
  rw [posted, capture, ht, LeafTable.get?_capture hp, hleaf, Leaf.values, body_sampled body]

/-- **What comes of a sample** of a meter: it says whether the peak rose. If it did, the hub that
owns the meter is published before anything else happens, as of the present time, and the snapshot
shows the new peak, unless the hub has the meter in a reserved slot. If it did not, nothing is
published. -/
structure Samples (b : Board) (l : LeafId) (m : Meter) (now : Int) : Prop where
  rose : (b.sample l now).2 = true ↔ m.peak < (m.sample now).1.peak
  lives : ∃ acts, Lives l b (.sample now :: acts) (b.sample l now).1 ∧ ∀ a ∈ acts,
    a.isSample = false
  silent : (b.sample l now).2 = false → news b (b.sample l now).1 = []
  published : (b.sample l now).2 = true → ∀ h, (b.leaf l).owner = some h → b.isHubHeld h = true →
    ∃ s line rest, news b (b.sample l now).1 = .published h s line :: rest ∧ s.takenAt = b.wall ∧
      (∃ p, (b.hub h).table.byPredicate.get? p = some l) ∧
      ((b.hub h).table.isReserved l = false →
        ∀ p, (b.hub h).table.byPredicate.get? p = some l →
          s.get? p = some [.integer (m.sample now).1.peak])

/-- A leaf is registered on its owner. -/
theorem Sound.exists_predicate (hb : Sound b) (ho : (b.leaf l).owner = some h) :
    ∃ p, (b.hub h).table.byPredicate.get? p = some l := by
  obtain ⟨⟨p, k⟩, he, rfl⟩ := List.mem_map.1 (hb.owned l h ho)
  exact ⟨p, Register.get?_eq_some_iff.2 he⟩

/-- If the peak rose, the owner of the meter is published. -/
theorem sample_publishes (hb : Sound b) (body : (b.leaf l).body = .meter m)
    (rose : (m.sample now).2 = true) (ho : (b.leaf l).owner = some h)
    (held : b.isHubHeld h = true) :
    ∃ rest, news b (b.sample l now).1 = .published h ((b.sampled l now).posted h b.wall)
      ((b.sampled l now).postedLine h b.wall) :: rest := by
  have hc : Change (fun _ => True) (fun _ => True) b (b.sampled l now) := sampled_change _ body now
  have howner : ((b.sampled l now).leaf l).owner = some h := by
    rw [leaf_sampled body, if_pos rfl]
    exact ho
  have hsame : (b.sampled l now).wall = b.wall ∧ (b.sampled l now).isHubHeld h = b.isHubHeld h := by
    rw [sampled, body]
    exact ⟨rfl, rfl⟩
  have hsample : (b.sample l now).1 = (b.sampled l now).publish h b.wall := by
    rw [sample_eq body, rose, if_pos rfl, refresh, howner, hsame.1]
    exact if_pos (hsame.2.trans held)
  obtain ⟨rest, hfirst⟩ := publish_first (hc.sound hb) (hsame.2.trans held) b.wall
  refine ⟨rest, ?_⟩
  rw [hsample, news, ← events_sampled b l now]
  exact hfirst

/-- **Every sample** of every meter. -/
theorem samples (hb : Sound b) (body : (b.leaf l).body = .meter m) (now : Int) :
    Samples b l m now := by
  have hflag : (b.sample l now).2 = (m.sample now).2 := by
    rw [sample_eq body]
    cases (m.sample now).2 <;> rfl
  constructor
  case rose => rw [hflag, Meter.sample_snd]
  case lives => exact sample_lives body now
  case silent =>
    intro hrose
    rw [sample_eq body, ← hflag, hrose]
    exact news_of_events ((events_sampled b l now).trans (List.append_nil _).symm)
  case published =>
    intro hrose h ho held
    obtain ⟨rest, hfirst⟩ := sample_publishes hb body (hflag.symm.trans hrose) ho held
    exact ⟨_, _, rest, hfirst, rfl, hb.exists_predicate ho, fun hfree p hp =>
      get?_posted_sampled body hp hfree b.wall⟩

/-! ### Meters that are tracked several times -/

/-- A set in which a meter is tracked once, where it was tracked first. -/
def once (l : LeafId) : List LeafId → List LeafId
  | [] => []
  | k :: ks => if k = l then l :: ks.filter (· ≠ l) else k :: once l ks

theorem once_of_notMem {ks : List LeafId} (hl : l ∉ ks) : once l ks = ks := by
  induction ks with
  | nil => rfl
  | cons k ks ih =>
    rw [List.mem_cons, not_or] at hl
    rw [once, if_neg (Ne.symm hl.1), ih hl.2]

/-- A meter that is gone falls out of the set however often it is tracked. -/
theorem once_filter (l : LeafId) (p : LeafId → Bool) (ks : List LeafId) :
    once l (ks.filter p) = (once l ks).filter p := by
  cases hp : p l with
  | true =>
    induction ks with
    | nil => rfl
    | cons k ks ih =>
      by_cases hk : k = l
      · rw [hk, List.filter_cons_of_pos hp, once, if_pos rfl, once, if_pos rfl,
          List.filter_cons_of_pos hp, List.filter_filter, List.filter_filter]
        simp only [Bool.and_comm]
      · rw [once, if_neg hk, List.filter_cons, List.filter_cons, ← ih]
        split
        · rw [once, if_neg hk]
        · rfl
  | false =>
    have hn : ¬p l = true := by rw [hp]; exact Bool.false_ne_true
    rw [once_of_notMem fun hm => hn (List.mem_filter.1 hm).2]
    induction ks with
    | nil => rfl
    | cons k ks ih =>
      by_cases hk : k = l
      · rw [hk, List.filter_cons_of_neg hn, once, if_pos rfl, List.filter_cons_of_neg hn,
          List.filter_filter]
        refine List.filter_congr fun x _ => ?_
        cases hx : p x with
        | false => rfl
        | true =>
          have hne : x ≠ l := fun he => hn (he ▸ hx)
          simp [hne]
      · rw [once, if_neg hk, List.filter_cons, List.filter_cons, ih]

/-- Whether a pass over meters leaves the count of a leaf as it is: no consumer of what the pass
publishes records events on it. -/
def PassSpares (l : LeafId) (now : Int) : Board → List LeafId → Prop
  | _, [] => True
  | b, k :: ks => ((b.sample k now).1.leaf l).tally = (b.leaf l).tally ∧
    PassSpares l now (b.sample k now).1 ks

instance (l : LeafId) (now : Int) : ∀ (b : Board) (ks : List LeafId),
    Decidable (PassSpares l now b ks)
  | _, [] => .isTrue trivial
  | b, k :: ks =>
    have := instDecidablePassSpares l now (b.sample k now).1 ks
    inferInstanceAs (Decidable (_ ∧ PassSpares l now (b.sample k now).1 ks))

/-- A pass over meters, written with the two parts of each sample. -/
theorem sampleEach_eq (b : Board) (ks : List LeafId) (now : Int) :
    b.sampleEach ks now = ks.foldl
      (fun x k => ((x.1.sample k now).1, x.2 + (x.1.sample k now).2.toNat)) (b, 0) := by
  unfold sampleEach
  congr 1
  funext ⟨c, n⟩ k
  dsimp only
  rcases c.sample k now with ⟨d, raised⟩
  cases raised <;> rfl

/-- A pass over meters begins with the first. -/
theorem sampleEach_cons (b : Board) (k : LeafId) (ks : List LeafId) (now : Int) :
    b.sampleEach (k :: ks) now = (((b.sample k now).1.sampleEach ks now).1,
      (b.sample k now).2.toNat + ((b.sample k now).1.sampleEach ks now).2) := by
  have hacc : ∀ (ks : List LeafId) (c : Board) (n : Nat),
      ks.foldl (fun x k => ((x.1.sample k now).1, x.2 + (x.1.sample k now).2.toNat)) (c, n) =
        ((c.sampleEach ks now).1, n + (c.sampleEach ks now).2) := by
    intro ks
    induction ks with
    | nil => exact fun _ _ => rfl
    | cons k ks ih =>
      intro c n
      rw [sampleEach_eq, List.foldl_cons, List.foldl_cons, ih, ih]
      dsimp only
      rw [Nat.zero_add, Nat.add_assoc]
  rw [sampleEach_eq, List.foldl_cons, hacc]
  dsimp only
  rw [Nat.zero_add]

/-- A meter is a leaf that was made. -/
theorem lt_of_meter (body : (b.leaf l).body = .meter m) : l.index < b.leaves.size := by
  by_contra hl
  have hd : b.leaf l = default := List.getD_eq_default _ _ (Nat.not_lt.1 hl)
  rw [hd] at body
  cases body

/-- A meter whose window opened at an instant, with what it has counted. -/
def IsSettled (b : Board) (l : LeafId) (now : Int) : Prop :=
  ∃ m, (b.leaf l).body = .meter m ∧ m.window = ⟨m.count, now⟩

/-- **To sample a settled meter changes nothing.** -/
theorem sample_of_settled (hs : b.IsSettled l now) : b.sample l now = (b, false) := by
  obtain ⟨m, body, hw⟩ := hs
  -- the window that the sample closes has no length
  have hm : m.sample now = (m, false) := by
    obtain ⟨count, peak, least, window⟩ := m
    obtain rfl : window = ⟨count, now⟩ := hw
    have he : RateWindow.elapsed ⟨count, now⟩ now ≤ (least : Int) := by
      rw [RateWindow.elapsed, Int.sub_self, Int.max_self]
      exact Int.natCast_nonneg least
    rw [Meter.sample, RateWindow.observe, RateWindow.rate?, if_pos he]
  have hb : b.sampled l now = b := by
    have hx : ({ b.leaf l with body := .meter m } : Leaf) = b.leaf l := by rw [← body]
    rw [sampled, body]
    dsimp only
    rw [hm]
    show { b with leaves := b.leaves.put l.index { b.leaf l with body := .meter m } } = b
    rw [hx]
    show { b with leaves := b.leaves.put l.index (b.leaves.get l.index) } = b
    rw [Store.put_get (lt_of_meter body)]
  rw [sample_eq body, hm, hb]
  rfl

/-- A meter stays settled as long as it is not sampled and counts nothing. -/
theorem IsSettled.of_unsampled (hs : b.IsSettled l now) (hl : LivesUnsampled l b b')
    (ht : (b'.leaf l).tally = (b.leaf l).tally) : b'.IsSettled l now := by
  obtain ⟨m, body, hw⟩ := hs
  obtain ⟨acts, hl, hu⟩ := hl
  have body' := hl.body body
  refine ⟨_, body', ?_⟩
  rw [Leaf.tally, Leaf.tally, body, body'] at ht
  rw [Meter.window_replay hu, hw]
  exact congrArg (RateWindow.mk · now) ht.symm

/-- A meter is settled after it was sampled, if nothing was counted while its owner was
published. -/
theorem settled_sample (body : (b.leaf l).body = .meter m)
    (ht : ((b.sample l now).1.leaf l).tally = (b.leaf l).tally) :
    (b.sample l now).1.IsSettled l now := by
  have hs : (b.sampled l now).IsSettled l now := by
    refine ⟨_, body_sampled body now, ?_⟩
    rw [Meter.window_sample, Meter.count_sample]
  have htally : ((b.sampled l now).leaf l).tally = (b.leaf l).tally := by
    rw [Leaf.tally, Leaf.tally, body_sampled body, body]
    exact Meter.count_sample m now
  exact hs.of_unsampled (livesUnsampled_sampled body now) (ht.trans htally.symm)

/-- A meter is not sampled when another one is. -/
theorem livesUnsampled_other (body : (b.leaf l).body = .meter m) (hk : k ≠ l) :
    LivesUnsampled l b (b.sample k now).1 := by
  cases hkb : (b.leaf k).body with
  | meter m' =>
    have hidle : ((b.sampled k now).leaf l).body = (b.leaf l).body := by
      rw [leaf_sampled hkb, if_neg hk]
    rw [sample_eq hkb]
    split
    · exact (LivesUnsampled.idle hidle).trans (refresh_livesUnsampled (hidle.trans body) k)
    · exact .idle hidle
  | _ =>
    refine .idle ?_
    rw [sample, hkb]

/-- After the first time, a pass over a set may leave out a meter. -/
theorem sampleEach_filter {ks : List LeafId} (hs : b.IsSettled l now)
    (hp : PassSpares l now b ks) : b.sampleEach (ks.filter (· ≠ l)) now = b.sampleEach ks now := by
  induction ks generalizing b with
  | nil => rfl
  | cons k ks ih =>
    obtain ⟨ht, hp⟩ := hp
    by_cases hk : k = l
    · subst hk
      rw [sample_of_settled hs] at hp
      rw [List.filter_cons_of_neg (by simp), sampleEach_cons, sample_of_settled hs, ih hs hp]
      exact Prod.ext rfl (Nat.zero_add _).symm
    · have hs' : (b.sample k now).1.IsSettled l now := by
        obtain ⟨m, body, hw⟩ := hs
        exact IsSettled.of_unsampled ⟨m, body, hw⟩ (livesUnsampled_other body hk) ht
      rw [List.filter_cons_of_pos (by simpa using hk), sampleEach_cons, sampleEach_cons, ih hs' hp]

/-- **A meter that is tracked several times** is sampled as if it was tracked once, as long as no
consumer of what is published meanwhile records events on it. -/
theorem sampleEach_once {ks : List LeafId} (body : (b.leaf l).body = .meter m)
    (hp : PassSpares l now b ks) : b.sampleEach (once l ks) now = b.sampleEach ks now := by
  induction ks generalizing b m with
  | nil => rfl
  | cons k ks ih =>
    obtain ⟨ht, hp⟩ := hp
    by_cases hk : k = l
    · subst hk
      rw [once, if_pos rfl, sampleEach_cons, sampleEach_cons,
        sampleEach_filter (settled_sample body ht) hp]
    · obtain ⟨acts, hl, -⟩ : LivesUnsampled l b (b.sample k now).1 := livesUnsampled_other body hk
      rw [once, if_neg hk, sampleEach_cons, sampleEach_cons, ih (hl.body body) hp]

/-- The board after the meters that are gone fell out of its own set. -/
def retained (b : Board) : Board :=
  { b with registry := { b.registry with meters := b.registry.meters.filter b.isLeafHeld } }

/-! ### The law of peaks -/

/-- **Peaks of meters.** Whatever a meter lived through since it was made, its peak is the greatest
of 0 and the rates of the windows that closed since the last write and lasted longer than its least
time. On every reachable board a meter lives through what callers do to it, in order, with what its
samples bring about. A sample says whether the peak rose, and what it publishes shows the new peak.
A set that tracks a meter several times, be it a set of its own or that of the board, samples it as
one that tracks it once, if no consumer of what is published meanwhile records events on it. -/
theorem peaks_published (hb : Reachable b) (l : LeafId) :
    (∀ name least created acts b', b.leaf l = .meter name least created → Lives l b acts b' →
      Meter.IsExact (.sample created :: acts) → ∃ m, (b'.leaf l).body = .meter m ∧
        IsGreatest (insert 0 (Meter.recentRates least (.sample created :: acts))) m.peak) ∧
    ∀ m, (b.leaf l).body = .meter m →
      (∀ ops asked, b.isKnownLeaf l = true → List.Forall₂ (Operates l) ops asked →
        ∃ acts, Meter.Brings asked acts ∧ Lives l b acts (b.run ops)) ∧
      (∀ now, Samples b l m now) ∧
      (∀ set now, PassSpares l now b (set.filter b.isLeafHeld) → b.sampleSet (once l set) now =
        ((b.sampleSet set now).1, once l (b.sampleSet set now).2.1, (b.sampleSet set now).2.2)) ∧
      (PassSpares l b.now b.retained b.retained.registry.meters →
        b.retained.sampleEach (once l b.retained.registry.meters) b.now = b.sampleAll) := by
  refine ⟨fun name least created acts b' hnew hl he => ?_, fun m body =>
    ⟨fun ops asked known ho => run_lives ho known body, fun now => samples hb.sound body now,
      fun set now hp => ?_, fun hp => sampleEach_once body hp⟩⟩
  · have body : (b.leaf l).body = .meter { least, window := { openedAt := created } } := by
      rw [hnew]
      rfl
    have ht := Meter.tracks_replay (Meter.tracks_new least created) he
    have hpeak := ht.peak
    rw [Meter.least_replay] at hpeak
    exact ⟨_, hl.body body, hpeak⟩
  · have hset : ∀ ls, b.sampleSet ls now = ((b.sampleEach (ls.filter b.isLeafHeld) now).1,
        ls.filter b.isLeafHeld, (b.sampleEach (ls.filter b.isLeafHeld) now).2) := fun _ => rfl
    rw [hset, hset, ← once_filter, sampleEach_once body hp]

/-- A meter is made, registered on a hub, and counts two events. -/
def twoEvents : List Op :=
  [.makeLeaf "m" (.meter Meter.defaultLeast) "m", .openHub (Name.hubName "r"),
    .addLeaf ⟨1⟩ "http://x/m" ⟨4⟩, .increment ⟨4⟩, .increment ⟨4⟩]

/-- Two events in a second. The sample raises the peak to 2 and publishes it, and a set that tracks
the meter twice samples it once. -/
theorem peaks_published_twoEvents :
    let b := (start {} default {}).run twoEvents
    let b' := (b.sample ⟨4⟩ 1000000000).1
    let c := (start {} default {}).run (twoEvents.take 3)
    (∃ m, (b'.leaf ⟨4⟩).body = .meter m ∧ m.peak = 2 ∧
      IsGreatest (insert 0 (Meter.recentRates Meter.defaultLeast
        [.sample 0, .count 1, .count 1, .sample 1000000000])) m.peak) ∧
    (∃ acts, Meter.Brings [.count 1, .count 1, .sample 1000000000] acts ∧ Lives ⟨4⟩ c acts
      (c.run [.increment ⟨4⟩, .increment ⟨4⟩, .sample ⟨4⟩ 1000000000])) ∧
    (∃ s line rest, news b b' = .published ⟨1⟩ s line :: rest ∧
      s.get? "http://x/m" = some [.integer 2]) ∧
    b.sampleSet [⟨4⟩] 1000000000 = ((b.sampleSet [⟨4⟩, ⟨4⟩] 1000000000).1, [⟨4⟩], 1) ∧
    b.retained.sampleEach [⟨3⟩] b.now = b.sampleAll := by
  intro b b' c
  have hreach : ∀ n, Reachable ((start {} default {}).run (twoEvents.take n)) := fun n =>
    ⟨{}, default, {}, _, Disk.sound_empty, rfl⟩
  -- what the boards on the way are
  obtain ⟨hnew, hsame, hknown3, hknown4, body3, body4⟩ :
      ((start {} default {}).run (twoEvents.take 1)).leaf ⟨4⟩ = .meter "m" Meter.defaultLeast 0 ∧
      (((start {} default {}).run (twoEvents.take 3)).leaf ⟨4⟩).body =
        (((start {} default {}).run (twoEvents.take 1)).leaf ⟨4⟩).body ∧
      ((start {} default {}).run (twoEvents.take 3)).isKnownLeaf ⟨4⟩ = true ∧
      ((start {} default {}).run (twoEvents.take 4)).isKnownLeaf ⟨4⟩ = true ∧
      (((start {} default {}).run (twoEvents.take 3)).leaf ⟨4⟩).body =
        .meter { least := Meter.defaultLeast } ∧
      (((start {} default {}).run (twoEvents.take 4)).leaf ⟨4⟩).body =
        .meter { count := 1, least := Meter.defaultLeast } := by decide +kernel
  obtain ⟨body, body', hquiet, hflag, howner, hheld, hfree, hp⟩ :
      (b.leaf ⟨4⟩).body = .meter { count := 2, least := Meter.defaultLeast } ∧
      (b'.leaf ⟨4⟩).body = .meter
        { count := 2, peak := 2, least := Meter.defaultLeast, window := ⟨2, 1000000000⟩ } ∧
      (b'.leaf ⟨4⟩).body = ((b.sampled ⟨4⟩ 1000000000).leaf ⟨4⟩).body ∧
      (b.sample ⟨4⟩ 1000000000).2 = true ∧ (b.leaf ⟨4⟩).owner = some ⟨1⟩ ∧
      b.isHubHeld ⟨1⟩ = true ∧ (b.hub ⟨1⟩).table.isReserved ⟨4⟩ = false ∧
      (b.hub ⟨1⟩).table.byPredicate.get? "http://x/m" = some ⟨4⟩ := by decide +kernel
  obtain ⟨hspares, hraised, hlive, hspares'⟩ :
      PassSpares ⟨4⟩ 1000000000 b ([⟨4⟩, ⟨4⟩].filter b.isLeafHeld) ∧
      (b.sampleSet [⟨4⟩, ⟨4⟩] 1000000000).2.2 = 1 ∧
      (b.sampleSet [⟨4⟩, ⟨4⟩] 1000000000).2.1 = [⟨4⟩, ⟨4⟩] ∧
      PassSpares ⟨4⟩ b.now b.retained b.retained.registry.meters := by decide +kernel
  have hl : Lives ⟨4⟩ ((start {} default {}).run (twoEvents.take 1))
      ([] ++ ([.count 1] ++ ([.count 1] ++ [.sample 1000000000]))) b' :=
    .trans (.idle hsame) (.trans (step_lives hknown3 body3).1
      (.trans (step_lives hknown4 body4).1 (.sample (.idle hquiet))))
  obtain ⟨m, hm, hpeak⟩ := (peaks_published (hreach 1) ⟨4⟩).1 "m" Meter.defaultLeast 0 _ b' hnew hl
    (Meter.isExact_of_travelled (by decide))
  have hrun := ((peaks_published (hreach 3) ⟨4⟩).2 _ body3).1 _ _ hknown3
    (.cons .increment (.cons .increment (.cons (.sample 1000000000) .nil)))
  obtain ⟨-, hsample, hset, hall⟩ := (peaks_published (hreach 5) ⟨4⟩).2 _ body
  obtain ⟨s, line, rest, hnews, -, -, hshown⟩ :=
    (hsample 1000000000).published hflag ⟨1⟩ howner hheld
  refine ⟨⟨m, hm, ?_, hpeak⟩, hrun, ⟨s, line, rest, hnews, hshown hfree "http://x/m" hp⟩, ?_,
    hall hspares'⟩
  · obtain rfl := LeafBody.meter.inj (hm.symm.trans body')
    rfl
  · have honce : b.sampleSet (once ⟨4⟩ [⟨4⟩, ⟨4⟩]) 1000000000 =
        ((b.sampleSet [⟨4⟩, ⟨4⟩] 1000000000).1, once ⟨4⟩ (b.sampleSet [⟨4⟩, ⟨4⟩] 1000000000).2.1,
          (b.sampleSet [⟨4⟩, ⟨4⟩] 1000000000).2.2) := hset [⟨4⟩, ⟨4⟩] 1000000000 hspares
    rwa [hraised, hlive] at honce

/-- A meter on one hub, and another meter on a hub whose observer plans an event on the first
one. -/
def eventOnOther : List Op :=
  [.openHub (Name.hubName "r"), .openHub (Name.hubName "q"),
    .makeLeaf "m" (.meter Meter.defaultLeast) "m", .makeLeaf "k" (.meter Meter.defaultLeast) "k",
    .addLeaf ⟨1⟩ "http://x/m" ⟨8⟩, .addLeaf ⟨2⟩ "http://x/k" ⟨9⟩,
    .observe "C" .id [] [(0, .increment "m")], .subscribe ⟨2⟩ ⟨0⟩,
    .increment ⟨9⟩, .advance 1000000000]

/-- A meter in a reserved slot of its hub, which counts an event. -/
def slotMeter : List Op :=
  [.openHub (Name.hubName "r"), .makeLeaf "m" (.meter Meter.defaultLeast) "m",
    .addLeaf ⟨1⟩ (Name.Reserved.predicate .instant) ⟨6⟩, .increment ⟨6⟩]

/-- If the other meter is sampled between the two times, the event that its publication brings about
is lost to a meter that is tracked twice, though nobody is told of the meter's own hub. And the
publication of a new peak resets a meter in a reserved slot before the snapshot is taken. -/
theorem trackedTwice_losesEvent :
    let b := (start {} default {}).run eventOnOther
    let c := (start {} default {}).run slotMeter
    ((b.leaf ⟨8⟩).owner = some ⟨1⟩ ∧ (b.hub ⟨1⟩).consumers = [] ∧
      ((b.sampleSet [⟨8⟩, ⟨9⟩] b.now).1.sample ⟨8⟩ 2000000000).2 = true ∧
      ((b.sampleSet [⟨8⟩, ⟨9⟩, ⟨8⟩] b.now).1.sample ⟨8⟩ 2000000000).2 = false) ∧
    (c.leaf ⟨6⟩).owner = some ⟨1⟩ ∧ c.isHubHeld ⟨1⟩ = true ∧
      ((c.sampled ⟨6⟩ 1000000000).leaf ⟨6⟩).values = [.integer 1] ∧
      (c.sample ⟨6⟩ 1000000000).2 = true ∧
      ((c.sample ⟨6⟩ 1000000000).1.hub ⟨1⟩).snapshot.bind
        (·.get? (Name.Reserved.predicate .instant)) = some [.integer 0] := by
  decide +kernel

end Board

end Switchboard
