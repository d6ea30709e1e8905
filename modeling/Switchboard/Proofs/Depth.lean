import Switchboard.Proofs.TellOthers

/-!
# How deep publications are nested

A publication is given a depth, which is the number of publications that the consumers can still
bring about. That is always enough, so no publication is ever cut off, and the depth can be left
out of the account: a hub is published by posting it and telling its consumers, who publish others
in the same way.

* `publishWithin_eq`: any depth that is enough does the same.
* `publish_eq`: publishing without a depth.
-/

namespace Switchboard

namespace Board

variable {b b' : Board}

/-- An observer that does something when it is called uses up a plan. -/
theorem unrest_called {c : ConsumerId} {o : Observer} (is : b.consumer c = .observer o)
    (hd : o.due ≠ []) (text : String) :
    (b.setConsumer c (.observer (o.called text))).unrest < b.unrest := by
  have hs := b.unrest_setConsumer c (.observer (o.called text))
  have hlt : (o.called text).planned.length < o.planned.length := by
    refine List.length_filter_lt_length_iff_exists.2 ?_
    obtain ⟨a, ha⟩ := List.exists_mem_of_ne_nil _ hd
    rw [Observer.due, List.mem_map] at ha
    obtain ⟨p, hp, -⟩ := ha
    rw [List.mem_filter] at hp
    refine ⟨p, hp.1, ?_⟩
    simpa using hp.2
  rw [is] at hs
  change _ + o.planned.length = _ + (o.called text).planned.length at hs
  omega

section Alike

variable {depth : Nat} {f g : Board → HubId → Timestamp → Board}

/-- Two ways of publishing that do the same as long as consumers can bring about less than
`depth`. -/
def AlikeBelow (depth : Nat) (f g : Board → HubId → Timestamp → Board) : Prop :=
  ∀ b h time, Sound b → b.isHubHeld h = true → b.unrest < depth → f b h time = g b h time

variable (hfg : AlikeBelow depth f g)
include hfg

theorem refresh_congr (hb : Sound b) (hu : b.unrest < depth) (l : LeafId) :
    b.refresh f l = b.refresh g l := by
  rcases b.refresh_cases l with ⟨h, -, held, eq⟩ | eq
  · rw [eq, eq, hfg b h _ hb held hu]
  · rw [eq, eq]

theorem countWith_congr (hb : Sound b) (hu : b.unrest < depth) (l : LeafId) (steps : Int) :
    b.countWith f l steps = b.countWith g l steps := by
  rcases b.countWith_cases l steps with ⟨n, body, eq⟩ | ⟨m, body, eq⟩ | eq
  · have hm : Move (fun _ => True) b _ := .count l n steps body
    rw [eq, eq, refresh_congr hfg (hm.sound hb) (Nat.lt_of_le_of_lt hm.unrest hu) l]
  · rw [eq, eq]
  · rw [eq, eq]

/-- The end of a session uses up the session. -/
theorem closeWith_congr (hb : Sound b) (hu : b.unrest ≤ depth) (c : ConsumerId) :
    b.closeWith f c = b.closeWith g c := by
  rcases b.closeWith_cases c with ⟨s, is, alive, eq⟩ | eq
  · have hm : Move (fun _ => True) b _ := .finish c s is alive
    have hlt := unrest_ended is alive
    rw [eq, eq, countWith_congr hfg (hm.sound hb) (by omega)]
  · rw [eq, eq]

theorem act_congr (hb : Sound b) (hu : b.unrest < depth) (a : Action) :
    b.act f a = b.act g a := by
  cases b.deed a with
  | idle _ eq => rw [eq, eq]
  | subscribe _ _ h c _ eq | unsubscribe _ _ h c _ eq => rw [eq, eq]
  | update hub h held eq => rw [eq, eq, hfg b h _ hb held hu]
  | set leaf v x _ eq => rw [eq, eq]
  | increment leaf l eq | decrement leaf l eq => rw [eq, eq, countWith_congr hfg hb hu]

variable (hf : PublishesBy (fun _ => True) f)
include hf

theorem foldl_act_congr (hb : Sound b) (hu : b.unrest < depth) (as : List Action) :
    as.foldl (act f) b = as.foldl (act g) b := by
  induction as generalizing b with
  | nil => rfl
  | cons a as ih =>
    have hm := act_moves hf (plansWithin_true b) (a := a) trivial
    rw [List.foldl_cons, List.foldl_cons, ← act_congr hfg hb hu]
    exact ih (Moves.sound hm hb) (Nat.lt_of_le_of_lt (Moves.unrest hm) hu)

theorem informWith_congr (hb : Sound b) (hu : b.unrest ≤ depth) (c : ConsumerId) {h : HubId}
    (held : b.isHubHeld h = true) : b.informWith f c h = b.informWith g c h := by
  have hoffer : ∀ {q : Queue}, (b.consumer c).queue? = some q →
      Sound (b.offer c q h).1 ∧ (b.offer c q h).1.unrest ≤ depth := by
    intro q hq
    have hm := offer_moves (A := fun _ => True) hq held
    exact ⟨Moves.sound hm hb, Nat.le_trans (Moves.unrest hm) hu⟩
  unfold informWith
  split
  · rename_i o is
    have hnote := noteOf_moves (A := fun _ => True) held o.noted
    have is' : (b.noteOf h o.noted).1.consumer c = .observer o := by
      rw [consumer_noteOf]; exact is
    have hcall : Move (fun _ => True) _ _ := .call c o (b.noteOf h o.noted).2 is'
    dsimp only
    by_cases hd : o.due = []
    · rw [hd]
      rfl
    · have hlt := unrest_called is' hd (b.noteOf h o.noted).2
      have hle := Moves.unrest hnote
      rw [foldl_act_congr hfg hf (hcall.sound (Moves.sound hnote hb)) (by omega)]
  · rfl
  · rename_i s is
    split
    · obtain ⟨hb', hu'⟩ := hoffer (q := s.queue) (by rw [is]; rfl)
      split <;> rename_i he
      · -- a sent message is counted without a publication
        rw [he] at hb'
        obtain ⟨m, hm, hcf⟩ := countWith_sendMeter f hb' 1
        obtain ⟨m', hm', hcg⟩ := countWith_sendMeter g hb' 1
        rw [hm, LeafBody.meter.injEq] at hm'
        rw [hcf, hcg, hm']
      · rfl
      · rw [he] at hb' hu'
        rw [closeWith_congr hfg hb' hu']
    · rfl

theorem passWith_congr {h : HubId} (cs : List ConsumerId) (hb : Sound b) (hu : b.unrest ≤ depth)
    (held : b.isHubHeld h = true) : passWith f h b cs = passWith g h b cs := by
  induction cs generalizing b with
  | nil => rfl
  | cons c cs ih =>
    have hm := (informWith_moves hf (plansWithin_true b) c held).tail
      (.inform c h (b.informWith f c h).2)
    have hrest := ih (Moves.sound hm hb) (Nat.le_trans (Moves.unrest hm) hu)
      (((Moves.frame hm).isHubHeld h).trans held)
    simp only [passWith]
    rw [← informWith_congr hfg hf hb hu c held, hrest]

theorem notifyWith_congr (hb : Sound b) (hu : b.unrest ≤ depth) {h : HubId}
    (held : b.isHubHeld h = true) : b.notifyWith f h = b.notifyWith g h := by
  unfold notifyWith
  rw [passWith_congr hfg hf _ hb hu held]

end Alike

variable {h : HubId}

/-- **Any depth that is enough does the same.** -/
theorem publishWithin_eq {depth : Nat} (hb : Sound b) (held : b.isHubHeld h = true)
    (hu : b.unrest ≤ depth) (time : Timestamp) :
    publishWithin depth b h time = (b.post h time).notifyWith publish h := by
  -- whatever is published while consumers are told is published with less depth
  induction depth using Nat.strongRecOn generalizing b h time with
  | ind depth ih =>
    have hm : Move (fun _ => True) b _ := .post h time held
    have hb' := hm.sound hb
    have hu' : (b.post h time).unrest ≤ depth := Nat.le_trans hm.unrest hu
    have held' := (hm.frame.isHubHeld h).trans held
    cases depth with
    | zero =>
      exact notifyWith_congr (fun _ _ _ _ _ hlt => absurd hlt (Nat.not_lt_zero _))
        (fun _ _ _ _ _ => .refl) hb' hu' held'
    | succ n =>
      refine notifyWith_congr (fun d k t hd hk hlt => ?_) (publishWithin_moves _ n) hb' hu' held'
      have hle := Nat.le_of_lt_succ hlt
      rw [ih n (Nat.lt_succ_self n) hd hk hle, publish, ih d.unrest hlt hd hk (Nat.le_refl _)]

/-- **Publishing without a depth**: a hub is posted, and its consumers, while they are told,
publish in the same way. -/
theorem publish_eq (hb : Sound b) (held : b.isHubHeld h = true) (time : Timestamp) :
    b.publish h time = (b.post h time).notifyWith publish h :=
  publishWithin_eq hb held (Nat.le_refl _) time

end Board

end Switchboard
