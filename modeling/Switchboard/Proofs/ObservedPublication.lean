import Switchboard.Proofs.News

/-!
# Publications that consumers only observe

A consumer only observes if it brings about no publication when it is told of one: an observer
that has nothing planned, a channel, a session with its receiver. To tell such consumers of a hub
that keeps its texts leaves all hubs, the files, and all leaves but meters as they are. So the
publication of a hub touches that hub alone, and tells each of its subscribers once.

* `still_informWith`: to tell an observing consumer leaves everything still.
* `publish_observed`: what the publication of one hub does.
-/

namespace Switchboard

/-- Whether a consumer brings about no publication when it is told of one. -/
def Consumer.observes : Consumer → Bool
  | .observer o => o.planned.isEmpty
  | .channel _ => true
  | .session s => !s.alive || s.queue.receiving

namespace Board

/-- Whether all consumers only observe. -/
def Observed (b : Board) : Prop := ∀ c, (b.consumer c).observes = true

theorem observed_iff (b : Board) :
    Observed b ↔ b.consumers.cells.all Consumer.observes = true := by
  rw [List.all_eq_true]
  constructor
  · intro ho x hx
    obtain ⟨i, hi, rfl⟩ := List.mem_iff_getElem.1 hx
    have := ho ⟨i⟩
    rwa [consumer, Store.get, List.getD_eq_getElem _ _ hi] at this
  · rintro ha ⟨i⟩
    show (b.consumers.cells.getD i default).observes = true
    by_cases hi : i < b.consumers.cells.length
    · rw [List.getD_eq_getElem _ _ hi]
      exact ha _ (List.getElem_mem hi)
    · rw [List.getD_eq_default _ _ (Nat.not_lt.1 hi)]
      rfl

instance (b : Board) : Decidable (Observed b) := decidable_of_iff' _ (observed_iff b)

/-- A board on which no hub and no file changed, and of the leaves only meters. -/
structure Rests (b b' : Board) : Prop where
  frame : Frame b b'
  hub : ∀ h, b'.hub h = b.hub h
  leaf : ∀ l, (b.leaf l).sort ≠ .meter → b'.leaf l = b.leaf l
  disk : b'.disk = b.disk
  observed : Observed b → Observed b'

/-- A board that rests, on which no publication and no call were noted. -/
structure Still (b b' : Board) : Prop extends Rests b b' where
  events : ∃ es, b'.events = b.events ++ es ∧ ∀ h, published h es = [] ∧ calls h es = []

variable {b b' b'' : Board}

protected theorem Rests.refl (b : Board) : Rests b b where
  frame := .refl b
  hub _ := rfl
  leaf _ _ := rfl
  disk := rfl
  observed h := h

theorem Rests.trans (h : Rests b b') (h' : Rests b' b'') : Rests b b'' where
  frame := h.frame.trans h'.frame
  hub k := (h'.hub k).trans (h.hub k)
  leaf l hl := by
    rw [h'.leaf l (by rw [(h.frame.leaf l).sort]; exact hl), h.leaf l hl]
  disk := h'.disk.trans h.disk
  observed ho := h'.observed (h.observed ho)

protected theorem Still.refl (b : Board) : Still b b where
  toRests := .refl b
  events := ⟨[], (List.append_nil _).symm, fun _ => ⟨rfl, rfl⟩⟩

theorem Still.trans (h : Still b b') (h' : Still b' b'') : Still b b'' where
  toRests := h.toRests.trans h'.toRests
  events := by
    obtain ⟨es, he, hq⟩ := h.events
    obtain ⟨fs, hf, hr⟩ := h'.events
    refine ⟨es ++ fs, ?_, fun k => ⟨?_, ?_⟩⟩
    · rw [hf, he, List.append_assoc]
    · rw [published_append, (hq k).1, (hr k).1]
      rfl
    · rw [calls_append, (hq k).2, (hr k).2]
      rfl

/-! ### Single steps of telling a consumer -/

theorem Still.setConsumer (b : Board) (c : ConsumerId) {x : Consumer} (hx : x.observes = true) :
    Still b (b.setConsumer c x) := by
  refine { Still.refl b with frame := Frame.setConsumer b c x, observed := fun ho d => ?_ }
  rw [consumer_setConsumer]
  split
  · exact hx
  · exact ho d

theorem Still.note (b : Board) {e : Event} (hp : e.publication? = none)
    (hc : ∀ h, calls h [e] = []) : Still b (b.note e) := by
  refine { Rests.refl b with
    frame := Frame.note b e
    events := ⟨[e], events_note b e, fun h => ⟨published_of_quiet h ?_, hc h⟩⟩ }
  simpa using hp

/-- A hub that keeps its texts, or renders them anew each time. Reading them changes nothing. -/
def Fresh (b : Board) (h : HubId) : Prop :=
  (b.hub h).isVolatile = true ∨ (b.hub h).formatted ≠ none ∧ (b.hub h).wrapped ≠ none

theorem formatted_of_fresh {h : HubId} (hf : b.Fresh h) : (b.formatted h).1 = b := by
  rcases b.formatted_fst h with e | ⟨hv, hn, -⟩
  · exact e
  · rcases hf with hf | ⟨hf, -⟩
    · rw [hv] at hf
      cases hf
    · exact absurd hn hf

theorem json_of_fresh {h : HubId} (hf : b.Fresh h) : (b.json h).1 = b := by
  rcases b.json_fst h with e | ⟨hv, hn, -⟩
  · exact e
  · rcases hf with hf | ⟨-, hf⟩
    · rw [hv] at hf
      cases hf
    · exact absurd hn hf

theorem noteOf_of_fresh {h : HubId} (hf : b.Fresh h) (noted : Noted) :
    (b.noteOf h noted).1 = b := by
  cases noted with
  | wrapped => exact json_of_fresh hf
  | text => exact formatted_of_fresh hf
  | id => rfl

theorem observes_withQueue {x : Consumer} (hx : x.observes = true) {q r : Queue}
    (hq : x.queue? = some q) (hr : r.receiving = q.receiving) :
    (x.withQueue r).observes = true := by
  cases x with
  | observer o => cases hq
  | channel q => rfl
  | session s =>
    cases hq
    show (!s.alive || r.receiving) = true
    rw [hr]
    exact hx

theorem receiving_offer (q : Queue) (text : String) :
    (q.offer text).1.receiving = q.receiving := by
  unfold Queue.offer
  split
  · rfl
  · split <;> rfl

/-- To offer a message changes nothing but the queue. -/
theorem still_offer {c : ConsumerId} {q : Queue} (hq : (b.consumer c).queue? = some q)
    (ho : (b.consumer c).observes = true) {h : HubId} (hf : b.Fresh h) :
    Still b (b.offer c q h).1 := by
  rcases offer_cases b c q h with ⟨r, hr, he⟩ | ⟨r, hr, he⟩ | ⟨r, hr, he⟩ <;>
    rw [he, json_of_fresh hf]
  · have hrec : r.receiving = q.receiving := by
      have := receiving_offer q (b.json h).2
      rw [hr] at this
      exact this
    exact (Still.setConsumer b c (observes_withQueue ho hq hrec)).trans
      (Still.note _ rfl fun _ => rfl)
  · exact Still.note b rfl fun _ => rfl
  · exact Still.refl b

variable {nested : Board → HubId → Timestamp → Board}

/-- A meter that moves publishes nothing. -/
theorem still_countWith {l : LeafId} (hl : (b.leaf l).sort = .meter) (steps : Int) :
    Still b (b.countWith nested l steps).1 := by
  unfold countWith
  split
  · rename_i n body
    rw [Leaf.sort, body] at hl
    cases hl
  · rename_i m body
    have hm : Move (fun _ => True) b _ := .tick l m steps body
    refine { Still.refl b with frame := hm.frame, leaf := fun k hk => ?_ }
    rw [leaf_modifyLeaf, if_neg]
    rintro rfl
    exact hk hl
  · exact Still.refl b

/-- A session whose message is not refused stays open. -/
theorem offer_ne_disconnected {c : ConsumerId} {q : Queue} (hr : q.receiving = true) (h : HubId) :
    (b.offer c q h).2 ≠ .disconnected := by
  intro hd
  rcases offer_cases b c q h with ⟨r, -, he⟩ | ⟨r, -, he⟩ | ⟨r, ho, he⟩
  · rw [he] at hd
    cases hd
  · rw [he] at hd
    cases hd
  · have hn : (q.offer (b.json h).2).2 ≠ .disconnected := by
      unfold Queue.offer
      rw [hr]
      split
      · rename_i hf
        cases hf
      · split <;> intro hc <;> cases hc
    rw [ho] at hn
    exact hn rfl

/-- **To tell an observing consumer** of a hub that keeps its texts leaves everything still. -/
theorem still_informWith (hm : (b.leaf b.registry.sendMeter).sort = .meter) {c : ConsumerId}
    (ho : (b.consumer c).observes = true) {h : HubId} (hf : b.Fresh h) :
    Still b (b.informWith nested c h).1 := by
  unfold informWith
  split
  · rename_i o is
    rw [is] at ho
    -- nothing is planned, so nothing is due, and to read a kept text changes nothing
    have hp : o.planned = [] := List.isEmpty_iff.1 ho
    have hd : o.due = [] := by rw [Observer.due, hp]; rfl
    dsimp only
    rw [noteOf_of_fresh hf, hd]
    refine Still.setConsumer b c ?_
    show (o.planned.filter _).isEmpty = true
    rw [hp]
    rfl
  · rename_i q is
    have hs := still_offer (q := q) (by rw [is]; rfl) ho hf
    split <;> rename_i he <;> rw [he] at hs <;> exact hs
  · rename_i s is
    split
    -- a session only closes if nobody receives, and here somebody does
    · rename_i alive
      have hs := still_offer (q := s.queue) (by rw [is]; rfl) ho hf
      have hr : s.queue.receiving = true := by
        rw [is] at ho
        change (!s.alive || s.queue.receiving) = true at ho
        rw [alive] at ho
        exact ho
      split <;> rename_i he <;> rw [he] at hs
      · refine hs.trans (still_countWith ?_ 1)
        rw [hs.frame.registry, (hs.frame.leaf _).sort]
        exact hm
      · exact hs
      · exact absurd (congrArg Prod.snd he) (offer_ne_disconnected hr h)
    · exact Still.refl b

/-! ### Telling all consumers of a hub -/

/-- A board that rests, on which some consumers were told of a hub, each once and in order. -/
structure Told (h : HubId) (cs : List ConsumerId) (b b' : Board) : Prop extends Rests b b' where
  events : ∃ es, b'.events = b.events ++ es ∧ (∀ k, published k es = []) ∧ calls h es = cs ∧
    ∀ k, k ≠ h → calls k es = []

/-- To note that a consumer was told. -/
theorem Still.told (hs : Still b b') (c : ConsumerId) (h : HubId) (stays : Bool) :
    Told h [c] b (b'.note (.informed c h stays)) := by
  obtain ⟨es, he, hq⟩ := hs.events
  have hrests : Rests b (b'.note (.informed c h stays)) :=
    { hs.toRests with frame := hs.frame.trans (Frame.note b' _) }
  refine ⟨hrests, es ++ [.informed c h stays], ?_, fun k => ?_, ?_, fun k hk => ?_⟩
  · rw [events_note, he, List.append_assoc]
  · rw [published_append, (hq k).1]
    rfl
  · rw [calls_append, (hq h).2]
    simp [calls]
  · rw [calls_append, (hq k).2]
    simp [calls, Ne.symm hk]

theorem Told.trans {h : HubId} {cs ds : List ConsumerId} (ht : Told h cs b b')
    (ht' : Told h ds b' b'') : Told h (cs ++ ds) b b'' := by
  obtain ⟨es, he, hp, hc, ho⟩ := ht.events
  obtain ⟨fs, hf, hp', hc', ho'⟩ := ht'.events
  refine ⟨ht.toRests.trans ht'.toRests, es ++ fs, ?_, fun k => ?_, ?_, fun k hk => ?_⟩
  · rw [hf, he, List.append_assoc]
  · rw [published_append, hp k, hp' k]
    rfl
  · rw [calls_append, hc, hc']
  · rw [calls_append, ho k hk, ho' k hk]
    rfl

theorem told_passWith {h : HubId} (cs : List ConsumerId)
    (hm : (b.leaf b.registry.sendMeter).sort = .meter) (ho : Observed b) (hf : b.Fresh h) :
    Told h cs b (passWith nested h b cs).1 := by
  induction cs generalizing b with
  | nil =>
    exact ⟨.refl b, [], (List.append_nil _).symm, fun _ => rfl, rfl, fun _ _ => rfl⟩
  | cons c cs ih =>
    have hs : Still b (b.informWith nested c h).1 := still_informWith hm (ho c) hf
    have ht := hs.told c h (b.informWith nested c h).2
    have hm' : ((b.informWith nested c h).1.leaf
        (b.informWith nested c h).1.registry.sendMeter).sort = .meter := by
      rw [hs.frame.registry, (hs.frame.leaf _).sort]
      exact hm
    have hf' : (b.informWith nested c h).1.Fresh h := by
      rw [Fresh, hs.hub]
      exact hf
    exact ht.trans (ih hm' (hs.observed ho) hf')

/-! ### The publication of one hub -/

/-- **What the publication of one hub does** if consumers only observe. -/
structure PublishedAlone (b b' : Board) (h : HubId) (s : Snapshot) (line : String) : Prop where
  frame : Frame b b'
  kept : ∃ gone, b'.hub h = ((b.hub h).kept s line).unsubscribeAll gone
  others : ∀ k, k ≠ h → b'.hub k = b.hub k
  leaf : ∀ l, (b.leaf l).sort ≠ .meter → (b.hub h).table.isReserved l = false →
    b'.leaf l = b.leaf l
  disk : b'.disk = (b.hub h).logged b.disk line
  observed : Observed b'
  events : ∃ es, b'.events = b.events ++ es ∧ published h es = [(s, line)] ∧
    calls h es = (b.hub h).consumers ∧ ∀ k, k ≠ h → published k es = [] ∧ calls k es = []

theorem fresh_post (b : Board) (h : HubId) (time : Timestamp) : (b.post h time).Fresh h := by
  rw [Fresh, hub_post, if_pos rfl]
  exact .inr ⟨by simp [Hub.kept], by simp [Hub.kept]⟩

theorem post_notify_observed (hm : (b.leaf b.registry.sendMeter).sort = .meter) (ho : Observed b)
    (h : HubId) (time : Timestamp) : PublishedAlone b ((b.post h time).notifyWith nested h) h
      (b.posted h time) (b.postedLine h time) := by
  have hp := Frame.post b h time
  have hm' : ((b.post h time).leaf (b.post h time).registry.sendMeter).sort = .meter := by
    rw [hp.registry, (hp.leaf _).sort]
    exact hm
  have ho' : Observed (b.post h time) := by
    intro c
    rw [consumer_post]
    exact ho c
  have ht : Told h _ _ (passWith nested h _ _).1 :=
    told_passWith ((b.post h time).hub h).consumers hm' ho' (fresh_post b h time)
  obtain ⟨es, he, hpub, hcalls, hother⟩ := ht.events
  unfold notifyWith
  constructor
  case frame => exact (hp.trans ht.frame).trans (Frame.modifyHub _ ⟨rfl, rfl, rfl, rfl⟩)
  case kept =>
    refine ⟨(passWith nested h (b.post h time) ((b.post h time).hub h).consumers).2, ?_⟩
    rw [hub_modifyHub, if_pos rfl, ht.hub, hub_post, if_pos rfl]
  case others =>
    intro k hk
    rw [hub_modifyHub, if_neg (Ne.symm hk), ht.hub, hub_post, if_neg (Ne.symm hk)]
  case leaf =>
    intro l hl hr
    show (passWith nested h _ _).1.leaf l = _
    rw [ht.leaf l (by rw [(hp.leaf l).sort]; exact hl), leaf_post,
      leaf_stamp_of_not_isReserved b h time hr]
  case disk =>
    show (passWith nested h _ _).1.disk = _
    rw [ht.disk, disk_post]
  case observed => exact ht.observed ho'
  case events =>
    refine ⟨[.published h (b.posted h time) (b.postedLine h time)] ++ es, ?_, ?_, ?_,
      fun k hk => ⟨?_, ?_⟩⟩
    · show (passWith nested h _ _).1.events = _
      rw [he, events_post, List.append_assoc]
    · rw [published_append, hpub]
      simp [published]
    · rw [calls_append, hcalls, consumers_post]
      rfl
    · rw [published_append, hpub]
      simp [published, Ne.symm hk]
    · rw [calls_append, hother k hk]
      rfl

theorem publish_observed (hm : (b.leaf b.registry.sendMeter).sort = .meter) (ho : Observed b)
    (h : HubId) (time : Timestamp) :
    PublishedAlone b (b.publish h time) h (b.posted h time) (b.postedLine h time) := by
  unfold publish
  -- consumers that only observe publish nothing, so the depth does not matter
  cases b.unrest with
  | zero => exact post_notify_observed hm ho h time
  | succ n => exact post_notify_observed hm ho h time

end Board

end Switchboard
