import Switchboard.Proofs.Registration
import Switchboard.Proofs.History
import Switchboard.Proofs.Queues

/-!
# The stream of messages and the log

A channel or session that stays subscribed and loses nothing gets one message for each line of a
hub. The messages are the lines, unless a session ends while the consumer is behind: then a hub
whose text shows the number of open connections has moved on before the consumer is told. When
several workers share a commit, a volatile hub can move on as well, if another touched hub stamps
one of its leaves.

* `finishBy_messagesMatch`: what is heard of a commit that several workers share, and what it
  writes.
* `pushed_eq_logged`: what is heard in an execution.
-/

namespace Switchboard

theorem noEnd_of_hub? {es : List Event} (he : ∀ e ∈ es, ∃ k, e.hub? = some k) : NoEnd es := by
  intro e hm
  obtain ⟨k, hk⟩ := he e hm
  cases e with
  | ended s => cases hk
  | _ => rfl

/-- What happened about other hubs is neither a line nor a message of a hub. -/
theorem silent_of_hub? {c : ConsumerId} {h : HubId} {es : List Event}
    (he : ∀ e ∈ es, e.hub? ≠ some h) : Silent c h es := by
  refine silent_of_forall fun e hm => ?_
  have hne := he e hm
  cases e with
  | published k s line => exact decide_eq_false fun hk => hne (congrArg some hk)
  | queued d k text => exact decide_eq_false fun hk => hne (congrArg some hk.2)
  | _ => rfl

namespace Board

variable {start b b' : Board} {c : ConsumerId} {h k : HubId} {time : Timestamp} {st : Stage}
  {tx : Transaction}

/-! ### What keeps the text of a hub -/

theorem isArray_and_values_of_face (hf : Frame b b') {l : LeafId}
    (hl : (b'.leaf l).face = (b.leaf l).face) :
    (b'.leaf l).isArray = (b.leaf l).isArray ∧ (b'.leaf l).values = (b.leaf l).values :=
  ⟨(hf.leaf l).isArray, by rw [← Leaf.values_face, hl, Leaf.values_face]⟩

/-- A hub whose leaves keep their faces renders the same. -/
theorem liveText_of_face (hs : (b.hub h).table.IsSlotted) (hf : Frame b b')
    (hl : ∀ l ∈ (b.hub h).table.leaves, (b'.leaf l).face = (b.leaf l).face) :
    b'.liveText h = b.liveText h :=
  render_capture_congr hs (hf.hub h).table
    (fun l hm => isArray_and_values_of_face hf (hl l hm)) b.wall b'.wall

/-- A hub that stays as it is shows the same, if its leaves keep their faces or it is not
volatile. -/
theorem text_of_face (hs : (b.hub h).table.IsSlotted) (hfresh : b.Fresh h) (hf : Frame b b')
    (hh : b'.hub h = b.hub h) (hl : (b.hub h).isVolatile = true → ∀ l ∈ (b.hub h).table.leaves,
      (b'.leaf l).face = (b.leaf l).face) : b'.text h = b.text h :=
  text_of_same hs hfresh (hf.hub h) (by rw [hh]) fun hv l hm =>
    isArray_and_values_of_face hf (hl hv l hm)

/-! ### Commits that several workers share -/

/-- What a listener has heard on the way of a publication, by what happened so far. Whether it is
told the line depends on `same`: whether the hub goes on to show what it captured. -/
def MessagesSoFar (same : Prop) (start : Board) (c : ConsumerId) (h : HubId) (b : Board)
    (es : List Event) : Stage → Prop
  | .waiting | .instant | .stamped => Silent c h es
  | .captured _ line | .logged _ line =>
    Silent c h es ∧ (same → (start.hub h).isVolatile = true → b.liveText h = line)
  | .telling left _ => ∃ line, lines h es = [line] ∧ left.Nodup ∧
    (same → b.text h = (start.hub h).wrap line) ∧
    (c ∈ left ∧ messages c h es = [] ∨
      c ∉ left ∧ ∃ text, messages c h es = [text] ∧ (same → text = (start.hub h).wrap line))
  | .done => ∃ line text, lines h es = [line] ∧ messages c h es = [text] ∧
    (same → text = (start.hub h).wrap line)

/-- What is in the file of a hub on the way of its publication. The line is written before it is
noted that the hub published it. -/
def FiledSoFar (start : Board) (h : HubId) (f : FileId) (b : Board) (es : List Event) : Stage → Prop
  | .waiting | .instant | .stamped | .captured .. =>
    lines h es = [] ∧ b.disk.content f = start.disk.content f
  | .logged _ line =>
    lines h es = [] ∧ b.disk.content f = start.disk.content f ++ Lines.write line
  | .telling .. | .done =>
    b.disk.content f = start.disk.content f ++ (lines h es).flatMap Lines.write

/-- **What came of the publication of a hub so far**: what a listener heard, and what is in the
file. -/
structure SoFar (same : Prop) (start : Board) (c : ConsumerId) (h : HubId) (b : Board)
    (st : Stage) : Prop where
  receiving : (b.consumer c).isReceiving = true
  happened : ∃ es, b.events = start.events ++ es ∧ NoEnd es ∧
    (.lost c h ∉ es → MessagesSoFar same start c h b es st) ∧
    ∀ f, (start.hub h).file? = some f → FiledSoFar start h f b es st

variable {same : Prop}

theorem Underway.isSlotted (hu : Underway start h b st) (hb : Sound start) :
    (b.hub h).table.IsSlotted := by
  rw [(hu.frame.hub h).table]
  exact hb.slotted h

/-- What happened about other hubs changes nothing of what was heard. -/
theorem MessagesSoFar.append {es fs : List Event} (x : MessagesSoFar same start c h b es st)
    (hs : Silent c h fs) (hlive : same → (start.hub h).isVolatile = true →
      b'.liveText h = b.liveText h)
    (htext : ∀ left gone, st = .telling left gone → same → b'.text h = b.text h) :
    MessagesSoFar same start c h b' (es ++ fs) st := by
  have hlines : lines h (es ++ fs) = lines h es := by rw [lines_append, hs.1, List.append_nil]
  have hmessages : messages c h (es ++ fs) = messages c h es := by
    rw [messages_append, hs.2, List.append_nil]
  cases st with
  | waiting | instant | stamped => exact Silent.append x hs
  | captured s line | logged s line =>
    exact ⟨x.1.append hs, fun hsame hv => (hlive hsame hv).trans (x.2 hsame hv)⟩
  | telling left gone =>
    obtain ⟨line, hline, hn, hsame, htold⟩ := x
    refine ⟨line, hlines.trans hline, hn, fun hx => (htext _ _ rfl hx).trans (hsame hx), ?_⟩
    rwa [hmessages]
  | done =>
    show ∃ line text, lines h (es ++ fs) = [line] ∧ messages c h (es ++ fs) = [text] ∧ _
    rw [hlines, hmessages]
    exact x

theorem FiledSoFar.append {f : FileId} {es fs : List Event} (x : FiledSoFar start h f b es st)
    (hs : lines h fs = []) (hf : b'.disk.content f = b.disk.content f) :
    FiledSoFar start h f b' (es ++ fs) st := by
  have hlines : lines h (es ++ fs) = lines h es := by rw [lines_append, hs, List.append_nil]
  cases st with
  | waiting | instant | stamped | captured | logged => exact ⟨hlines.trans x.1, hf.trans x.2⟩
  | telling left gone | done =>
    show b'.disk.content f = _ ++ (lines h (es ++ fs)).flatMap _
    rw [hlines]
    exact hf.trans x

/-- **A step of another hub** changes nothing of it, as long as it stamps no leaf that a volatile
hub shows. -/
theorem SoFar.other (hb : Sound start) (hne : k ≠ h)
    (hsame : same → (start.hub h).isVolatile = true →
      ∀ l ∈ (start.hub h).table.leaves, (start.hub k).table.isReserved l = false)
    {r : Stage} (hk : Underway start k b r) (hh : Underway start h b st)
    (x : SoFar same start c h b st) : SoFar same start c h (b.publishStep k time r).1 st := by
  obtain ⟨es, hes, hnoEnd, hsofar, hfiled⟩ := x.happened
  have hw := within_publishStep hb.meter hk time
  have hev := events_publishStep hb.meter hk time
  have hsilent : Silent c h (b.stepEvents k r) := silent_of_hub? fun e hm => by
    rw [hub?_stepEvents e hm]
    exact fun he => hne (Option.some.inj he)
  have hslotted := hh.isSlotted hb
  have hface : same → (start.hub h).isVolatile = true → ∀ l ∈ (b.hub h).table.leaves,
      ((b.publishStep k time r).1.leaf l).face = (b.leaf l).face := by
    intro hx hv l hm
    rw [(hh.frame.hub h).table] at hm
    exact hw.face l fun j hj => List.mem_singleton.1 hj ▸ hsame hx hv l hm
  refine ⟨(isReceiving_publishStep hb.meter hk time c).trans x.receiving, es ++ b.stepEvents k r,
    by rw [hev, hes, List.append_assoc], noEnd_append.2 ⟨hnoEnd, noEnd_of_hub? fun e hm =>
      ⟨k, hub?_stepEvents e hm⟩⟩, fun hlost => ?_, fun f hf => ?_⟩
  · refine (hsofar fun hm => hlost (List.mem_append_left _ hm)).append hsilent
      (fun hx hv => liveText_of_face hslotted hw.frame (hface hx hv)) fun left gone he hx => ?_
    refine text_of_face hslotted (hh.telling left gone he).2 hw.frame ?_ fun hv => ?_
    · exact hw.hub h fun hm => hne (List.mem_singleton.1 hm).symm
    · exact hface hx ((hh.frame.hub h).isVolatile ▸ hv)
  · exact (hfiled f hf).append hsilent.1
      (hw.file f fun j hj hfj => hne (hb.files_apart (List.mem_singleton.1 hj ▸ hfj) hf))

/-- Nothing is noted before the line is logged. -/
theorem lines_stepEvents (hst : ∀ s line, st ≠ .logged s line) :
    lines h (b.stepEvents h st) = [] := by
  have hp : published h (b.stepEvents h st) = [] := by
    refine published_of_quiet h fun e he => ?_
    cases hpub : e.publication? with
    | none => rfl
    | some p =>
      cases e with
      | published k s line => exact absurd (published_stepEvents he).2 (hst s line)
      | _ => cases hpub
  rw [lines, hp]
  rfl

/-- **The line is written** in the step in which it is logged, and noted in the next one. -/
theorem FiledSoFar.step {f : FileId} {es : List Event} (hb : Sound start)
    (hf : (start.hub h).file? = some f) (hu : Underway start h b st)
    (x : FiledSoFar start h f b es st) : FiledSoFar start h f (b.publishStep h time st).1
      (es ++ b.stepEvents h st) (b.publishStep h time st).2 := by
  cases st with
  | waiting | instant | stamped =>
    rw [show b.stepEvents h _ = [] from rfl, List.append_nil]
    exact x
  | captured s line =>
    rw [show b.stepEvents h _ = [] from rfl, List.append_nil]
    refine ⟨x.1, ?_⟩
    have hfile : (b.hub h).file? = some f := by
      rw [Hub.file?, (hu.frame.hub h).series]
      exact hf
    show (b.log h line).disk.content f = _
    rw [disk_log, Hub.content_logged, if_pos hfile, x.2]
  | logged s line =>
    show b.disk.content f = _ ++ (lines h (es ++ [.published h s line])).flatMap _
    rw [lines_append, x.1, lines, published_one, if_pos rfl]
    exact x.2.trans (by simp)
  | telling left gone =>
    cases left with
    | nil => exact x.append rfl rfl
    | cons d ds =>
      obtain ⟨hl, hfresh⟩ := hu.telling _ gone rfl
      have hr := (informs publish (hu.sendMeter hb.meter)
        (hu.observes d (hl d List.mem_cons_self)) hfresh).reacts
      have hquiet : lines h (b.stepEvents h (.telling (d :: ds) gone)) = [] :=
        lines_stepEvents (by rintro _ _ ⟨⟩)
      exact (show FiledSoFar start h f b es (.telling ds _) from x).append hquiet
        (by rw [← hr.disk]; rfl)
  | done => exact x.append rfl rfl

/-- **The line is noted**, and the hub goes on to show what it captured: from now on it does so by
the text that it keeps, or if it is volatile by its leaves. -/
theorem MessagesSoFar.log {es : List Event} {s : Snapshot} {line : String} (hb : Sound start)
    (hc : c ∈ (start.hub h).consumers) (hu : Underway start h b (.logged s line))
    (x : MessagesSoFar same start c h b es (.logged s line)) :
    MessagesSoFar same start c h ((b.keep h s line).note (.published h s line))
      (es ++ [.published h s line])
      (.telling (((b.keep h s line).note (.published h s line)).hub h).consumers []) := by
  obtain ⟨hsilent, hlive⟩ := x
  have hframe := (Frame.keep b h s line).trans (Frame.note _ (.published h s line))
  have hwrap : (b.hub h).wrap = (start.hub h).wrap := hu.frame.outline.wrap h
  have hkept : ((b.keep h s line).note (.published h s line)).hub h = (b.hub h).kept s line := by
    rw [hub_note, keep, hub_modifyHub, if_pos rfl]
    rfl
  have hleft : (((b.keep h s line).note (.published h s line)).hub h).consumers =
      (start.hub h).consumers := by
    rw [hkept]
    exact hu.consumers (by rintro ⟨⟩)
  refine ⟨line, ?_, ?_, fun hx => ?_, .inl ⟨?_, ?_⟩⟩
  · rw [lines_append, hsilent.1, lines, published_one, if_pos rfl]
    rfl
  · rw [hleft]
    exact hb.once h
  · cases hv : (b.hub h).isVolatile with
    | true =>
      rw [text_of_volatile (by rw [hkept]; exact hv), hframe.outline.wrap h, hwrap,
        liveText_of_face (hu.isSlotted hb) hframe fun _ _ => rfl,
        hlive hx ((hu.frame.hub h).isVolatile ▸ hv)]
    | false =>
      rw [← hwrap]
      exact text_of_wrapped (by rw [hkept]; exact hv) (by rw [hkept]; rfl)
  · rw [hleft]
    exact hc
  · rw [messages_append, hsilent.2]
    rfl

/-- **A consumer is told**: the listener gets the text that the hub shows, and of what others get it
hears nothing. -/
theorem MessagesSoFar.tell {es : List Event} {d : ConsumerId} {ds gone : List ConsumerId}
    (hb : Sound start) (hrec : (b.consumer c).isReceiving = true)
    (hu : Underway start h b (.telling (d :: ds) gone))
    (hlost : .lost c h ∉ b.stepEvents h (.telling (d :: ds) gone))
    (x : MessagesSoFar same start c h b es (.telling (d :: ds) gone)) :
    MessagesSoFar same start c h (b.publishStep h time (.telling (d :: ds) gone)).1
      (es ++ b.stepEvents h (.telling (d :: ds) gone))
      (b.publishStep h time (.telling (d :: ds) gone)).2 := by
  obtain ⟨line, hline, hnodup, hshown, htold⟩ := x
  obtain ⟨hl, hfresh⟩ := hu.telling _ gone rfl
  have hr := (informs publish (hu.sendMeter hb.meter)
    (hu.observes d (hl d List.mem_cons_self)) hfresh).reacts
  obtain ⟨hd, hnodup⟩ := List.nodup_cons.1 hnodup
  have hquiet : lines h (b.stepEvents h (.telling (d :: ds) gone)) = [] :=
    lines_stepEvents (by rintro _ _ ⟨⟩)
  refine ⟨line, by rw [lines_append, hline, hquiet]; rfl, hnodup, fun hx => ?_, ?_⟩
  · refine (text_of_face (hu.isSlotted hb) hfresh (hr.frame.trans (Frame.note _ _)) (hr.hub h)
      fun _ l _ => hr.face l).trans (hshown hx)
  · by_cases hdc : d = c
    · subst hdc
      obtain ⟨-, hm⟩ | ⟨hm, -⟩ := htold
      · refine .inr ⟨hd, b.text h, ?_, hshown⟩
        rw [messages_append, hm, stepEvents]
        rcases Consumer.events_react_of_isReceiving hrec d h (b.texts h) with he | he
        · rw [he]
          exact messages_queued d h (b.text h) _
        · refine absurd ?_ hlost
          rw [stepEvents, he]
          exact List.mem_cons_self
      · exact absurd List.mem_cons_self hm
    -- another consumer is told
    · have hother : messages c h (b.stepEvents h (.telling (d :: ds) gone)) = [] := by
        rw [stepEvents, messages_append]
        rcases Consumer.events_react (b.consumer d) d h (b.texts h) with he | he | he <;>
          rw [he] <;> simp [messages, hdc]
      have hmem : c ∈ d :: ds ↔ c ∈ ds := by
        rw [List.mem_cons]
        exact or_iff_right fun he => hdc he.symm
      rw [messages_append, hother, List.append_nil, ← hmem]
      exact htold

/-- **What is heard in a step**: the message to the listener has the text that the hub shows
then. -/
theorem MessagesSoFar.step {es : List Event} (hb : Sound start) (hc : c ∈ (start.hub h).consumers)
    (hrec : (b.consumer c).isReceiving = true) (hu : Underway start h b st)
    (hlost : .lost c h ∉ b.stepEvents h st) (x : MessagesSoFar same start c h b es st) :
    MessagesSoFar same start c h (b.publishStep h time st).1 (es ++ b.stepEvents h st)
      (b.publishStep h time st).2 := by
  cases st with
  | waiting | instant =>
    rw [show b.stepEvents h _ = [] from rfl, List.append_nil]
    exact x
  | stamped =>
    rw [show b.stepEvents h _ = [] from rfl, List.append_nil]
    exact ⟨x, fun _ _ =>
      render_capture_congr (hu.isSlotted hb) rfl (fun _ _ => ⟨rfl, rfl⟩) time b.wall⟩
  | captured s line =>
    rw [show b.stepEvents h _ = [] from rfl, List.append_nil]
    exact ⟨x.1, fun hx hv => (liveText_of_face (hu.isSlotted hb) (Frame.log b h line)
      fun l _ => by rw [leaf_log]).trans (x.2 hx hv)⟩
  | logged s line => exact x.log hb hc hu
  | telling left gone =>
    cases left with
    | nil =>
      obtain ⟨line, hline, -, -, htold⟩ := x
      obtain ⟨hm, -⟩ | ⟨-, text, hm, ht⟩ := htold
      · cases hm
      · exact ⟨line, text, by rw [lines_append, hline]; rfl, by rw [messages_append, hm]; rfl, ht⟩
    | cons d ds => exact x.tell hb hrec hu hlost
  | done =>
    rw [show b.stepEvents h _ = [] from rfl, List.append_nil]
    exact x

/-- **A step of the hub itself.** -/
theorem SoFar.own (hb : Sound start) (hc : c ∈ (start.hub h).consumers)
    (hu : Underway start h b st) (x : SoFar same start c h b st) :
    SoFar same start c h (b.publishStep h time st).1 (b.publishStep h time st).2 := by
  obtain ⟨es, hes, hnoEnd, hsofar, hfiled⟩ := x.happened
  refine ⟨(isReceiving_publishStep hb.meter hu time c).trans x.receiving, es ++ b.stepEvents h st,
    by rw [events_publishStep hb.meter hu time, hes, List.append_assoc],
    noEnd_append.2 ⟨hnoEnd, noEnd_of_hub? fun e hm => ⟨h, hub?_stepEvents e hm⟩⟩,
    fun hlost => ?_, fun f hf => (hfiled f hf).step hb hf hu⟩
  rw [List.mem_append, not_or] at hlost
  exact (hsofar hlost.1).step hb hc x.receiving hu hlost.2

/-! ### What is heard of an operation -/

/-- A publication makes nobody a listener. -/
theorem publishStep_listens (hp : PlansWithin Unplanned b) (held : b.isHubHeld k = true)
    (hl : (b.publishStep k time st).1.Listens c h) : b.Listens c h := by
  cases st with
  | waiting | instant | stamped | done => exact hl
  | captured s line =>
    obtain ⟨hc, hr⟩ := hl
    change c ∈ ((b.log k line).hub h).consumers at hc
    change ((b.log k line).consumer c).isReceiving = true at hr
    rw [hub_log] at hc
    rw [consumer_log] at hr
    exact ⟨hc, hr⟩
  | logged s line => exact Listens.of_modifyHub (fun d hd => hd) hl
  | telling left gone =>
    cases left with
    | nil => exact Move.listens (.leave k gone held) hl
    | cons d ds =>
      have m := informWith_moves (publish_moves Unplanned) hp d held
      exact Moves.listens (m.tail (.inform d k (b.informWith publish d k).2)) hl

/-- **What is heard of a commit that several workers share**, and what it writes. No session ends in
it, and a listener gets one message for each line. They are the wrapped lines if no touched hub
stamps a leaf that a volatile hub shows. -/
theorem finishBy_messagesMatch (hb : Regular b) (hp : PlansWithin Unplanned b)
    (ht : b.transaction = some tx)
    (ho : b.OnlyObserved tx.hubs) {workers : Nat} {schedule : List Nat} {r : Board × Nat}
    (hr : b.finishBy workers schedule = some r) (hl : r.1.Listens c h)
    (hlost : .lost c h ∉ news b r.1) : NoEnd (news b r.1) ∧
      (∀ f, (b.hub h).file? = some f → r.1.disk.content f =
        b.disk.content f ++ (lines h (news b r.1)).flatMap Lines.write) ∧
      (messages c h (news b r.1)).length = (lines h (news b r.1)).length ∧
      (((b.hub h).isVolatile = true → b.LeavesApart h tx.hubs) →
        messages c h (news b r.1) = (lines h (news b r.1)).map (b.hub h).wrap) := by
  have hs := hb.sound
  have hlistens : b.Listens c h := by
    obtain ⟨d, ⟨-, hd⟩, he⟩ := finishBy_of (Q := fun d => d.Listens c h → b.Listens c h) hs hp ht
      (hb.touched.nodup ht) id
      (fun d k s held x hd hl => hd (publishStep_listens x.plans held hl)) hr
    rw [he] at hl
    exact hd hl
  obtain ⟨d, rfl, hw, hall⟩ := finishBy_each
    (P := fun k d st => k = h → SoFar
      ((b.hub h).isVolatile = true → b.LeavesApart h tx.hubs) b c k d st)
    hs ht (hb.touched.nodup ht) ho
    (fun k _ hkh => ⟨hlistens.2, [], (List.append_nil _).symm, (fun _ he => nomatch he),
      fun _ => ⟨rfl, rfl⟩, fun _ _ => ⟨rfl, rfl⟩⟩)
    (fun k _ d st hu x hkh => (x hkh).own hs (hkh ▸ hlistens.1) hu)
    (fun j hj k _ hne d q st hu hu' x hkh => by
      subst hkh
      exact (x rfl).other hs (Ne.symm hne) (fun hx hv => hx hv j hj (Ne.symm hne)) hu hu') hr
  obtain ⟨fs, hfs, hof, -⟩ := hw.events
  have hnews : news b { d with transaction := none } = fs := news_of_events hfs
  rw [hnews] at hlost ⊢
  by_cases hh : h ∈ tx.hubs
  · obtain ⟨es, hes, hnoEnd, hsofar, hfiled⟩ := (hall h hh rfl).happened
    obtain rfl : es = fs := List.append_cancel_left (hes.symm.trans hfs)
    obtain ⟨line, text, hline, hmessage, hsame⟩ := hsofar hlost
    refine ⟨hnoEnd, hfiled, by rw [hline, hmessage]; rfl, fun hx => ?_⟩
    rw [hline, hmessage, hsame hx]
    rfl
  -- nothing happened about a hub that was not touched
  · have hsilent : Silent c h fs := silent_of_hub? fun e hm he => by
      obtain ⟨k, hk, hek⟩ := hof e hm
      exact hh (Option.some.inj (he.symm.trans hek) ▸ hk)
    have hnoEnd : NoEnd fs := noEnd_of_hub? fun e hm => (hof e hm).imp fun _ he => he.2
    rw [hsilent.1, hsilent.2]
    refine ⟨hnoEnd, fun f hf => ?_, rfl, fun _ => rfl⟩
    rw [List.flatMap_nil, List.append_nil]
    exact hw.file f fun k hk hfk => hh (hs.files_apart hfk hf ▸ hk)

/-- A volatile hub with a listener, and another hub that has a cell of it in the slot of the
milliseconds. Both are touched, and there are two workers. -/
def slotShared : Board :=
  (Board.start { givenWorkers := 2, cores := 2 } default {}).run
    [.openHub (Name.hubName "r"), .openHub (Name.hubName "s"), .makeLeaf "v" .scalar "v",
      .addLeaf ⟨1⟩ "http://x/v" ⟨8⟩, .addLeaf ⟨2⟩ (Name.Reserved.predicate .instant) ⟨8⟩,
      .setVolatile ⟨1⟩, .listen "c" 4, .subscribe ⟨1⟩ ⟨0⟩, .openTransaction .batch, .touch ⟨1⟩,
      .touch ⟨2⟩]

/-- The turns of the workers. The second one begins when the first one has logged its line. -/
def lateTurns : List Nat := [0, 0, 0, 0, 0, 1, 0, 0, 1, 1, 1, 1, 1]

/-- The other hub stamps the cell between the line and the message. So the message shows a time
where the line shows none. -/
theorem finishBy_messagesMatch_slotShared :
    slotShared.OnlyObserved slotShared.sharedHubs ∧
    ¬slotShared.LeavesApart ⟨1⟩ slotShared.sharedHubs ∧
    ∃ r, slotShared.finishBy 2 lateTurns = some r ∧
      (lines ⟨1⟩ (news slotShared r.1)).length = 1 ∧
      (messages ⟨0⟩ ⟨1⟩ (news slotShared r.1)).length = 1 ∧
      messages ⟨0⟩ ⟨1⟩ (news slotShared r.1) ≠
        (lines ⟨1⟩ (news slotShared r.1)).map (slotShared.hub ⟨1⟩).wrap := by
  obtain ⟨r, hr⟩ : ∃ r, slotShared.finishBy 2 lateTurns = some r :=
    Option.isSome_iff_exists.1 (by decide +kernel)
  have hr1 : r.1 = ((slotShared.finishBy 2 lateTurns).getD default).1 := by
    rw [hr]
    rfl
  refine ⟨by decide +kernel, by decide +kernel, r, hr, ?_⟩
  rw [hr1]
  decide +kernel

/-- A hub with a consumer is there. -/
theorem index_lt_of_mem_consumers (hc : c ∈ (b.hub h).consumers) : h.index < b.hubs.size := by
  by_contra hn
  rw [hub_of_size_le (Nat.le_of_not_lt hn)] at hc
  cases hc

/-- **What is heard of an operation**, and what it writes, whoever makes the commits. -/
theorem Performs.messagesMatch (hb : Regular b) (hp : PlansWithin Unplanned b) {op : Op}
    (x : b.Performs op b') (ho : op = .finish → b.OnlyObserved b.sharedHubs)
    (hl : b'.Listens c h) (hlost : .lost c h ∉ news b b') :
    (∀ f, (b'.hub h).file? = some f → b'.disk.content f =
      b.disk.content f ++ (lines h (news b b')).flatMap Lines.write) ∧
    (messages c h (news b b')).length = (lines h (news b b')).length ∧
    ((b.IsExposed h → Calm c h (news b b')) → (op = .finish → (b.hub h).isVolatile = true →
        b.LeavesApart h b.sharedHubs) →
      messages c h (news b b') = (lines h (news b b')).map (b'.hub h).wrap) ∧
    (b.ShowsCount h → b.CountFits → b'.CountFits →
      messages c h (news b b') = (lines h (news b b')).map (b'.hub h).wrap →
        Calm c h (news b b')) := by
  rcases performs_cases hb.sound x with rfl | ⟨tx, schedule, r, rfl, ht, hhubs, hr, rfl⟩
  · obtain ⟨hlen, haligned, hexact⟩ := step_messagesMatch hb.sound hp hl hlost
    refine ⟨fun f hf => ?_, hlen, fun hc _ => haligned hc, hexact⟩
    have hwritten := ChangesBy.content (step_changes hb.sound op) hb.sound f
    rwa [(step_sound hb.sound op).fileLines_eq hf] at hwritten
  · rw [hhubs] at ho ⊢
    obtain ⟨hnoEnd, hfile, hlen, haligned⟩ := finishBy_messagesMatch hb hp ht (ho rfl) hr hl hlost
    obtain ⟨d, ⟨y, -⟩, he⟩ := finishBy_of (Q := fun _ => True) hb.sound hp ht (hb.touched.nodup ht)
      trivial (fun _ _ _ _ _ _ => trivial) hr
    have ha : Hub.Alike (b.hub h) (r.1.hub h) := by
      rw [he]
      exact y.frame.hub h
    have hsame : (r.1.hub h).file? = (b.hub h).file? := by rw [Hub.file?, Hub.file?, ha.series]
    rw [Hub.wrap_congr ha.name, hsame]
    exact ⟨hfile, hlen, fun _ hx => haligned (hx rfl), fun _ _ _ _ => calm_of_noEnd hnoEnd⟩

/-- A hub keeps its name and its series for good. -/
theorem Performs.lasting (hb : Regular b) {op : Op} (x : b.Performs op b')
    (hh : h.index < b.hubs.size) : (b'.hub h).name = (b.hub h).name ∧
      (b'.hub h).series = (b.hub h).series ∧ h.index < b'.hubs.size := by
  rcases performs_cases hb.sound x with rfl | ⟨tx, schedule, r, -, ht, -, hr, rfl⟩
  · exact ChangesBy.lasting (step_changes hb.sound op) hh
  · obtain ⟨d, ⟨y, -⟩, he⟩ := finishBy_of (Q := fun _ => True) hb.sound (plansWithin_true b) ht
      (hb.touched.nodup ht) trivial (fun _ _ _ _ _ _ => trivial) hr
    rw [he]
    exact ⟨(y.frame.hub h).name, (y.frame.hub h).series, Nat.lt_of_lt_of_le hh y.frame.hubCount⟩

theorem not_hungUp_of_listens (hl : b.Listens c h) : ¬b.HungUp c := by
  have hr := hl.2
  rw [HungUp]
  cases hx : b.consumer c with
  | observer o =>
    rw [hx] at hr
    cases hr
  | channel q =>
    rw [hx] at hr
    change q.receiving = true at hr
    simp [Consumer.hungUp, Consumer.queue?, hr]
  | session s =>
    rw [hx] at hr
    have hq := (Bool.and_eq_true_iff.1 hr).2
    simp [Consumer.hungUp, Consumer.queue?, hq]

end Board

/-! ### Executions -/

namespace Executes

open Board (Regular PlansWithin news)

variable {b b' : Board} {c : ConsumerId} {h : HubId} {steps : List Step}

theorem lasting (he : Executes b steps b') (hb : Regular b) (hh : h.index < b.hubs.size) :
    (b'.hub h).name = (b.hub h).name ∧ (b'.hub h).series = (b.hub h).series := by
  induction he with
  | nil b => exact ⟨rfl, rfl⟩
  | cons performs rest ih =>
    obtain ⟨hn, hs, hi⟩ := performs.lasting hb hh
    obtain ⟨hn', hs'⟩ := ih (performs.regular hb) hi
    exact ⟨hn'.trans hn, hs'.trans hs⟩

/-- **What is heard in an execution.** -/
theorem messagesMatch (he : Executes b steps b') (hb : Regular b) (hp : PlansWithin Unplanned b)
    (hops : ∀ t ∈ steps, t.op.PlansWithin Unplanned)
    (ho : ∀ t ∈ steps, t.op = .finish → t.before.OnlyObserved t.before.sharedHubs)
    (stays : ∀ t ∈ steps, t.after.Listens c h) (room : .lost c h ∉ news b b') :
    (∀ f, (b'.hub h).file? = some f → b'.disk.content f =
      b.disk.content f ++ (lines h (news b b')).flatMap Lines.write) ∧
    (messages c h (news b b')).length = (lines h (news b b')).length ∧
    ((∀ t ∈ steps, (t.before.IsExposed h → Calm c h t.news) ∧ (t.op = .finish →
        (t.before.hub h).isVolatile = true → t.before.LeavesApart h t.before.sharedHubs)) →
      messages c h (news b b') = (lines h (news b b')).map (b'.hub h).wrap) ∧
    ((∀ t ∈ steps, t.before.CountFits ∧ t.after.CountFits) →
      messages c h (news b b') = (lines h (news b b')).map (b'.hub h).wrap →
        ∀ t ∈ steps, t.before.ShowsCount h → Calm c h t.news) := by
  induction he with
  | nil b =>
    rw [Board.news_self]
    exact ⟨fun f _ => (List.append_nil _).symm, rfl, fun _ => rfl, fun _ _ t ht => nomatch ht⟩
  | @cons b m b' op steps performs rest ih =>
    have hnews : news b b' = news b m ++ news m b' :=
      (Executes.cons performs rest).news_cons hb
    rw [hnews, List.mem_append, not_or] at room
    obtain ⟨hl, stays⟩ := List.forall_mem_cons.1 stays
    obtain ⟨ho, horest⟩ := List.forall_mem_cons.1 ho
    obtain ⟨hop, hops⟩ := List.forall_mem_cons.1 hops
    -- the first step and the rest of the execution, each with its own lines and messages
    obtain ⟨hfile1, hlen1, hal1, hex1⟩ := performs.messagesMatch hb hp ho hl room.1
    obtain ⟨hfile2, hlen2, hal2, hex2⟩ := ih (performs.regular hb) (performs.plans hb hop hp) hops
      horest stays room.2
    -- the id and the file of the hub do not change any more
    obtain ⟨hname, hseries⟩ := rest.lasting (performs.regular hb)
      (Board.index_lt_of_mem_consumers hl.1)
    have hwrap : (b'.hub h).wrap = (m.hub h).wrap := Hub.wrap_congr hname
    have hsame : (m.hub h).file? = (b'.hub h).file? := by rw [Hub.file?, Hub.file?, hseries]
    rw [hnews, messages_append, lines_append, List.map_append]
    refine ⟨fun f hf => ?_, ?_, fun hc => ?_, fun hfits hm => ?_⟩
    · rw [hfile2 f hf, hfile1 f (hsame.trans hf), List.flatMap_append, List.append_assoc]
    · rw [List.length_append, List.length_append, hlen1, hlen2]
    · obtain ⟨hc, hrest⟩ := List.forall_mem_cons.1 hc
      rw [hal2 hrest, hwrap, hal1 hc.1 hc.2]
    · obtain ⟨hfits, hrest⟩ := List.forall_mem_cons.1 hfits
      obtain ⟨he1, he2⟩ := List.append_inj hm (by rw [List.length_map, hlen1])
      exact List.forall_mem_cons.2 ⟨fun hs => hex1 hs hfits.1 hfits.2 (hwrap ▸ he1), hex2 hrest he2⟩

/-- Who listens after each step listens in the end. -/
theorem listens (he : Executes b steps b') (stays : ∀ t ∈ steps, t.after.Listens c h) :
    steps = [] ∨ b'.Listens c h := by
  induction he with
  | nil b => exact .inl rfl
  | cons performs rest ih =>
    obtain ⟨hl, stays⟩ := List.forall_mem_cons.1 stays
    right
    rcases ih stays with rfl | hl'
    · cases rest
      exact hl
    · exact hl'

end Executes

namespace Board

/-- **The push stream and the log**, in every execution, with any number of workers and in every
order of their steps. A channel or session listens to a hub after each step and loses nothing of it.
Where several workers share a commit, the consumers of the touched hubs only observe.

What the consumer receives and what waits for it in the end are, in this order, what waited first
and what was accepted since, and one message about the hub is accepted for each line that the hub
writes to its file. The messages are the wrapped lines if, where the text of the hub may change at
the end of a session, no session ends while the consumer is behind, and in a shared commit no other
touched hub stamps a leaf that a volatile hub shows. If the hub shows the number of open
connections, they are the wrapped lines only if no session ends while the consumer is behind. -/
theorem pushed_eq_logged (settings : Settings) (wall : Timestamp) {disk : Disk} (hd : disk.Sound)
    {before steps : List Step} {b b' : Board} (first : Executes (start settings wall disk) before b)
    (he : Executes b steps b') (hops : ∀ t ∈ before ++ steps, t.op.PlansWithin Unplanned)
    {c : ConsumerId} {h : HubId}
    (ho : ∀ t ∈ steps, t.op = .finish → t.before.OnlyObserved t.before.sharedHubs)
    (stays : ∀ t ∈ steps, t.after.Listens c h) (room : .lost c h ∉ news b b') :
    let es := news b b'
    let wrapped := (lines h es).map (b'.hub h).wrap
    (∀ f, (b'.hub h).file? = some f →
      b'.disk.content f = b.disk.content f ++ (lines h es).flatMap Lines.write) ∧
    (steps.flatMap (·.received c) ++ b'.waiting c =
        b.waiting c ++ (deliveries c es).map Prod.snd ∧
      messages c h es = ((deliveries c es).filter (·.1 = h)).map Prod.snd) ∧
    (messages c h es).length = (lines h es).length ∧
    ((∀ t ∈ steps, (t.before.IsExposed h → Calm c h t.news) ∧ (t.op = .finish →
        (t.before.hub h).isVolatile = true → t.before.LeavesApart h t.before.sharedHubs)) →
      messages c h es = wrapped) ∧
    ((∀ t ∈ steps, t.before.CountFits ∧ t.after.CountFits) → messages c h es = wrapped →
      ∀ t ∈ steps, t.before.ShowsCount h → Calm c h t.news) := by
  intro es wrapped
  obtain ⟨hbefore, hsteps⟩ := List.forall_mem_append.1 hops
  have h0 := regular_start settings wall hd
  -- on the board where the consumer begins to listen nothing is planned
  have hb : Regular b := (first.regular h0).1
  have hp : PlansWithin Unplanned b :=
    first.plans h0 (plansWithin_start settings wall disk _) hbefore
  obtain ⟨hfile, hrest⟩ := he.messagesMatch hb hp hsteps ho stays room
  refine ⟨hfile, ⟨?_, messages_eq_deliveries c h es⟩, hrest⟩
  rcases he.listens stays with rfl | hl
  · cases he
    show b.waiting c = b.waiting c ++ accepted c (news b b)
    rw [news_self]
    exact (List.append_nil _).symm
  · exact (he.received hb c).2 (not_hungUp_of_listens hl)

/-- A session with the system hub as its target, and a channel. -/
def connecting : List Op := [.connect "A" [⟨0⟩] 4, .listen "C" 8]

/-- The board with these two consumers. -/
def twoConsumers : Board := (start {} default {}).run connecting

/-- The channel is subscribed behind the session, the receiver of the session goes away, and the
number of open connections goes up. -/
def receiverGone : List Op := [.subscribe ⟨0⟩ ⟨1⟩, .dropReceiver ⟨0⟩, .increment ⟨2⟩]

/-- The session ends while the channel is behind. The lines show two connections and then one, the
messages one and one. -/
theorem pushed_eq_logged_receiverGone :
    let steps := twoConsumers.steps receiverGone
    let b' := twoConsumers.run receiverGone
    let es := news twoConsumers b'
    let wrapped := (lines ⟨0⟩ es).map (b'.hub ⟨0⟩).wrap
    (∀ t ∈ steps, t.after.Listens ⟨1⟩ ⟨0⟩) ∧
    .lost ⟨1⟩ ⟨0⟩ ∉ es ∧
    (b'.hub ⟨0⟩).file? = some ⟨0⟩ ∧
    (∀ t ∈ steps, t.before.CountFits ∧ t.after.CountFits) ∧
    messages ⟨1⟩ ⟨0⟩ es ≠ wrapped ∧
    (∀ f, (b'.hub ⟨0⟩).file? = some f →
      b'.disk.content f = twoConsumers.disk.content f ++ (lines ⟨0⟩ es).flatMap Lines.write) ∧
    (steps.flatMap (·.received ⟨1⟩) ++ b'.waiting ⟨1⟩ =
        twoConsumers.waiting ⟨1⟩ ++ (deliveries ⟨1⟩ es).map Prod.snd ∧
      messages ⟨1⟩ ⟨0⟩ es = ((deliveries ⟨1⟩ es).filter (·.1 = ⟨0⟩)).map Prod.snd) ∧
    (messages ⟨1⟩ ⟨0⟩ es).length = (lines ⟨0⟩ es).length ∧
    ((∀ t ∈ steps, (t.before.IsExposed ⟨0⟩ → Calm ⟨1⟩ ⟨0⟩ t.news) ∧ (t.op = .finish →
        (t.before.hub ⟨0⟩).isVolatile = true → t.before.LeavesApart ⟨0⟩ t.before.sharedHubs)) →
      messages ⟨1⟩ ⟨0⟩ es = wrapped) ∧
    ((∀ t ∈ steps, t.before.CountFits ∧ t.after.CountFits) → messages ⟨1⟩ ⟨0⟩ es = wrapped →
      ∀ t ∈ steps, t.before.ShowsCount ⟨0⟩ → Calm ⟨1⟩ ⟨0⟩ t.news) := by
  have hfirst : Executes (start {} default {})
    ((start {} default {}).steps connecting) twoConsumers :=
    executes_run (sound_start _ _ _ Disk.sound_empty) connecting
  have hrun : Executes twoConsumers (twoConsumers.steps receiverGone)
      (twoConsumers.run receiverGone) :=
    executes_run (run_sound (sound_start _ _ _ Disk.sound_empty) connecting) receiverGone
  have hops : ∀ t ∈ (start {} default {}).steps connecting ++ twoConsumers.steps receiverGone,
      t.op.PlansWithin Unplanned := by
    simp [connecting, receiverGone, steps, Op.PlansWithin]
  have ho : ∀ t ∈ twoConsumers.steps receiverGone,
      t.op = .finish → t.before.OnlyObserved t.before.sharedHubs := by
    simp [receiverGone, steps]
  have stays : ∀ t ∈ twoConsumers.steps receiverGone, t.after.Listens ⟨1⟩ ⟨0⟩ := by decide +kernel
  have room : .lost ⟨1⟩ ⟨0⟩ ∉ news twoConsumers (twoConsumers.run receiverGone) := by decide +kernel
  exact ⟨stays, room, by decide +kernel, by decide +kernel, by decide +kernel,
    pushed_eq_logged {} default Disk.sound_empty hfirst hrun hops ho stays room⟩

end Board

end Switchboard
