import Switchboard.Proofs.OperationDelivery

/-!
# The tally of sessions

A board counts its open sessions in a counter, and the messages that sessions accept in a meter.
`Board.TalliesSessions` compares both with the sessions themselves and with the journal: by how much
the counter is ahead of the open sessions, and the meter of the messages. To open and to end a
session, and to send it a message, moves first the one side and then the other, so both are even
again whenever a publication begins.

* `TalliesSessions.spared`: what neither opens nor ends a session, nor sends it a message, keeps the
  tally.
* `TalliesSessions.queue`, `TalliesSessions.finish`, `TalliesSessions.enter`: what does so moves it
  by one.
-/

namespace Switchboard

/-- What a counter or meter has counted. -/
def Leaf.tally (l : Leaf) : Int :=
  match l.body with
  | .counter n => n
  | .meter m => m.count
  | _ => 0

theorem Leaf.tally_writeAll (l : Leaf) (vs : List Literal) (time : Timestamp) :
    (l.writeAll vs time).tally = l.tally := by
  unfold tally writeAll
  cases hl : l.body with
  | counter n => rw [hl]
  | _ => rfl

namespace Consumer

/-- Whether a session is open. Other consumers are no sessions. -/
def alive? : Consumer → Option Bool
  | .session s => some s.alive
  | _ => none

/-- Whether a consumer is a session. -/
def isSession (x : Consumer) : Bool := x.alive?.isSome

/-- Whether a consumer is an open session. -/
def isOpen (x : Consumer) : Bool := x.alive? = some true

@[simp] theorem alive?_withQueue (x : Consumer) (q : Queue) :
    (x.withQueue q).alive? = x.alive? := by
  cases x <;> rfl

end Consumer

theorem countP_cons_toNat {α : Type} (p : α → Bool) (a : α) (xs : List α) :
    (a :: xs).countP p = xs.countP p + (p a).toNat := by
  rw [List.countP_cons]
  cases p a <;> rfl

/-- Cells that have a property, after one was put: one cell is exchanged for another. -/
theorem Store.countP_putCell {α : Type} [Inhabited α] (p : α → Bool) (hp : p default = false)
    (a : α) (i : Nat) (xs : List α) :
    (Store.putCell a i xs).countP p + (p (xs.getD i default)).toNat =
      xs.countP p + (p a).toNat := by
  induction i generalizing xs with
  | zero =>
    cases xs with
    | nil => simp [putCell, hp, countP_cons_toNat]
    | cons y ys =>
      simp only [putCell, countP_cons_toNat, List.getD_cons_zero]
      omega
  | succ i ih =>
    cases xs with
    | nil =>
      have hi := ih []
      rw [List.getD_nil, hp] at hi ⊢
      rw [putCell, List.countP_cons, hp]
      simpa using hi
    | cons y ys =>
      have hi := ih ys
      simp only [putCell, List.countP_cons, List.getD_cons_succ] at hi ⊢
      omega

/-- Whether an event is the end of a session or a message to a consumer. -/
def Event.isTallied : Event → Bool
  | .queued .. => true
  | .ended _ => true
  | _ => false

namespace Board

variable {b b' b'' : Board} {m n : Int}

/-- The number of open sessions. -/
def openCount (b : Board) : Nat := b.consumers.cells.countP Consumer.isOpen

/-- The number of sessions that were ever opened. -/
def sessionCount (b : Board) : Nat := b.consumers.cells.countP Consumer.isSession

/-- Whether a consumer is a session that has ended. -/
def IsOver (b : Board) (c : ConsumerId) : Prop := (b.consumer c).alive? = some false

/-- Whether an event is a message that a session accepted. -/
def isSent (b : Board) : Event → Bool
  | .queued c _ _ => (b.consumer c).isSession
  | _ => false

/-- The number of messages that sessions accepted. -/
def sentCount (b : Board) : Nat := b.journal.countP b.isSent

/-- The number of messages that the meter has counted. -/
def sendCount (b : Board) : Int := (b.leaf b.registry.sendMeter).tally

/-- The number of sessions that have ended. -/
def endCount (b : Board) : Nat := b.journal.countP Event.isEnd

/-- Whether a leaf is neither the counter of open sessions nor the meter of sent messages. -/
def isApart (b : Board) (l : LeafId) : Bool :=
  l ≠ b.registry.connections && l ≠ b.registry.sendMeter

/-- **The tally of sessions**: the counter is `m` ahead of the open sessions, and the meter `n`
ahead of the messages that sessions accepted. An ended session has one end in the journal and gets
no message after it. -/
structure TalliesSessions (b : Board) (m n : Int) : Prop where
  opened : (b.leaf b.registry.connections).tally = b.openCount + m
  sent : b.sendCount = b.sentCount + n
  total : b.openCount + b.endCount = b.sessionCount
  ends : ∀ c, b.IsOver c ↔ .ended c ∈ b.journal
  once : ∀ c, b.journal.count (.ended c) ≤ 1
  room : ∀ c h text, .queued c h text ∈ b.journal → c.index < b.consumers.size
  silent : ∀ es c h text, .queued c h text :: es <:+ b.journal → .ended c ∉ es

/-! ### What keeps the tally -/

/-- **What neither opens nor ends a session, nor sends it a message.** -/
structure SparesSessions (b b' : Board) : Prop where
  connections : b'.registry.connections = b.registry.connections
  sendMeter : b'.registry.sendMeter = b.registry.sendMeter
  tally : ∀ l, b.isApart l = false → (b'.leaf l).tally = (b.leaf l).tally
  alive : ∀ c, (b'.consumer c).alive? = (b.consumer c).alive?
  openCount : b'.openCount = b.openCount
  sessionCount : b'.sessionCount = b.sessionCount
  room : b.consumers.size ≤ b'.consumers.size
  journal : ∃ es, b'.journal = es ++ b.journal ∧ ∀ e ∈ es, e.isTallied = false

namespace SparesSessions

protected theorem refl (b : Board) : SparesSessions b b where
  connections := rfl
  sendMeter := rfl
  tally _ _ := rfl
  alive _ := rfl
  openCount := rfl
  sessionCount := rfl
  room := Nat.le_refl _
  journal := ⟨[], rfl, by simp⟩

theorem isApart (ha : SparesSessions b b') (l : LeafId) : b'.isApart l = b.isApart l := by
  unfold Board.isApart
  rw [ha.connections, ha.sendMeter]

protected theorem trans (ha : SparesSessions b b') (hb : SparesSessions b' b'') :
    SparesSessions b b'' where
  connections := hb.connections.trans ha.connections
  sendMeter := hb.sendMeter.trans ha.sendMeter
  tally l hl := (hb.tally l ((ha.isApart l).trans hl)).trans (ha.tally l hl)
  alive c := (hb.alive c).trans (ha.alive c)
  openCount := hb.openCount.trans ha.openCount
  sessionCount := hb.sessionCount.trans ha.sessionCount
  room := Nat.le_trans ha.room hb.room
  journal := by
    obtain ⟨es, he, hq⟩ := ha.journal
    obtain ⟨fs, hf, hq'⟩ := hb.journal
    refine ⟨fs ++ es, by rw [hf, he, List.append_assoc], fun e hm => ?_⟩
    rcases List.mem_append.1 hm with hm | hm
    · exact hq' e hm
    · exact hq e hm

/-- A change of other parts than the consumers, that keeps what leaves have counted. -/
theorem of_consumers (hr : b'.registry.connections = b.registry.connections)
    (hs : b'.registry.sendMeter = b.registry.sendMeter) (hc : b'.consumers = b.consumers)
    (ht : ∀ l, b.isApart l = false → (b'.leaf l).tally = (b.leaf l).tally)
    (hj : ∃ es, b'.journal = es ++ b.journal ∧ ∀ e ∈ es, e.isTallied = false) :
      SparesSessions b b' where
  connections := hr
  sendMeter := hs
  tally := ht
  alive c := by rw [consumer, hc, consumer]
  openCount := by rw [Board.openCount, hc, Board.openCount]
  sessionCount := by rw [Board.sessionCount, hc, Board.sessionCount]
  room := Nat.le_of_eq (by rw [hc])
  journal := hj

theorem modifyLeaf (b : Board) {l : LeafId} {f : Leaf → Leaf}
    (hf : b.isApart l = true ∨ (f (b.leaf l)).tally = (b.leaf l).tally) :
    SparesSessions b (b.modifyLeaf l f) := by
  refine .of_consumers rfl rfl rfl (fun k hk => ?_) ⟨[], rfl, by simp⟩
  rw [leaf_modifyLeaf]
  split
  · rename_i hl
    subst hl
    rcases hf with hf | hf
    · rw [hf] at hk
      cases hk
    · exact hf
  · rfl

theorem modifyHub (b : Board) (h : HubId) (f : Hub → Hub) : SparesSessions b (b.modifyHub h f) :=
  .of_consumers rfl rfl rfl (fun _ _ => rfl) ⟨[], rfl, by simp⟩

theorem note (b : Board) {e : Event} (he : e.isTallied = false) : SparesSessions b (b.note e) :=
  .of_consumers rfl rfl rfl (fun _ _ => rfl) ⟨[e], rfl, by simp [he]⟩

theorem post (b : Board) (h : HubId) (time : Timestamp) : SparesSessions b (b.post h time) := by
  have hr := (Frame.post b h time).registry
  have hc : (b.post h time).consumers = b.consumers := by
    show ((b.stamp h time).log h _).consumers = b.consumers
    unfold log
    split <;> rfl
  refine .of_consumers (by rw [hr]) (by rw [hr]) hc (fun l _ => ?_)
    ⟨[_], journal_post b h time, by simp [Event.isTallied]⟩
  -- only the reserved leaves are written, and a write counts nothing
  rw [leaf_post]
  have hw : ∀ (b : Board) (k : LeafId) (v : Literal),
      ((b.modifyLeaf k (·.write v time)).leaf l).tally = (b.leaf l).tally := by
    intro b k v
    rw [leaf_modifyLeaf]
    split
    · rename_i hk
      rw [Leaf.write, Leaf.tally_writeAll, hk]
    · rfl
  exact (hw _ _ _).trans (hw _ _ _)

theorem formatted (b : Board) (h : HubId) : SparesSessions b (b.formatted h).1 := by
  rcases b.formatted_fst h with e | ⟨-, -, e⟩ <;> rw [e]
  · exact .refl b
  · exact modifyHub b h _

theorem json (b : Board) (h : HubId) : SparesSessions b (b.json h).1 := by
  rcases b.json_fst h with e | ⟨-, -, e⟩ <;> rw [e]
  · exact .refl b
  · exact (formatted b h).trans (modifyHub _ h _)

end SparesSessions

/-- The open sessions after a consumer is put in the place of another. -/
theorem openCount_setConsumer (b : Board) (c : ConsumerId) (x : Consumer) :
    (b.setConsumer c x).openCount + (b.consumer c).isOpen.toNat = b.openCount + x.isOpen.toNat :=
  Store.countP_putCell Consumer.isOpen rfl x c.index b.consumers.cells

/-- The sessions after a consumer is put in the place of another. -/
theorem sessionCount_setConsumer (b : Board) (c : ConsumerId) (x : Consumer) :
    (b.setConsumer c x).sessionCount + (b.consumer c).isSession.toNat =
      b.sessionCount + x.isSession.toNat :=
  Store.countP_putCell Consumer.isSession rfl x c.index b.consumers.cells

theorem size_setConsumer (b : Board) (c : ConsumerId) (x : Consumer) :
    b.consumers.size ≤ (b.setConsumer c x).consumers.size := by
  show b.consumers.size ≤ (b.consumers.put c.index x).size
  rw [Store.size_put]
  omega

/-- A consumer that changes without being opened or ended. -/
theorem SparesSessions.setConsumer (b : Board) {c : ConsumerId} {x : Consumer}
    (hx : x.alive? = (b.consumer c).alive?) : SparesSessions b (b.setConsumer c x) where
  connections := rfl
  sendMeter := rfl
  tally _ _ := rfl
  alive d := by
    rw [consumer_setConsumer]
    split
    · rename_i hd
      rw [hx, hd]
    · rfl
  openCount := by
    have hs := openCount_setConsumer b c x
    have ho : x.isOpen = (b.consumer c).isOpen := by rw [Consumer.isOpen, hx, Consumer.isOpen]
    rw [ho] at hs
    exact Nat.add_right_cancel hs
  sessionCount := by
    have hs := sessionCount_setConsumer b c x
    have ho : x.isSession = (b.consumer c).isSession := congrArg Option.isSome hx
    rw [ho] at hs
    exact Nat.add_right_cancel hs
  room := size_setConsumer b c x
  journal := ⟨[], rfl, by simp⟩

/-- Events that are not tallied neither end a session nor are sent. -/
theorem not_isSent {e : Event} (he : e.isTallied = false) : b.isSent e = false := by
  cases e with
  | queued => cases he
  | _ => rfl

theorem isSent_congr {e : Event}
    (hc : ∀ c h text, e = .queued c h text → (b'.consumer c).alive? = (b.consumer c).alive?) :
    b'.isSent e = b.isSent e := by
  cases e with
  | queued c h text => exact congrArg Option.isSome (hc c h text rfl)
  | _ => rfl

theorem countP_isSent (es : List Event)
    (hc : ∀ c h text, .queued c h text ∈ es → (b'.consumer c).alive? = (b.consumer c).alive?) :
    es.countP b'.isSent = es.countP b.isSent := by
  refine List.countP_congr fun e he => ?_
  rw [isSent_congr fun c h text heq => hc c h text (heq ▸ he)]

/-- What is tallied is what was tallied, after events that are not. -/
theorem mem_of_not_tallied {es fs : List Event} {e : Event} (hq : ∀ e ∈ es, e.isTallied = false)
    (he : e.isTallied = true) : e ∈ es ++ fs ↔ e ∈ fs := by
  rw [List.mem_append]
  refine or_iff_right fun hm => ?_
  rw [hq e hm] at he
  cases he

/-- The part of a journal before something that is tallied, if what came last is not. -/
theorem suffix_of_not_tallied {es fs gs : List Event} {e : Event}
    (hq : ∀ e ∈ es, e.isTallied = false) (he : e.isTallied = true) (hs : e :: gs <:+ es ++ fs) :
    e :: gs <:+ fs := by
  induction es with
  | nil => exact hs
  | cons x es ih =>
    rcases List.suffix_cons_iff.1 hs with heq | hs
    · obtain ⟨rfl, -⟩ := List.cons.inj heq
      rw [hq e List.mem_cons_self] at he
      cases he
    · exact ih (fun y hy => hq y (List.mem_cons_of_mem x hy)) hs

/-- **What spares the sessions keeps the tally.** -/
theorem TalliesSessions.spared (hb : b.TalliesSessions m n) (ha : SparesSessions b b') :
    b'.TalliesSessions m n := by
  obtain ⟨es, hj, hq⟩ := ha.journal
  have hover : ∀ c, b'.IsOver c ↔ b.IsOver c := fun c => by rw [IsOver, ha.alive, IsOver]
  constructor
  case opened =>
    rw [ha.connections, ha.tally _ (by simp [isApart]), ha.openCount]
    exact hb.opened
  case sent =>
    have hnone : es.countP b'.isSent = 0 := by
      refine List.countP_eq_zero.2 fun e he => ?_
      rw [not_isSent (hq e he)]
      decide
    have hsent : b'.sentCount = b.sentCount := by
      rw [sentCount, hj, List.countP_append, hnone, Nat.zero_add, sentCount]
      exact countP_isSent b.journal fun c _ _ _ => ha.alive c
    rw [sendCount, ha.sendMeter, ha.tally _ (by simp [isApart]), hsent]
    exact hb.sent
  case total =>
    have hnone : es.countP Event.isEnd = 0 := by
      refine List.countP_eq_zero.2 fun e he => ?_
      have := hq e he
      cases e with
      | ended => cases this
      | _ => nofun
    rw [ha.openCount, ha.sessionCount, endCount, hj, List.countP_append, hnone, Nat.zero_add]
    exact hb.total
  case ends =>
    intro c
    rw [hover, hb.ends, hj, mem_of_not_tallied hq rfl]
  case once =>
    intro c
    have hnone : es.count (.ended c) = 0 := by
      refine List.count_eq_zero.2 fun hm => ?_
      have := hq _ hm
      cases this
    rw [hj, List.count_append, hnone, Nat.zero_add]
    exact hb.once c
  case room =>
    intro c h text hm
    rw [hj, mem_of_not_tallied hq rfl] at hm
    exact Nat.lt_of_lt_of_le (hb.room c h text hm) ha.room
  case silent =>
    intro fs c h text hs
    rw [hj] at hs
    exact hb.silent fs c h text (suffix_of_not_tallied hq rfl hs)

/-! ### What moves the books -/

/-- The counter of open sessions moves. -/
theorem TalliesSessions.counted (hb : b.TalliesSessions m n) (hs : Sound b) (steps : Int) :
    (b.counted steps).TalliesSessions (m + steps) n := by
  have hne : b.registry.connections ≠ b.registry.sendMeter := by
    intro he
    have hm := hs.meter
    rw [← he, hs.counter] at hm
    cases hm
  refine { hb with opened := ?_, sent := ?_ }
  · have hn : b.connectionCount = b.openCount + m := by
      rw [← hb.opened, Leaf.tally, hs.body_connections]
    show ((b.counted steps).leaf b.registry.connections).tally = (b.openCount : Int) + (m + steps)
    rw [Board.counted, leaf_modifyLeaf, if_pos rfl]
    show b.connectionCount + steps = _
    omega
  · show ((b.counted steps).leaf b.registry.sendMeter).tally = _
    rw [Board.counted, leaf_modifyLeaf, if_neg hne]
    exact hb.sent

/-- The meter of sent messages moves. -/
theorem TalliesSessions.tick (hb : b.TalliesSessions m n) (hs : Sound b)
    (nested : Board → HubId → Timestamp → Board)
    (steps : Int) : (b.countWith nested b.registry.sendMeter steps).1.TalliesSessions m
      (n + steps) := by
  obtain ⟨x, body, he⟩ := countWith_sendMeter nested hs steps
  have hne : b.registry.sendMeter ≠ b.registry.connections := by
    intro heq
    have hm := hs.meter
    rw [heq, hs.counter] at hm
    cases hm
  rw [he]
  refine { hb with opened := ?_, sent := ?_ }
  · show (Board.leaf (b.modifyLeaf _ _) b.registry.connections).tally = _
    rw [leaf_modifyLeaf, if_neg hne]
    exact hb.opened
  · have hx : x.count = b.sentCount + n := by
      have := hb.sent
      rwa [sendCount, Leaf.tally, body] at this
    show (Board.leaf (b.modifyLeaf _ _) b.registry.sendMeter).tally = (b.sentCount : Int) +
      (n + steps)
    rw [leaf_modifyLeaf, if_pos rfl]
    show x.count + steps = _
    omega

/-- **A message is accepted.** For a session it has still to be counted. -/
theorem TalliesSessions.queue (hb : b.TalliesSessions m n) {c : ConsumerId} {r : Queue}
    (hover : ¬b.IsOver c) (h : HubId) (text : String) :
    ((b.setConsumer c ((b.consumer c).withQueue r)).note (.queued c h text)).TalliesSessions m
      (n - (b.consumer c).isSession.toNat) := by
  have ha : SparesSessions b (b.setConsumer c ((b.consumer c).withQueue r)) :=
    .setConsumer b (Consumer.alive?_withQueue _ r)
  have hs := hb.spared ha
  have hover' : ¬(b.setConsumer c ((b.consumer c).withQueue r)).IsOver c := by
    rw [IsOver, ha.alive]
    exact hover
  have hkind : ((b.setConsumer c ((b.consumer c).withQueue r)).consumer c).isSession =
      (b.consumer c).isSession := congrArg Option.isSome (ha.alive c)
  have hroom : c.index < (b.setConsumer c ((b.consumer c).withQueue r)).consumers.size := by
    show c.index < (b.consumers.put c.index _).size
    rw [Store.size_put]
    omega
  generalize b.setConsumer c ((b.consumer c).withQueue r) = b1 at hs hover' hkind hroom ⊢
  refine { hs with
    sent := ?_, total := ?_, ends := fun d => ?_, once := fun d => ?_, room := ?_, silent := ?_ }
  · have hone : (b1.note (.queued c h text)).sentCount =
        b1.sentCount + (b.consumer c).isSession.toNat := by
      rw [← hkind]
      show (Event.queued c h text :: b1.journal).countP b1.isSent = _
      exact countP_cons_toNat _ _ _
    show b1.sendCount = _
    rw [hone, hs.sent]
    omega
  · show b1.openCount + (Event.queued c h text :: b1.journal).countP Event.isEnd = b1.sessionCount
    rw [List.countP_cons_of_neg (by simp [Event.isEnd])]
    exact hs.total
  · rw [note, List.mem_cons, or_iff_right (by simp)]
    exact hs.ends d
  · rw [note, List.count_cons_of_ne (by simp)]
    exact hs.once d
  · intro d k s hm
    rcases List.mem_cons.1 hm with he | hm
    · cases he
      exact hroom
    · exact hs.room d k s hm
  · intro es d k s hsuf
    rcases List.suffix_cons_iff.1 hsuf with he | hsuf
    · cases he
      exact fun hm => hover' ((hs.ends c).2 hm)
    · exact hs.silent es d k s hsuf

theorem isOver_setConsumer (b : Board) (c : ConsumerId) (x : Consumer) (d : ConsumerId) :
    (b.setConsumer c x).IsOver d ↔ if c = d then x.alive? = some false else b.IsOver d := by
  rw [IsOver, consumer_setConsumer]
  split <;> rfl

theorem isOver_finish (b : Board) (c : ConsumerId) (s : Session) (d : ConsumerId) :
    (b.setConsumer c (.session { s with alive := false })).IsOver d ↔ d = c ∨ b.IsOver d := by
  rw [isOver_setConsumer]
  split
  · rename_i hd
    exact iff_of_true rfl (.inl hd.symm)
  · rename_i hd
    exact (or_iff_right fun he => hd he.symm).symm

section Finish

variable {c : ConsumerId} {s : Session} (is : b.consumer c = .session s)
include is

/-- One open session less. -/
theorem openCount_finish (alive : s.alive = true) :
    (b.setConsumer c (.session { s with alive := false })).openCount + 1 = b.openCount := by
  have hcount := openCount_setConsumer b c (.session { s with alive := false })
  have hopen : (b.consumer c).isOpen = true := by
    rw [is, Consumer.isOpen, Consumer.alive?, alive]
    rfl
  rw [hopen] at hcount
  exact hcount

theorem sessionCount_finish :
    (b.setConsumer c (.session { s with alive := false })).sessionCount = b.sessionCount := by
  have htotal := sessionCount_setConsumer b c (.session { s with alive := false })
  have hkind : (b.consumer c).isSession = true := by
    rw [is]
    rfl
  rw [hkind] at htotal
  exact Nat.add_right_cancel htotal

/-- A session that ended is still a session. -/
theorem isSent_finish (e : Event) :
    (b.setConsumer c (.session { s with alive := false })).isSent e = b.isSent e := by
  cases e with
  | queued d h text =>
    rw [isSent, isSent, consumer_setConsumer]
    split
    · rename_i hd
      rw [← hd, is]
      rfl
    · rfl
  | _ => rfl

end Finish

/-- **A session ends.** It has still to be taken off the counter. -/
theorem TalliesSessions.finish (hb : b.TalliesSessions m n) {c : ConsumerId} {s : Session}
    (is : b.consumer c = .session s) (alive : s.alive = true) :
    ((b.setConsumer c (.session { s with alive := false })).note (.ended c)).TalliesSessions
      (m + 1) n := by
  have hnew : Event.ended c ∉ b.journal := by
    rw [← hb.ends, IsOver, is, Consumer.alive?, alive]
    decide
  have hcount := openCount_finish is alive
  have htotal := sessionCount_finish is
  have hsent := isSent_finish is
  have hover := isOver_finish b c s
  have hroom := size_setConsumer b c (.session { s with alive := false })
  have hleaf : ∀ l, (b.setConsumer c (.session { s with alive := false })).leaf l = b.leaf l :=
    fun _ => rfl
  have hj : (b.setConsumer c (.session { s with alive := false })).journal = b.journal := rfl
  have hreg : (b.setConsumer c (.session { s with alive := false })).registry = b.registry := rfl
  generalize b.setConsumer c (.session { s with alive := false }) = b1
    at hcount htotal hsent hover hroom hleaf hj hreg ⊢
  constructor
  case opened =>
    show (b1.leaf b1.registry.connections).tally = (b1.openCount : Int) + (m + 1)
    rw [hreg, hleaf, hb.opened]
    omega
  case sent =>
    have hsame : (b1.note (.ended c)).sentCount = b.sentCount := by
      show (Event.ended c :: b1.journal).countP b1.isSent = _
      rw [hj, List.countP_cons_of_neg (by simp [isSent]), funext hsent, sentCount]
    rw [hsame]
    show (b1.leaf b1.registry.sendMeter).tally = _
    rw [hreg, hleaf]
    exact hb.sent
  case total =>
    show b1.openCount + (Event.ended c :: b1.journal).countP Event.isEnd = b1.sessionCount
    have hb' := hb.total
    rw [hj, List.countP_cons_of_pos rfl, htotal, ← hb', endCount]
    omega
  case ends =>
    intro d
    show b1.IsOver d ↔ Event.ended d ∈ Event.ended c :: b1.journal
    rw [hover, List.mem_cons, hj, hb.ends, Event.ended.injEq]
  case once =>
    intro d
    show List.count (.ended d) (.ended c :: b1.journal) ≤ 1
    rw [hj]
    by_cases hd : d = c
    · exact Nat.le_of_eq (by rw [hd, List.count_cons_self, List.count_eq_zero.2 hnew])
    · rw [List.count_cons_of_ne (by simpa using fun he => hd he.symm)]
      exact hb.once d
  case room =>
    intro d k text hm
    have hm' : Event.queued d k text ∈ Event.ended c :: b.journal := hj ▸ hm
    rw [List.mem_cons, or_iff_right (by simp)] at hm'
    exact Nat.lt_of_lt_of_le (hb.room d k text hm') hroom
  case silent =>
    intro es d k text hs
    have hs' : Event.queued d k text :: es <:+ Event.ended c :: b.journal := hj ▸ hs
    rcases List.suffix_cons_iff.1 hs' with he | hs'
    · cases he
    · exact hb.silent es d k text hs'

/-- A consumer that is not there yet. -/
theorem consumer_of_size_le {c : ConsumerId} (hc : b.consumers.size ≤ c.index) :
    b.consumer c = default :=
  List.getD_eq_default _ _ hc

/-- **A consumer comes in.** A session has still to be counted. -/
theorem TalliesSessions.enter (hb : b.TalliesSessions m n) {x : Consumer}
    (hx : x.alive? ≠ some false) : (b.newConsumer x).1.TalliesSessions (m - x.isOpen.toNat) n := by
  have hfresh : b.consumer ⟨b.consumers.size⟩ = default := consumer_of_size_le (Nat.le_refl _)
  have hcount := openCount_setConsumer b ⟨b.consumers.size⟩ x
  have htotal := sessionCount_setConsumer b ⟨b.consumers.size⟩ x
  have hdefault : (default : Consumer).isOpen = false := rfl
  have hdefault' : (default : Consumer).isSession = false := rfl
  rw [hfresh, hdefault] at hcount
  rw [hfresh, hdefault'] at htotal
  have hkind : x.isSession = x.isOpen := by
    unfold Consumer.isSession Consumer.isOpen
    match x.alive?, hx with
    | none, _ => rfl
    | some true, _ => rfl
  have hold : ∀ d : ConsumerId, d.index < b.consumers.size →
      (b.setConsumer ⟨b.consumers.size⟩ x).consumer d = b.consumer d := by
    intro d hd
    rw [consumer_setConsumer, if_neg]
    rintro rfl
    exact absurd hd (Nat.lt_irrefl _)
  have hover : ∀ d, (b.setConsumer ⟨b.consumers.size⟩ x).IsOver d ↔ b.IsOver d := by
    intro d
    rw [isOver_setConsumer]
    split
    · rename_i hd
      subst hd
      refine iff_of_false hx ?_
      rw [IsOver, hfresh]
      decide
    · rfl
  have hroom := size_setConsumer b ⟨b.consumers.size⟩ x
  have he : (b.newConsumer x).1 = b.setConsumer ⟨b.consumers.size⟩ x := rfl
  rw [he]
  refine { hb with opened := ?_, sent := ?_, total := ?_, ends := fun d => ?_, room := ?_ }
  · show (b.leaf b.registry.connections).tally = _
    rw [hb.opened]
    simp only [Bool.toNat_false] at hcount
    omega
  · have hsent : (b.setConsumer ⟨b.consumers.size⟩ x).sentCount = b.sentCount :=
      countP_isSent b.journal fun c h text hm => by rw [hold c (hb.room c h text hm)]
    rw [hsent]
    exact hb.sent
  · show (b.setConsumer ⟨b.consumers.size⟩ x).openCount + b.endCount = _
    have hb' := hb.total
    rw [hkind] at htotal
    simp only [Bool.toNat_false] at hcount htotal
    omega
  · rw [hover]
    exact hb.ends d
  · intro d k text hm
    exact Nat.lt_of_lt_of_le (hb.room d k text hm) hroom

end Board

end Switchboard
