import Switchboard.Proofs.Ledger
import Switchboard.Scope

/-!
# Reads in scopes

Callers read through contexts of their own, while others write, register and read. In a scope of a
context, the first read that finds a hub settles what all later reads of that hub answer: the
snapshot that was current at that moment, or nothing if there was none.

* `Desk.step_pinned`: no operation changes what a scope has pinned, as long as it stays open.
* `reads_repeatable`: all reads of a hub in a scope answer from one snapshot.
-/

namespace Switchboard

/-- A board, and the read contexts of its callers by number. -/
structure Desk where
  board : Board
  scopes : Store Scope := {}

/-- What callers do: they operate on the board, and open, close and use contexts. -/
inductive DeskOp
  | board (op : Op)
  | freeze (i : Nat)
  | release (i : Nat)
  | read (i : Nat) (subject predicate : String)
  /-- Reads the whole snapshot of a hub. -/
  | pin (i : Nat) (h : HubId)
  deriving DecidableEq

namespace Board

variable {A : Action → Prop} {E : Edit → Prop} {b b' : Board}

/-- **A name leads to one hub for good.** -/
theorem Change.hub?_eq (hc : Change A E b b') {name : String} {h : HubId}
    (hn : b.hub? name = some h) : b'.hub? name = some h := by
  cases hc with
  | move m => rwa [hub?, m.frame.registry]
  | openHub other id legal new _ =>
    rw [hub?, registry_openHub legal new, Register.get?_put_of_ne]
    · exact hn
    · rintro rfl
      rw [new] at hn
      cases hn
  | makeHub label other _ =>
    rw [newHub_false]
    exact hn
  | addLeaf k predicate l _ _ free _ => rwa [hub?, registry_addLeaf free]
  | _ => exact hn

theorem ChangesBy.hub?_eq (hc : ChangesBy A E b b') {name : String} {h : HubId}
    (hn : b.hub? name = some h) : b'.hub? name = some h := by
  induction hc with
  | refl => exact hn
  | tail _ hc ih => exact hc.hub?_eq ih

end Board

/-! ### Scopes -/

namespace Scope

/-- Whether an open scope has pinned a hub to a snapshot, or to none. -/
def IsPinned (s : Scope) (name : String) (pin : Option Snapshot) : Prop :=
  ∃ pins, s.pins = some pins ∧ pins.get? name = some pin

/-- Whether an open scope has not read a hub yet. -/
def IsUnread (s : Scope) (name : String) : Prop :=
  ∃ pins, s.pins = some pins ∧ pins.get? name = none

variable {s : Scope} {b : Board} {h : HubId} {name : String} {pin : Option Snapshot}

theorem isUnread_freeze (s : Scope) (name : String) : s.freeze.IsUnread name :=
  ⟨Register.empty, rfl, Register.get?_empty name⟩

/-- A hub that is pinned gives what is pinned. -/
theorem snapshot_of_pinned (hp : s.IsPinned (b.hub h).name pin) : s.snapshot b h = (s, pin) := by
  obtain ⟨pins, hs, hg⟩ := hp
  unfold snapshot
  rw [hs]
  dsimp only
  rw [hg]

/-- A hub that was not read yet gives its snapshot, and is pinned to it. -/
theorem snapshot_of_unread (hu : s.IsUnread (b.hub h).name) :
    (s.snapshot b h).1.IsPinned (b.hub h).name (b.hub h).snapshot ∧
      (s.snapshot b h).2 = (b.hub h).snapshot := by
  obtain ⟨pins, hs, hg⟩ := hu
  unfold snapshot
  rw [hs]
  dsimp only
  rw [hg]
  exact ⟨⟨_, rfl, Register.get?_put_self ..⟩, rfl⟩

/-- Reading a hub pins no other. -/
theorem snapshot_other (hne : (b.hub h).name ≠ name) {pins : Register (Option Snapshot)}
    (hs : s.pins = some pins) :
    ∃ pins', (s.snapshot b h).1.pins = some pins' ∧ pins'.get? name = pins.get? name := by
  unfold snapshot
  rw [hs]
  dsimp only
  split
  · exact ⟨pins, hs, rfl⟩
  · exact ⟨_, rfl, Register.get?_put_of_ne _ hne _⟩

/-- What is pinned stays pinned, whatever is read. -/
theorem IsPinned.snapshot (hp : s.IsPinned name pin) (b : Board) (h : HubId) :
    (s.snapshot b h).1.IsPinned name pin := by
  by_cases hn : (b.hub h).name = name
  · subst hn
    rwa [snapshot_of_pinned hp]
  · obtain ⟨pins, hs, hg⟩ := hp
    obtain ⟨pins', hs', hg'⟩ := snapshot_other hn hs
    exact ⟨pins', hs', hg'.trans hg⟩

theorem IsUnread.snapshot (hu : s.IsUnread name) (hn : (b.hub h).name ≠ name) :
    (s.snapshot b h).1.IsUnread name := by
  obtain ⟨pins, hs, hg⟩ := hu
  obtain ⟨pins', hs', hg'⟩ := snapshot_other hn hs
  exact ⟨pins', hs', hg'.trans hg⟩

theorem isFrozen_of_pins {pins : Register (Option Snapshot)} (hs : s.pins = some pins) :
    s.isFrozen = true := by
  rw [isFrozen, hs]
  rfl

/-- Outside of a scope a read answers nothing. -/
theorem read_of_closed (hs : s.isFrozen = false) (b : Board) (subject predicate : String) :
    s.read b subject predicate = (s, none) := by
  rw [read, hs]
  rfl

/-- A hub that is not registered answers nothing, and is not pinned. -/
theorem read_of_unknown (hn : b.hub? name = none) (predicate : String) :
    s.read b name predicate = (s, none) := by
  unfold read
  rw [hn]
  split <;> rfl

/-- A read in an open scope looks up the predicate in the snapshot that the hub gives. -/
theorem read_of_open {pins : Register (Option Snapshot)} (hs : s.pins = some pins)
    (hn : b.hub? name = some h) (predicate : String) : s.read b name predicate =
      ((s.snapshot b h).1, (s.snapshot b h).2.bind (·.get? predicate)) := by
  unfold read
  rw [isFrozen_of_pins hs, hn]
  rfl

theorem isFrozen_snapshot (s : Scope) (b : Board) (h : HubId) :
    (s.snapshot b h).1.isFrozen = s.isFrozen := by
  unfold snapshot
  split
  · rfl
  · rename_i pins hs
    split
    · rfl
    · rw [isFrozen_of_pins hs]
      rfl

theorem isFrozen_read (s : Scope) (b : Board) (subject predicate : String) :
    (s.read b subject predicate).1.isFrozen = s.isFrozen := by
  unfold read
  split
  · split
    · exact isFrozen_snapshot s b _
    · rfl
  · rfl

end Scope

/-! ### Operations -/

namespace DeskOp

/-- Whether an operation leaves the scope of a context open. -/
def keeps (i : Nat) : DeskOp → Bool
  | .freeze j | .release j => j ≠ i
  | _ => true

/-- The operation on the board, if it is one. -/
def op? : DeskOp → Option Op
  | .board op => some op
  | _ => none

end DeskOp

namespace Desk

open Board

/-- The context with a number. -/
def scope (d : Desk) (i : Nat) : Scope := d.scopes.get i

/-- Puts a context in the place of another. -/
def setScope (d : Desk) (i : Nat) (s : Scope) : Desk := { d with scopes := d.scopes.put i s }

/-- One operation. -/
def step (d : Desk) : DeskOp → Desk
  | .board op => { d with board := d.board.step op }
  | .freeze i => d.setScope i (d.scope i).freeze
  | .release i => d.setScope i (d.scope i).release
  | .read i subject predicate =>
    d.setScope i ((d.scope i).read d.board subject predicate).1
  | .pin i h => d.setScope i ((d.scope i).snapshot d.board h).1

/-- Operations in order. -/
def run (d : Desk) (ops : List DeskOp) : Desk := ops.foldl step d

/-- What a read answers. -/
def answer (d : Desk) (i : Nat) (subject predicate : String) : Option (List Literal) :=
  ((d.scope i).read d.board subject predicate).2

/-- Whether an operation reads the hub with a name in a context, and finds it. -/
def finds (d : Desk) (i : Nat) (name : String) : DeskOp → Bool
  | .read j subject _ => j = i && subject = name && (d.board.hub? name).isSome
  | .pin j h => j = i && (d.board.hub h).name = name
  | _ => false

/-- Whether operations leave the scope of a context open, and do not find a hub in it. -/
def Passes (i : Nat) (name : String) : Desk → List DeskOp → Prop
  | _, [] => True
  | d, op :: ops => (op.keeps i = true ∧ d.finds i name op = false) ∧ Passes i name (d.step op) ops

instance (i : Nat) (name : String) : ∀ d ops, Decidable (Passes i name d ops)
  | _, [] => .isTrue trivial
  | d, op :: ops =>
    have := instDecidablePasses i name (d.step op) ops
    inferInstanceAs (Decidable ((_ ∧ _) ∧ Passes i name (d.step op) ops))

variable {d : Desk} {i : Nat} {name : String} {pin : Option Snapshot}

theorem scope_setScope (d : Desk) (i j : Nat) (s : Scope) :
    (d.setScope i s).scope j = if i = j then s else d.scope j :=
  Store.get_put d.scopes i j s

theorem run_nil (d : Desk) : d.run [] = d := rfl

theorem run_cons (d : Desk) (op : DeskOp) (ops : List DeskOp) :
    d.run (op :: ops) = (d.step op).run ops := rfl

theorem run_append (d : Desk) (ops ops' : List DeskOp) :
    d.run (ops ++ ops') = (d.run ops).run ops' := List.foldl_append

/-- What others do with their contexts does not concern a context. -/
theorem scope_setScope_of (P : Scope → Prop) {j : Nat} {s : Scope} (hd : P (d.scope i))
    (hs : j = i → P s) : P ((d.setScope j s).scope i) := by
  rw [scope_setScope]
  split
  · exact hs ‹_›
  · exact hd

/-- Reading and pinning leave the board alone. -/
theorem board_step (d : Desk) (op : DeskOp) :
    (d.step op).board = d.board.run op.op?.toList := by
  cases op <;> rfl

theorem board_run (d : Desk) (ops : List DeskOp) :
    (d.run ops).board = d.board.run (ops.filterMap DeskOp.op?) := by
  induction ops generalizing d with
  | nil => rfl
  | cons op ops ih =>
    show ((d.step op).run ops).board = _
    rw [ih, board_step, ← Board.run_append, List.filterMap_cons]
    cases op.op? <;> rfl

/-- **No operation changes what a scope has pinned**, as long as it stays open. -/
theorem step_pinned (hp : (d.scope i).IsPinned name pin) {op : DeskOp} (ho : op.keeps i = true) :
    ((d.step op).scope i).IsPinned name pin := by
  have hread : ∀ {j : Nat} (h : HubId), j = i →
      ((d.scope j).snapshot d.board h).1.IsPinned name pin := by
    rintro j h rfl
    exact hp.snapshot d.board h
  cases op with
  | board op => exact hp
  | freeze j | release j =>
    exact scope_setScope_of (·.IsPinned name pin) hp fun hj => absurd hj (of_decide_eq_true ho)
  | read j subject predicate =>
    refine scope_setScope_of (·.IsPinned name pin) hp fun hj => ?_
    subst hj
    obtain ⟨pins, hs, hg⟩ := hp
    cases hn : d.board.hub? subject with
    | none =>
      rw [Scope.read_of_unknown hn]
      exact ⟨pins, hs, hg⟩
    | some h =>
      rw [Scope.read_of_open hs hn]
      exact hread h rfl
  | pin j h => exact scope_setScope_of (·.IsPinned name pin) hp (hread h)

theorem run_pinned (hp : (d.scope i).IsPinned name pin) {ops : List DeskOp}
    (ho : ∀ op ∈ ops, op.keeps i = true) : ((d.run ops).scope i).IsPinned name pin := by
  induction ops generalizing d with
  | nil => exact hp
  | cons op ops ih =>
    exact ih (step_pinned hp (ho op List.mem_cons_self)) fun o hm =>
      ho o (List.mem_cons_of_mem op hm)

/-- As long as a hub is not found it is not pinned. -/
theorem step_unread (hb : Sound d.board) (hu : (d.scope i).IsUnread name) {op : DeskOp}
    (ho : op.keeps i = true) (hf : d.finds i name op = false) :
    ((d.step op).scope i).IsUnread name := by
  cases op with
  | board op => exact hu
  | freeze j | release j =>
    exact scope_setScope_of (·.IsUnread name) hu fun hj => absurd hj (of_decide_eq_true ho)
  | read j subject predicate =>
    refine scope_setScope_of (·.IsUnread name) hu fun hj => ?_
    subst hj
    cases hn : d.board.hub? subject with
    | none =>
      rw [Scope.read_of_unknown hn]
      exact hu
    | some h =>
      obtain ⟨pins, hs, hg⟩ := hu
      rw [Scope.read_of_open hs hn]
      refine Scope.IsUnread.snapshot ⟨pins, hs, hg⟩ ?_
      -- the hub carries the name that was read, which is another one
      rw [hb.named subject h hn]
      rintro rfl
      simp [finds, hn] at hf
  | pin j h =>
    refine scope_setScope_of (·.IsUnread name) hu fun hj => ?_
    subst hj
    refine hu.snapshot fun hn => ?_
    simp [finds, hn] at hf

theorem step_sound (hb : Sound d.board) (op : DeskOp) : Sound (d.step op).board := by
  rw [board_step]
  exact run_sound hb _

theorem run_unread (hb : Sound d.board) (hu : (d.scope i).IsUnread name) {ops : List DeskOp}
    (ho : Passes i name d ops) : ((d.run ops).scope i).IsUnread name := by
  induction ops generalizing d with
  | nil => exact hu
  | cons op ops ih =>
    obtain ⟨⟨hk, hf⟩, hrest⟩ := ho
    exact ih (step_sound hb op) (step_unread hb hu hk hf) hrest

/-- A context that was closed stays so until it is opened. -/
theorem run_closed (hs : (d.scope i).isFrozen = false) {ops : List DeskOp}
    (ho : .freeze i ∉ ops) : ((d.run ops).scope i).isFrozen = false := by
  induction ops generalizing d with
  | nil => exact hs
  | cons op ops ih =>
    rw [List.mem_cons, not_or] at ho
    refine ih ?_ ho.2
    cases op with
    | board op => exact hs
    | freeze j =>
      exact scope_setScope_of (·.isFrozen = false) hs fun hj => absurd (by rw [hj]) ho.1
    | release j => exact scope_setScope_of (·.isFrozen = false) hs fun _ => rfl
    | read j subject predicate =>
      refine scope_setScope_of (·.isFrozen = false) hs fun hj => ?_
      rw [Scope.isFrozen_read, hj]
      exact hs
    | pin j h =>
      refine scope_setScope_of (·.isFrozen = false) hs fun hj => ?_
      rw [Scope.isFrozen_snapshot, hj]
      exact hs

/-- A desk at its start: no context has a scope. -/
def start (settings : Settings) (wall : Timestamp) (disk : Disk) : Desk :=
  { board := .start settings wall disk }

theorem answer_of_closed (hs : (d.scope i).isFrozen = false) (subject predicate : String) :
    d.answer i subject predicate = none := by
  rw [answer, Scope.read_of_closed hs]

theorem answer_of_unknown (hn : d.board.hub? name = none) (predicate : String) :
    d.answer i name predicate = none := by
  rw [answer, Scope.read_of_unknown hn]

/-- A read of a hub that is pinned answers from what is pinned. -/
theorem answer_of_pinned (hb : Sound d.board) (hp : (d.scope i).IsPinned name pin) {h : HubId}
    (hn : d.board.hub? name = some h) (predicate : String) :
    d.answer i name predicate = pin.bind (·.get? predicate) := by
  have hname : (d.board.hub h).name = name := hb.named name h hn
  have hpinned : (d.scope i).IsPinned (d.board.hub h).name pin := by rwa [hname]
  obtain ⟨pins, hs, -⟩ := hp
  rw [answer, Scope.read_of_open hs hn, Scope.snapshot_of_pinned hpinned]

/-- The first read that finds a hub answers from its snapshot, and pins it. -/
theorem answer_of_unread (hb : Sound d.board) (hu : (d.scope i).IsUnread name) {h : HubId}
    (hn : d.board.hub? name = some h) (predicate : String) :
    d.answer i name predicate = (d.board.hub h).snapshot.bind (·.get? predicate) ∧
      ((d.step (.read i name predicate)).scope i).IsPinned name (d.board.hub h).snapshot := by
  have hname : (d.board.hub h).name = name := hb.named name h hn
  have hu' : (d.scope i).IsUnread (d.board.hub h).name := by rwa [hname]
  obtain ⟨hpin, hgiven⟩ := Scope.snapshot_of_unread hu'
  obtain ⟨pins, hs, -⟩ := hu
  refine ⟨?_, ?_⟩
  · rw [answer, Scope.read_of_open hs hn, hgiven]
  · show ((d.setScope i ((d.scope i).read d.board name predicate).1).scope i).IsPinned name _
    rw [scope_setScope, if_pos rfl, Scope.read_of_open hs hn, ← hname]
    exact hpin

/-- **Reads in a scope are repeatable and unmixed**, whatever is done on the board and in other
contexts in between. Outside of a scope they answer nothing. In a scope that was just opened, the
first read that finds a hub answers from the snapshot that the hub published last, or nothing if
it published none, and so do all later reads of the hub, as long as the scope stays open. -/
theorem reads_repeatable (settings : Settings) (wall : Timestamp) {disk : Disk} (hd : disk.Sound)
    (earlier : List DeskOp) (i : Nat) (name : String) :
    let d := (start settings wall disk).run earlier
    (.freeze i ∉ earlier → ∀ p, d.answer i name p = none) ∧
    (∀ ops, .freeze i ∉ ops → ∀ p, ((d.step (.release i)).run ops).answer i name p = none) ∧
    ∀ before, Passes i name (d.step (.freeze i)) before →
      let d' := (d.step (.freeze i)).run before
      (d'.board.hub? name = none → ∀ p, d'.answer i name p = none) ∧
      ∀ h, d'.board.hub? name = some h →
        let pin := (d'.board.hub h).snapshot
        pin = (published h d'.board.events).getLast?.map Prod.fst ∧
        (∀ p, d'.answer i name p = pin.bind (·.get? p)) ∧
        ∀ p after, (∀ op ∈ after, op.keeps i = true) → ∀ q,
          ((d'.step (.read i name p)).run after).answer i name q = pin.bind (·.get? q) := by
  intro d
  have hstart := sound_start settings wall disk hd
  have hb : Sound d.board := by
    show Sound ((start settings wall disk).run earlier).board
    rw [board_run]
    exact run_sound hstart _
  refine ⟨fun hne p => ?_, fun ops hne p => ?_, fun before hp => ?_⟩
  · have hclosed : ((start settings wall disk).scope i).isFrozen = false := rfl
    exact answer_of_closed (run_closed hclosed hne) name p
  · have hclosed : ((d.step (.release i)).scope i).isFrozen = false := by
      show ((d.setScope i (d.scope i).release).scope i).isFrozen = false
      rw [scope_setScope, if_pos rfl]
      rfl
    exact answer_of_closed (run_closed hclosed hne) name p
  · intro d'
    have hopen : ((d.step (.freeze i)).scope i).IsUnread name := by
      show ((d.setScope i (d.scope i).freeze).scope i).IsUnread name
      rw [scope_setScope, if_pos rfl]
      exact Scope.isUnread_freeze _ name
    have hunread : (d'.scope i).IsUnread name := run_unread (step_sound hb _) hopen hp
    have hd' : d'.board = (Board.start settings wall disk).run
        ((earlier ++ .freeze i :: before).filterMap DeskOp.op?) := by
      have hrun : d' = (start settings wall disk).run (earlier ++ .freeze i :: before) := by
        rw [run_append, run_cons]
      rw [hrun, board_run]
      rfl
    have hb' : Sound d'.board := by
      rw [hd']
      exact run_sound hstart _
    refine ⟨fun hn p => answer_of_unknown hn p, fun h hn => ⟨?_, fun p => ?_, fun p after hk q => ?_⟩⟩
    · rw [hd']
      exact snapshot_of_changes (run_changes hstart _) h
    · exact (answer_of_unread hb' hunread hn p).1
    · have hpinned := run_pinned (answer_of_unread hb' hunread hn p).2 hk
      have hboard := board_run (d'.step (.read i name p)) after
      rw [board_step] at hboard
      -- the hub is still found under its name
      have hn' : ((d'.step (.read i name p)).run after).board.hub? name = some h := by
        rw [hboard]
        exact (run_changes hb' _).hub?_eq hn
      refine answer_of_pinned ?_ hpinned hn' q
      rw [hboard]
      exact run_sound hb' _

/-- A hub with two scalars, which a transaction wrote. -/
def firstCommit : List DeskOp :=
  [.board (.openHub (Name.hubName "r")), .board (.makeLeaf "v" .scalar "v"),
    .board (.makeLeaf "w" .scalar "w"), .board (.addLeaf ⟨1⟩ "http://x/v" ⟨6⟩),
    .board (.addLeaf ⟨1⟩ "http://x/w" ⟨7⟩), .board (.openTransaction .batch),
    .board (.setValue ⟨1⟩ "http://x/v" (.int 1)), .board (.setValue ⟨1⟩ "http://x/w" (.int 1)),
    .board .finish]

/-- Another transaction writes both scalars. Another context reads them afterwards. -/
def secondCommit : List DeskOp :=
  [.board (.openTransaction .batch), .board (.setValue ⟨1⟩ "http://x/v" (.int 2)),
    .board (.setValue ⟨1⟩ "http://x/w" (.int 2)), .board .finish, .freeze 1,
    .read 1 (Name.hubName "r") "http://x/w"]

/-- A scope that is opened between two commits, and read before and after the second, answers
from the first. -/
theorem reads_repeatable_twoCommits :
    let d := (start {} default {}).run firstCommit
    let read := (d.step (.freeze 0)).step (.read 0 (Name.hubName "r") "http://x/v")
    (d.step (.freeze 0)).answer 0 (Name.hubName "r") "http://x/v" = some [.int 1] ∧
    (read.run secondCommit).answer 0 (Name.hubName "r") "http://x/w" = some [.int 1] ∧
    (read.run secondCommit).answer 1 (Name.hubName "r") "http://x/w" = some [.int 2] ∧
    ((read.run secondCommit).step (.release 0)).answer 0 (Name.hubName "r") "http://x/w" = none := by
  intro d read
  obtain ⟨-, -, hscope⟩ := reads_repeatable {} default Disk.sound_empty firstCommit 0
    (Name.hubName "r")
  obtain ⟨-, hfirst, hlater⟩ := (hscope [] trivial).2 ⟨1⟩ (by decide +kernel)
  obtain ⟨-, hclosed, -⟩ := reads_repeatable {} default Disk.sound_empty
    (firstCommit ++ (.freeze 0 :: .read 0 (Name.hubName "r") "http://x/v" :: secondCommit)) 0
    (Name.hubName "r")
  rw [run_append, run_cons, run_cons] at hclosed
  refine ⟨?_, ?_, by decide +kernel, ?_⟩
  · exact (hfirst "http://x/v").trans (by decide +kernel)
  · exact (hlater "http://x/v" secondCommit (by decide +kernel) "http://x/w").trans
      (by decide +kernel)
  · have hrelease := hclosed [] List.not_mem_nil "http://x/w"
    rw [run_nil] at hrelease
    exact hrelease

end Desk

end Switchboard
