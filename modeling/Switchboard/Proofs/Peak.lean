import Mathlib.Data.List.Basic
import Mathlib.Data.List.Induction
import Mathlib.Order.Bounds.Basic
import Switchboard.Proofs.Apart

/-!
# The peak of a meter

What happens to a meter is a history: it moves by steps, it is written, it is sampled. The making
of a meter counts as its first sample. A window spans two consecutive samples, and the peak is the
greatest of 0 and the rates of the windows that closed since the last write and lasted long enough.

A sample moves the window of a meter even if it raises no peak, and a write moves the peak but not
the window. `Meter.Tracks` says what each part of a meter knows of its history.

* `Tracks.act`: what happens next.
* `tracks_replay`: a whole history.
-/

namespace Switchboard

namespace Meter

/-- What can happen to a meter. -/
inductive Act
  | count (steps : Int)
  | write
  | sample (now : Int)
  deriving DecidableEq

/-- Whether it is a sample. -/
def Act.isSample : Act → Bool
  | .sample _ => true
  | _ => false

/-- By how much it moves the count. -/
def Act.steps : Act → Int
  | .count steps => steps
  | _ => 0

/-- A meter after something happened to it. -/
def act (m : Meter) : Act → Meter
  | .count steps => { m with count := m.count + steps }
  | .write => { m with peak := 0 }
  | .sample now => (m.sample now).1

/-- A meter after a history. -/
def replay (m : Meter) (acts : List Act) : Meter := acts.foldl act m

@[simp] theorem replay_cons (m : Meter) (a : Act) (acts : List Act) :
    m.replay (a :: acts) = (m.act a).replay acts := rfl

theorem replay_append (m : Meter) (acts acts' : List Act) :
    m.replay (acts ++ acts') = (m.replay acts).replay acts' := List.foldl_append

/-- What comes of acts, one after the other: each of them, and behind a sample what it brings about,
which is no sample. -/
inductive Brings : List Act → List Act → Prop
  | nil : Brings [] []
  | cons {a : Act} {asked acts brought : List Act}
    (unsampled : ∀ x ∈ brought, x.isSample = false) (only : a.isSample = false → brought = [])
    (rest : Brings asked acts) : Brings (a :: asked) (a :: brought ++ acts)

/-! ### Windows of a history -/

/-- By how much a history moves the count. -/
def counted : List Act → Int
  | [] => 0
  | a :: history => a.steps + counted history

@[simp] theorem counted_nil : counted [] = 0 := rfl

@[simp] theorem counted_cons (a : Act) (history : List Act) :
    counted (a :: history) = a.steps + counted history := rfl

@[simp] theorem counted_append (history history' : List Act) :
    counted (history ++ history') = counted history + counted history' := by
  induction history with
  | nil => simp
  | cons a history ih => simp [ih, Int.add_assoc]

/-- How many steps a history takes in all, up or down. -/
def travelled : List Act → Nat
  | [] => 0
  | a :: history => a.steps.natAbs + travelled history

theorem travelled_append (history history' : List Act) :
    travelled (history ++ history') = travelled history + travelled history' := by
  induction history with
  | nil => simp [travelled]
  | cons a history ih => simp [travelled, ih, Nat.add_assoc]

theorem natAbs_counted_le (history : List Act) : (counted history).natAbs ≤ travelled history := by
  induction history with
  | nil => exact Nat.le_refl 0
  | cons a history ih =>
    rw [counted_cons, travelled]
    omega

/-- A window of a history: two samples, with what happened before, between and after them. -/
structure Window (history : List Act) where
  before : List Act
  opened : Int
  between : List Act
  closed : Int
  after : List Act
  split : history = before ++ .sample opened :: (between ++ .sample closed :: after)
  unsampled : ∀ a ∈ between, a.isSample = false

namespace Window

variable {history : List Act} (w : Window history)

/-- How long a window lasted. If time went back it did not last at all. -/
def length : Int := max 0 (w.closed - w.opened)

/-- By how much the count changed in a window. -/
def change : Int := counted w.between

/-- The events per second in a window, cut off toward zero. -/
def rate : Int := (1000 * w.change).tdiv (max 1 (w.length / 1000000))

/-- A window of a history is one of any longer history. -/
def extend (a : Act) : Window (history ++ [a]) where
  before := w.before
  opened := w.opened
  between := w.between
  closed := w.closed
  after := w.after ++ [a]
  split := by
    conv_lhs => rw [w.split]
    simp
  unsampled := w.unsampled

/-- **A window was there before, or it is closed by what happened last.** -/
theorem eq_extend_or {a : Act} (w : Window (history ++ [a])) :
    (∃ v : Window history, w = v.extend a) ∨ (w.after = [] ∧ a = .sample w.closed ∧
      history = w.before ++ .sample w.opened :: w.between) := by
  obtain ⟨before, opened, between, closed, after, split, unsampled⟩ := w
  rcases List.eq_nil_or_concat' after with rfl | ⟨after, a', rfl⟩
  · refine .inr ⟨rfl, ?_⟩
    have hs : history ++ [a] = (before ++ .sample opened :: between) ++ [.sample closed] := by
      rw [split]
      simp
    obtain ⟨hh, ha⟩ := List.append_inj' hs rfl
    exact ⟨List.head_eq_of_cons_eq ha, hh⟩
  · have hs : history ++ [a] =
        (before ++ .sample opened :: (between ++ .sample closed :: after)) ++ [a'] := by
      rw [split]
      simp
    obtain ⟨hh, ha⟩ := List.append_inj' hs rfl
    obtain rfl := List.head_eq_of_cons_eq ha
    exact .inl ⟨⟨before, opened, between, closed, after, hh, unsampled⟩, rfl⟩

/-- Only a sample closes a window. -/
theorem isSample_of_after {a : Act} {w : Window (history ++ [a])} (ha : w.after = []) :
    a.isSample = true := by
  rcases w.eq_extend_or with ⟨v, rfl⟩ | ⟨-, hlast, -⟩
  · exact absurd ha (by simp [extend])
  · rw [hlast]
    rfl

end Window

/-- The rates of the windows that closed since the last write and lasted longer than `least`. -/
def recentRates (least : Nat) (history : List Act) : Set Int :=
  { r | ∃ w : Window history, .write ∉ w.after ∧ least < w.length ∧ r = w.rate }

/-- Whether the events of each window can be counted in thousandths by a signed 64-bit word. -/
def IsExact (history : List Act) : Prop := ∀ w : Window history, InWord (1000 * w.change)

variable {history : List Act} {m : Meter} {least : Nat} {r : Int}

theorem IsExact.of_append {a : Act} (h : IsExact (history ++ [a])) : IsExact history :=
  fun w => h (w.extend a)

/-- A history of few steps is exact. -/
theorem isExact_of_travelled (h : 1000 * travelled history < 0x8000000000000000) :
    IsExact history := by
  intro w
  have hw := natAbs_counted_le w.between
  have hle : travelled w.between ≤ travelled history := by
    have hsplit := congrArg travelled w.split
    rw [travelled_append, travelled, travelled_append] at hsplit
    omega
  rw [Window.change, InWord]
  omega

/-- **The rates after what happened next**: those from before, unless it was a write, and that of
the window that it closed. -/
theorem mem_recentRates_snoc {a : Act} : r ∈ recentRates least (history ++ [a]) ↔
    (a ≠ .write ∧ r ∈ recentRates least history) ∨
      ∃ w : Window (history ++ [a]), w.after = [] ∧ least < w.length ∧ r = w.rate := by
  constructor
  · rintro ⟨w, hw, hl, rfl⟩
    rcases w.eq_extend_or with ⟨v, rfl⟩ | ⟨ha, -, -⟩
    · have hv : .write ∉ v.after ++ [a] := hw
      rw [List.mem_append, List.mem_singleton, not_or] at hv
      exact .inl ⟨fun h => hv.2 h.symm, v, hv.1, hl, rfl⟩
    · exact .inr ⟨w, ha, hl, rfl⟩
  · rintro (⟨ha, w, hw, hl, rfl⟩ | ⟨w, ha, hl, rfl⟩)
    · refine ⟨w.extend a, ?_, hl, rfl⟩
      show .write ∉ w.after ++ [a]
      rw [List.mem_append, List.mem_singleton, not_or]
      exact ⟨hw, fun h => ha h.symm⟩
    · exact ⟨w, by rw [ha]; exact List.not_mem_nil, hl, rfl⟩

theorem recentRates_count (least : Nat) (history : List Act) (steps : Int) :
    recentRates least (history ++ [.count steps]) = recentRates least history := by
  ext r
  rw [mem_recentRates_snoc]
  constructor
  · rintro (⟨-, hr⟩ | ⟨w, ha, -, -⟩)
    · exact hr
    · cases Window.isSample_of_after ha
  · exact fun hr => .inl ⟨nofun, hr⟩

theorem recentRates_write (least : Nat) (history : List Act) :
    recentRates least (history ++ [.write]) = ∅ := by
  rw [Set.eq_empty_iff_forall_notMem]
  intro r hr
  rcases mem_recentRates_snoc.1 hr with ⟨h, -⟩ | ⟨w, ha, -, -⟩
  · exact h rfl
  · cases Window.isSample_of_after ha

/-- The last sample of a history is at one place only. -/
theorem last_sample_unique {before before' between between' : List Act} {opened opened' : Int}
    (h : before ++ .sample opened :: between = before' ++ .sample opened' :: between')
    (hb : ∀ a ∈ between, a.isSample = false) (hb' : ∀ a ∈ between', a.isSample = false) :
    opened = opened' ∧ between = between' := by
  have hno : ∀ {xs ys zs : List Act} {t u : Int}, (∀ a ∈ xs, a.isSample = false) →
      .sample t :: xs = ys ++ .sample u :: zs → t = u ∧ xs = zs := by
    intro xs ys zs t u hx he
    cases ys with
    | nil =>
      cases he
      exact ⟨rfl, rfl⟩
    | cons y ys =>
      obtain ⟨-, rfl⟩ := List.cons.inj he
      cases hx (.sample u) (by simp)
  rcases List.append_eq_append_iff.1 h with ⟨ys, -, he⟩ | ⟨ys, -, he⟩
  · exact hno hb he
  · obtain ⟨ht, hx⟩ := hno hb' he
    exact ⟨ht.symm, hx.symm⟩

/-! ### Single samples -/

theorem clampWord_of_inWord {i : Int} (h : InWord i) : RateWindow.clampWord i = i := by
  unfold InWord at h
  unfold RateWindow.clampWord
  omega

@[simp] theorem count_sample (m : Meter) (now : Int) : (m.sample now).1.count = m.count := by
  unfold sample RateWindow.observe
  split
  · split <;> rfl
  · rfl

@[simp] theorem least_sample (m : Meter) (now : Int) : (m.sample now).1.least = m.least := by
  unfold sample RateWindow.observe
  split
  · split <;> rfl
  · rfl

/-- A sample moves the window, whether it counts or not. -/
@[simp] theorem window_sample (m : Meter) (now : Int) :
    (m.sample now).1.window = ⟨m.count, now⟩ := by
  unfold sample RateWindow.observe
  split <;> rename_i he <;> obtain ⟨rfl, -⟩ := Prod.mk.inj he
  · split <;> rfl
  · rfl

/-- **A sample raises the peak to the rate of its window** if that is higher. -/
theorem peak_sample (m : Meter) (now : Int) : (m.sample now).1.peak =
    ((m.window.rate? m.count now m.least).elim m.peak (max m.peak)) := by
  unfold sample RateWindow.observe
  split <;> rename_i he <;> obtain ⟨-, hr⟩ := Prod.mk.inj he <;> rw [hr]
  · rename_i rate
    split <;> rename_i hlt
    · exact (max_eq_right (Int.le_of_lt hlt)).symm
    · exact (max_eq_left (Int.not_lt.1 hlt)).symm
  · rfl

/-- **A sample says exactly whether the peak rose.** -/
theorem sample_snd (m : Meter) (now : Int) :
    (m.sample now).2 = true ↔ m.peak < (m.sample now).1.peak := by
  unfold sample RateWindow.observe
  split
  · split <;> rename_i hlt
    · exact iff_of_true rfl hlt
    · exact iff_of_false Bool.false_ne_true (Int.lt_irrefl _)
  · exact iff_of_false Bool.false_ne_true (Int.lt_irrefl _)

/-- Whatever happens moves the count by its steps. -/
theorem count_act (m : Meter) (a : Act) : (m.act a).count = m.count + a.steps := by
  cases a with
  | count steps => rfl
  | write => exact (Int.add_zero _).symm
  | sample now => exact (count_sample m now).trans (Int.add_zero _).symm

/-- Only a sample moves the window. -/
theorem window_act (m : Meter) {a : Act} (ha : a.isSample = false) :
    (m.act a).window = m.window := by
  cases a with
  | sample now => cases ha
  | _ => rfl

theorem window_replay {m : Meter} {acts : List Act} (ha : ∀ a ∈ acts, a.isSample = false) :
    (m.replay acts).window = m.window := by
  induction acts generalizing m with
  | nil => rfl
  | cons a acts ih =>
    rw [replay_cons, ih fun x hx => ha x (List.mem_cons_of_mem a hx),
      window_act m (ha a List.mem_cons_self)]

theorem least_replay (m : Meter) (acts : List Act) : (m.replay acts).least = m.least := by
  induction acts generalizing m with
  | nil => rfl
  | cons a acts ih =>
    rw [replay_cons, ih]
    cases a with
    | sample now => exact least_sample m now
    | _ => rfl

/-! ### What a meter knows of its history -/

/-- **A meter that has a history**: it has counted its steps, its window opened with the last
sample, and its peak is the greatest of 0 and the recent rates. -/
structure Tracks (history : List Act) (m : Meter) : Prop where
  count : m.count = counted history
  window : ∃ before between, history = before ++ .sample m.window.openedAt :: between ∧
    (∀ a ∈ between, a.isSample = false) ∧ m.count = m.window.count + counted between
  peak : IsGreatest (insert 0 (recentRates m.least history)) m.peak

/-- A meter that was just made has only its first sample behind it. -/
theorem tracks_new (least : Nat) (created : Int) :
    Tracks [.sample created] { least, window := { openedAt := created } } where
  count := rfl
  window := ⟨[], [], rfl, nofun, rfl⟩
  peak := by
    have hnone : recentRates least [.sample created] = ∅ := by
      rw [Set.eq_empty_iff_forall_notMem]
      rintro r ⟨w, -, -, -⟩
      -- a window takes two samples
      have hlen := congrArg List.length w.split
      simp only [List.length_append, List.length_cons, List.length_nil] at hlen
      omega
    show IsGreatest (insert 0 (recentRates least [.sample created])) 0
    rw [hnone, insert_empty_eq]
    exact isGreatest_singleton

/-- The window that a sample closes is the one that the meter has open. -/
theorem Tracks.eq_open {now : Int} (ht : Tracks history m)
    (w : Window (history ++ [.sample now])) (ha : w.after = []) :
    w.opened = m.window.openedAt ∧ w.closed = now ∧ w.change = m.count - m.window.count := by
  obtain ⟨before, between, hh, hb, hc⟩ := ht.window
  rcases w.eq_extend_or with ⟨v, rfl⟩ | ⟨-, hnow, hsplit⟩
  · exact absurd ha (by simp [Window.extend])
  · obtain ⟨ho, hbetween⟩ := last_sample_unique (hsplit.symm.trans hh) w.unsampled hb
    refine ⟨ho, (Act.sample.inj hnow).symm, ?_⟩
    rw [Window.change, hbetween]
    omega

/-- The open window, closed by a sample. -/
theorem Tracks.exists_open (ht : Tracks history m) (now : Int) :
    ∃ w : Window (history ++ [.sample now]), w.after = [] := by
  obtain ⟨before, between, hh, hb, -⟩ := ht.window
  exact ⟨⟨before, m.window.openedAt, between, now, [], by simp [hh], hb⟩, rfl⟩

/-- The rate that a meter computes is that of the window. -/
theorem Tracks.rate?_eq {now : Int} (ht : Tracks history m)
    (w : Window (history ++ [.sample now])) (ha : w.after = []) (hw : InWord (1000 * w.change)) :
    m.window.rate? m.count now m.least = if m.least < w.length then some w.rate else none := by
  obtain ⟨ho, hc, hd⟩ := ht.eq_open w ha
  have hlen : m.window.elapsed now = w.length := by
    rw [RateWindow.elapsed, Window.length, ho, hc]
  have hthousand : (m.count - m.window.count) * 1000 = 1000 * w.change := by
    rw [hd, Int.mul_comm]
  rw [RateWindow.rate?, hlen, hthousand, clampWord_of_inWord hw]
  by_cases hl : w.length ≤ m.least
  · rw [if_pos hl, if_neg (Int.not_lt.2 hl)]
  · rw [if_neg hl, if_pos (Int.not_le.1 hl)]
    rfl

/-- The recent rates after a sample: one more if the window that it closed lasted long enough. -/
theorem Tracks.recentRates_sample {now : Int} (ht : Tracks history m)
    (w : Window (history ++ [.sample now])) (ha : w.after = []) :
    recentRates m.least (history ++ [.sample now]) =
      if m.least < w.length then insert w.rate (recentRates m.least history)
      else recentRates m.least history := by
  ext r
  rw [mem_recentRates_snoc]
  -- there is no other window that the sample closes
  have hone : ∀ v : Window (history ++ [.sample now]), v.after = [] →
      v.length = w.length ∧ v.rate = w.rate := by
    intro v hv
    obtain ⟨ho, hc, hd⟩ := ht.eq_open w ha
    obtain ⟨ho', hc', hd'⟩ := ht.eq_open v hv
    have hlen : v.length = w.length := by
      rw [Window.length, Window.length, ho, hc, ho', hc']
    refine ⟨hlen, ?_⟩
    rw [Window.rate, Window.rate, hlen, hd, hd']
  constructor
  · rintro (⟨-, hr⟩ | ⟨v, hv, hl, rfl⟩)
    · split
      · exact .inr hr
      · exact hr
    · obtain ⟨hlen, hrate⟩ := hone v hv
      rw [hlen] at hl
      rw [if_pos hl]
      exact .inl hrate
  · intro hr
    split at hr
    · rename_i hl
      rcases hr with rfl | hr
      · exact .inr ⟨w, ha, hl, rfl⟩
      · exact .inl ⟨nofun, hr⟩
    · exact .inl ⟨nofun, hr⟩

/-- The window stays open if the meter is not sampled. -/
theorem Tracks.window_snoc (ht : Tracks history m) {a : Act} (ha : a.isSample = false) :
    ∃ before between, history ++ [a] = before ++ .sample (m.act a).window.openedAt :: between ∧
      (∀ a ∈ between, a.isSample = false) ∧
      (m.act a).count = (m.act a).window.count + counted between := by
  obtain ⟨before, between, hh, hb, hc⟩ := ht.window
  have hw := m.window_act ha
  refine ⟨before, between ++ [a], ?_, ?_, ?_⟩
  · rw [hw]
    conv_lhs => rw [hh]
    simp
  · intro x hx
    rcases List.mem_append.1 hx with hx | hx
    · exact hb x hx
    · rw [List.mem_singleton.1 hx]
      exact ha
  · rw [hw, count_act, hc, counted_append, counted_cons, counted_nil]
    omega

/-- **What happens next**, whatever it is. -/
theorem Tracks.act (ht : Tracks history m) {a : Act} (he : IsExact (history ++ [a])) :
    Tracks (history ++ [a]) (m.act a) := by
  have hcount : (m.act a).count = counted (history ++ [a]) := by
    rw [count_act, ht.count, counted_append, counted_cons, counted_nil]
    omega
  refine ⟨hcount, ?_, ?_⟩
  case refine_1 =>
    cases a with
    | sample now =>
      -- the sample opens the next window
      refine ⟨history, [], ?_, nofun, ?_⟩
      · show _ = history ++ [.sample (m.sample now).1.window.openedAt]
        rw [window_sample]
      · show (m.sample now).1.count = (m.sample now).1.window.count + 0
        rw [count_sample, window_sample, Int.add_zero]
    | _ => exact ht.window_snoc rfl
  case refine_2 =>
    cases a with
    | count steps =>
      rw [recentRates_count]
      exact ht.peak
    | write =>
      rw [recentRates_write, insert_empty_eq]
      exact isGreatest_singleton
    | sample now =>
      obtain ⟨w, ha⟩ := ht.exists_open now
      show IsGreatest (insert 0 (recentRates (m.sample now).1.least _)) (m.sample now).1.peak
      rw [least_sample, peak_sample, ht.rate?_eq w ha (he w), ht.recentRates_sample w ha]
      by_cases hl : m.least < w.length
      · rw [if_pos hl, if_pos hl, Set.insert_comm]
        show IsGreatest _ (max m.peak w.rate)
        rw [max_comm]
        exact ht.peak.insert w.rate
      · rw [if_neg hl, if_neg hl]
        exact ht.peak

/-- **A whole history.** -/
theorem tracks_replay (ht : Tracks history m) {acts : List Act} (he : IsExact (history ++ acts)) :
    Tracks (history ++ acts) (m.replay acts) := by
  induction acts using List.reverseRecOn with
  | nil =>
    rw [List.append_nil]
    exact ht
  | append_singleton acts a ih =>
    rw [← List.append_assoc] at he ⊢
    rw [replay_append]
    exact (ih he.of_append).act he

end Meter

end Switchboard
