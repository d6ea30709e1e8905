import Switchboard.Json.Value
import Switchboard.Proofs.Line

/-!
# Published numbers are numbers of JSON

A bare number in a published text is written as the grammar of JSON asks for: maybe a minus sign,
then one zero or digits that do not start with zero, then maybe a point and digits. So the reader
takes it as a number, and stops behind it.

* `Literal.isNumber_of_number?`: the text of the number that a literal denotes is a number.
* `Json.readNumber_append`: such a text is read to its end and no further.
-/

namespace Switchboard

namespace Json

/-- What may stand behind a value in a text: nothing, a comma, a closing bracket or brace, or a
line feed. -/
def Clear (rest : List Char) : Prop :=
  ∀ c, rest.head? = some c → c ∈ [',', ']', '\x7d', '\n']

/-- The integer part of a number: one zero, or digits that do not start with zero. -/
inductive IsWhole : List Char → Prop
  | zero : IsWhole ['0']
  | digits {c : Char} {w : List Char} (first : c.isDigit = true) (leading : c ≠ '0')
      (rest : ∀ d ∈ w, d.isDigit = true) : IsWhole (c :: w)

/-- A number without a sign and without an exponent. -/
inductive IsMagnitude : List Char → Prop
  | whole {w : List Char} (integer : IsWhole w) : IsMagnitude w
  | fraction {w f : List Char} (integer : IsWhole w) (some : f ≠ [])
      (digits : ∀ d ∈ f, d.isDigit = true) : IsMagnitude (w ++ '.' :: f)

/-- A number without an exponent. -/
inductive IsNumber : List Char → Prop
  | plain {w : List Char} (magnitude : IsMagnitude w) : IsNumber w
  | minus {w : List Char} (magnitude : IsMagnitude w) : IsNumber ('-' :: w)

/-! ### Reading numbers -/

variable {w rest : List Char}

/-- A text that does not go on with a digit. -/
def NoDigit (rest : List Char) : Prop := ∀ c, rest.head? = some c → c.isDigit = false

theorem Clear.not_mem (hr : Clear rest) {c : Char} (h : rest.head? = some c) :
    c.isDigit = false ∧ c ≠ '.' ∧ ¬(c = 'e' ∨ c = 'E') := by
  obtain rfl | rfl | rfl | rfl : c = ',' ∨ c = ']' ∨ c = '\x7d' ∨ c = '\n' := by
    simpa using hr c h
  all_goals decide

theorem Clear.noDigit (hr : Clear rest) : NoDigit rest := fun _ h => (hr.not_mem h).1

theorem readDigits_append (hw : w ≠ []) (hd : ∀ c ∈ w, c.isDigit = true) (hr : NoDigit rest) :
    readDigits (w ++ rest) = some (w, rest) := by
  have hstop : rest.takeWhile Char.isDigit = [] ∧ rest.dropWhile Char.isDigit = rest := by
    cases rest with
    | nil => exact ⟨rfl, rfl⟩
    | cons c t =>
      have hc := hr c rfl
      exact ⟨List.takeWhile_cons_of_neg (by simp [hc]), List.dropWhile_cons_of_neg (by simp [hc])⟩
  unfold readDigits
  rw [List.takeWhile_append_of_pos hd, List.dropWhile_append_of_pos hd, hstop.1, hstop.2,
    List.append_nil]
  cases w with
  | nil => exact absurd rfl hw
  | cons c t => rfl

theorem readInteger_append (hw : IsWhole w) (hr : NoDigit rest) :
    readInteger (w ++ rest) = some (w, rest) := by
  cases hw with
  | zero => rfl
  | @digits c t first leading htail =>
    have hd : ∀ d ∈ c :: t, d.isDigit = true := List.forall_mem_cons.2 ⟨first, htail⟩
    have hread := readDigits_append (List.cons_ne_nil c t) hd hr
    rw [List.cons_append] at hread ⊢
    unfold readInteger
    split
    · rename_i heq
      exact absurd (List.cons.inj heq).1 leading
    · exact hread

theorem readExponent_of_clear (hr : Clear rest) : readExponent rest = some ([], rest) := by
  cases rest with
  | nil => rfl
  | cons c t =>
    rw [readExponent.eq_def]
    exact if_neg (hr.not_mem rfl).2.2

theorem readMagnitude_append (hw : IsMagnitude w) (hr : Clear rest) :
    readMagnitude (w ++ rest) = some (w, rest) := by
  unfold readMagnitude
  cases hw with
  | whole integer =>
    have hfrac : readFraction rest = some ([], rest) := by
      unfold readFraction
      split
      · exact absurd rfl (hr.not_mem rfl).2.1
      · rfl
    simp [readInteger_append integer hr.noDigit, hfrac, readExponent_of_clear hr]
  | @fraction v f integer some digits =>
    have hpoint : NoDigit ('.' :: (f ++ rest)) := by
      intro c hc
      cases hc
      decide
    have hfrac : readFraction ('.' :: (f ++ rest)) = Option.some ('.' :: f, rest) := by
      rw [readFraction, readDigits_append some digits hr.noDigit]
      rfl
    rw [List.append_assoc, List.cons_append]
    simp [readInteger_append integer hpoint, hfrac, readExponent_of_clear hr]

/-- **A number is read to its end**, and no further. -/
theorem readNumber_append (hw : IsNumber w) (hr : Clear rest) :
    readNumber (w ++ rest) = some (w, rest) := by
  cases hw with
  | plain magnitude =>
    have hread := readMagnitude_append magnitude hr
    unfold readNumber
    split
    · rename_i s heq
      -- no number without a sign starts with one
      rw [heq] at hread
      have hnone : readMagnitude ('-' :: s) = none := rfl
      rw [hnone] at hread
      cases hread
    · exact hread
  | minus magnitude =>
    rw [List.cons_append, readNumber, readMagnitude_append magnitude hr]
    rfl

theorem IsWhole.isDigit (hw : IsWhole w) : ∀ c ∈ w, c.isDigit = true := by
  cases hw with
  | zero => exact fun c hc => List.mem_singleton.1 hc ▸ by decide
  | digits first _ rest => exact List.forall_mem_cons.2 ⟨first, rest⟩

/-- A number starts with a digit or a minus sign. -/
theorem IsNumber.head (hw : IsNumber w) :
    ∃ c t, w = c :: t ∧ (c.isDigit = true ∨ c = '-') := by
  have hwhole : ∀ {v : List Char}, IsWhole v → ∃ c t, v = c :: t ∧ c.isDigit = true := by
    intro v hv
    cases hv with
    | zero => exact ⟨'0', [], rfl, by decide⟩
    | digits first _ _ => exact ⟨_, _, rfl, first⟩
  cases hw with
  | minus _ => exact ⟨'-', _, rfl, .inr rfl⟩
  | plain magnitude =>
    cases magnitude with
    | whole integer =>
      obtain ⟨c, t, rfl, hc⟩ := hwhole integer
      exact ⟨c, t, rfl, .inl hc⟩
    | @fraction v f integer _ _ =>
      obtain ⟨c, t, rfl, hc⟩ := hwhole integer
      exact ⟨c, t ++ '.' :: f, rfl, .inl hc⟩

end Json

/-! ### Written numbers -/

namespace Decimal

open Json

/-- The digits of a positive number do not start with zero. -/
theorem digits_eq_cons {n : Nat} (hn : 0 < n) : ∃ c w, digits n = c :: w ∧ c ≠ '0' := by
  induction n using Nat.strongRecOn with
  | ind n ih =>
    unfold digits
    rw [Nat.toDigits_eq_if (by decide)]
    split
    · rename_i hlt
      have hdigit : ∀ m : Fin 10, 0 < m.val → m.val.digitChar ≠ '0' := by decide
      exact ⟨_, [], rfl, hdigit ⟨n, hlt⟩ hn⟩
    · rename_i hle
      obtain ⟨c, w, hw, hc⟩ := ih (n / 10) (by omega) (by omega)
      unfold digits at hw
      exact ⟨c, w ++ [(n % 10).digitChar], by rw [hw, List.cons_append], hc⟩

/-- Digits that start as those of a positive number do. -/
theorem isWhole_of_overlap {n : Nat} (hn : 0 < n) {w : List Char} (hw : w ≠ [])
    (hd : ∀ c ∈ w, c.isDigit = true) (h : w <+: digits n ∨ digits n <+: w) : IsWhole w := by
  obtain ⟨c, v, hc, hne⟩ := digits_eq_cons hn
  obtain ⟨d, u, rfl⟩ := List.exists_cons_of_ne_nil hw
  have hdc : d = c := by
    rw [hc] at h
    rcases h with h | h
    · exact (List.cons_prefix_cons.1 h).1
    · exact (List.cons_prefix_cons.1 h).1.symm
  rw [List.forall_mem_cons] at hd
  exact .digits hd.1 (hdc ▸ hne) hd.2

theorem isWhole_digits (n : Nat) : IsWhole (digits n) := by
  rcases Nat.eq_zero_or_pos n with rfl | hn
  · exact .zero
  · exact isWhole_of_overlap hn Nat.toDigits_ne_nil (fun _ hc => isDigit_of_mem_digits hc)
      (.inl List.prefix_rfl)

theorem isNumber_text (i : Int) : IsNumber (text i) := by
  unfold text
  split
  · exact .minus (.whole (isWhole_digits _))
  · exact .plain (.whole (isWhole_digits _))

theorem isDigit_of_mem_replicate {n : Nat} {c : Char} (hc : c ∈ List.replicate n '0') :
    c.isDigit = true := by
  rw [List.eq_of_mem_replicate hc]
  decide

/-- The digits of a number, with zeros in front if there are not more than `places` of them. -/
def padded (n places : Nat) : List Char :=
  List.replicate (places + 1 - (digits n).length) '0' ++ digits n

theorem isDigit_of_mem_padded {n places : Nat} {c : Char} (hc : c ∈ padded n places) :
    c.isDigit = true := by
  rcases List.mem_append.1 hc with hc | hc
  · exact isDigit_of_mem_replicate hc
  · exact isDigit_of_mem_digits hc

/-- The integer part in front of the last places: the first digits, or one zero if there are too
few. -/
theorem isWhole_padded {n : Nat} (hn : 0 < n) (places : Nat) :
    IsWhole ((padded n places).take ((padded n places).length - places)) := by
  have hlen : (padded n places).length =
      (places + 1 - (digits n).length) + (digits n).length := by
    rw [padded, List.length_append, List.length_replicate]
  by_cases hmany : places + 1 ≤ (digits n).length
  · have hz : places + 1 - (digits n).length = 0 := by omega
    have hpad : padded n places = digits n := by
      rw [padded, hz, List.replicate_zero, List.nil_append]
    refine isWhole_of_overlap hn ?_
      (fun c hc => isDigit_of_mem_padded (List.mem_of_mem_take hc)) ?_
    · rw [← List.length_pos_iff, List.length_take]
      omega
    · rw [hpad]
      exact .inl (List.take_prefix _ _)
  · obtain ⟨j, hj⟩ : ∃ j, places + 1 - (digits n).length = j + 1 :=
      ⟨places - (digits n).length, by omega⟩
    have hone : (padded n places).length - places = 1 := by omega
    rw [hone, padded, hj, List.replicate_succ]
    exact .zero

/-- A positive decimal is written as a number without a sign. -/
theorem isMagnitude_scaled {d : Scaled} (hd : 0 < d.digits) : IsMagnitude d.text := by
  unfold Scaled.text
  dsimp only
  split
  · refine .whole (isWhole_of_overlap hd ?_ (fun c hc => ?_) (.inr (List.prefix_append _ _)))
    · exact List.append_ne_nil_of_left_ne_nil Nat.toDigits_ne_nil _
    · rcases List.mem_append.1 hc with hc | hc
      · exact isDigit_of_mem_digits hc
      · exact isDigit_of_mem_replicate hc
  · have hwhole := isWhole_padded hd (-d.power).toNat
    split
    · exact .whole hwhole
    · rename_i hsome
      refine .fraction hwhole hsome fun c hc => ?_
      have hdrop := List.mem_reverse.1 ((List.dropWhile_sublist _).mem (List.mem_reverse.1 hc))
      exact isDigit_of_mem_padded (List.mem_of_mem_drop hdrop)

namespace Binary64

theorem up_pos (e : Int) : 0 < up e := by
  unfold up
  rw [Nat.one_shiftLeft]
  exact Nat.two_pow_pos _

theorem tens_pos (p : Int) : 0 < tens p := Nat.pow_pos (by decide)

/-- Zero is not read back as a positive value. -/
theorem readsBack_zero {m : Nat} (hm : 0 < m) (q p : Int) : readsBack m q 0 p = false := by
  have hunit : 0 < up q * tens (-p) := Nat.mul_pos (up_pos q) (tens_pos (-p))
  have hlow : 0 < (if m = leastMantissa ∧ minExponent < q then 4 * m - 1 else 4 * m - 2) := by
    split <;> omega
  have hpos := Nat.mul_pos hlow hunit
  unfold readsBack
  dsimp only
  rw [Nat.mul_zero, Nat.zero_mul, Nat.zero_mul]
  split
  · rw [decide_eq_false (Nat.not_le.2 hpos)]
    rfl
  · rw [decide_eq_false (Nat.not_lt.2 (Nat.le_of_lt hpos))]
    rfl

/-- A decimal that is tried is read back, and it is next to the value. -/
theorem nearest?_eq_some {m : Nat} {q p : Int} {d : Scaled} (h : nearest? m q p = some d) :
    d.power = p ∧ readsBack m q d.digits p = true ∧
      d.digits ≤ m * up q * tens (-p) / (up (-q) * tens p) + 1 := by
  unfold nearest? at h
  dsimp only at h
  split at h
  · rename_i hlow hhigh
    cases h
    dsimp only
    split
    · exact ⟨rfl, hlow, Nat.le_succ _⟩
    · exact ⟨rfl, hhigh, Nat.le_refl _⟩
  · rename_i hlow _
    cases h
    exact ⟨rfl, hlow, Nat.le_succ _⟩
  · rename_i _ hhigh
    cases h
    exact ⟨rfl, hhigh, Nat.le_refl _⟩
  · cases h

/-- **The shortest decimal is one of those that are tried**, with at most seventeen digits. -/
theorem shortest_cases (m : Nat) (q : Int) :
    (∃ n : Nat, n ≤ 17 ∧ nearest? m q (leadingPower m q - n) = some (shortest m q)) ∨
      shortest m q = ⟨m, 0⟩ := by
  unfold shortest
  generalize leadingPower m q = k
  suffices ∀ fuel n : Nat, n + fuel = 18 →
      (∃ n' : Nat, n' ≤ 17 ∧ nearest? m q (k - n') = some (firstNearest m q k fuel n)) ∨
        firstNearest m q k fuel n = ⟨m, 0⟩ from this 17 1 rfl
  intro fuel
  induction fuel with
  | zero => exact fun _ _ => .inr rfl
  | succ fuel ih =>
    intro n hn
    rw [firstNearest]
    split
    · rename_i d hd
      exact .inl ⟨n, by omega, hd⟩
    · exact ih (n + 1) (by omega)

theorem digits_shortest {m : Nat} (hm : 0 < m) (q : Int) : 0 < (shortest m q).digits := by
  rcases shortest_cases m q with ⟨n, -, hn⟩ | h
  · have hread := (nearest?_eq_some hn).2.1
    refine Nat.pos_of_ne_zero fun h0 => ?_
    rw [h0, readsBack_zero hm] at hread
    cases hread
  · rw [h]
    exact hm

/-- A finite value is written as a number. -/
theorem isNumber_text {x : Binary64} (h : x.isFinite = true) : IsNumber x.text := by
  cases x with
  | nan => cases h
  | infinite negative => cases h
  | finite negative m q =>
    have hmag : IsMagnitude (if m = 0 then ['0'] else (shortest m q).text) := by
      split
      · exact .whole .zero
      · exact isMagnitude_scaled (digits_shortest (Nat.pos_of_ne_zero ‹_›) q)
    unfold text
    dsimp only
    split
    · exact .minus hmag
    · exact .plain hmag

end Binary64

end Decimal

/-- **The number of a literal is written as a number of JSON.** -/
theorem Literal.isNumber_of_number? {l : Literal} {n : Number} (h : l.number? = some n) :
    Json.IsNumber n.text := by
  have hfloat : ∀ {s : List Char}, Literal.float? s = some n → Json.IsNumber n.text := by
    intro s hs
    unfold Literal.float? at hs
    split at hs
    · split at hs
      · cases hs
        exact Decimal.Binary64.isNumber_text ‹_›
      · cases hs
    · cases hs
  unfold Literal.number? at h
  dsimp only at h
  split at h
  · split at h
    · split at h
      · cases h
        exact Decimal.isNumber_text _
      · cases h
        exact .plain (.whole (Decimal.isWhole_digits _))
      · exact hfloat h
    · exact hfloat h
  · cases h

end Switchboard
