import Mathlib.Data.List.TakeWhile
import Switchboard.Proofs.Apart
import Switchboard.Proofs.Rounding

/-!
# Finite values are read back as finite ones

The shortest decimal of a finite value is nearer to it than to its neighbours, also at the upper end
of the format, so it stays below the bound where rounding ends. Its text denotes that decimal, with
zeros put in or left away as the notation asks for. So a literal made of a finite value has a
number, and one made of another value has none.

* `IsDecimal.readMagnitude`: what digits with a point among them are read as.
* `isDecimal_text`: which decimal a text without an exponent denotes.
* `shortest_lt`: the shortest decimal of a finite value is below the bound.
* `Literal.isSome_number?_double`: the floating point values that make literals with a number.
-/

namespace Switchboard

namespace Decimal

/-- The value of digits. -/
def value (ds : List Char) : Nat := Nat.ofDigitChars 10 ds 0

/-- Digits, with a point among or behind them or none, that denote `n` in units of the last of
`places` decimal places. -/
inductive IsDecimal : List Char → Nat → Nat → Prop
  | whole {w : List Char} (digits : isNumeral w = true) : IsDecimal w (value w) 0
  | point {w f : List Char} (digits : isNumeral w = true) (places : ∀ c ∈ f, c.isDigit = true) :
    IsDecimal (w ++ '.' :: f) (value (w ++ f)) f.length

variable {w f s : List Char} {n places : Nat}

theorem natural?_eq (h : isNumeral w = true) : natural? w = some (value w) := if_pos h

theorem isNumeral_iff : isNumeral w = true ↔ w ≠ [] ∧ ∀ c ∈ w, c.isDigit = true := by
  rw [isNumeral, Bool.and_eq_true, Bool.not_eq_true', List.isEmpty_eq_false_iff, List.all_eq_true]

theorem isNumeral_append (hw : isNumeral w = true) (hf : ∀ c ∈ f, c.isDigit = true) :
    isNumeral (w ++ f) = true := by
  obtain ⟨hne, hdigits⟩ := isNumeral_iff.1 hw
  refine isNumeral_iff.2 ⟨List.append_ne_nil_of_left_ne_nil hne f, fun c hc => ?_⟩
  rcases List.mem_append.1 hc with hc | hc
  · exact hdigits c hc
  · exact hf c hc

/-- A zero at the end is worth a factor of ten. -/
theorem value_append_replicate (ds : List Char) (k : Nat) :
    value (ds ++ List.replicate k '0') = 10 ^ k * value ds := by
  rw [value, Nat.ofDigitChars_append, Nat.ofDigitChars_replicate_zero, value]

theorem value_digits (n : Nat) : value (digits n) = n :=
  Nat.ofDigitChars_toDigits (by decide) (by decide)

/-- Zeros in front are worth nothing. -/
theorem value_padded (n places : Nat) : value (padded n places) = n := by
  rw [padded, value, Nat.ofDigitChars_append, Nat.ofDigitChars_replicate_zero, Nat.mul_zero]
  exact value_digits n

/-! ### Reading -/

theorem IsDecimal.isDigit_head (h : IsDecimal s n places) :
    ∃ c t, s = c :: t ∧ c.isDigit = true := by
  have hhead : ∀ {v : List Char}, isNumeral v = true → ∃ c t, v = c :: t ∧ c.isDigit = true := by
    intro v hv
    obtain ⟨hne, hdigits⟩ := isNumeral_iff.1 hv
    obtain ⟨c, t, rfl⟩ := List.exists_cons_of_ne_nil hne
    exact ⟨c, t, rfl, hdigits c List.mem_cons_self⟩
  cases h with
  | whole digits => exact hhead digits
  | @point w f digits _ =>
    obtain ⟨c, t, rfl, hc⟩ := hhead digits
    exact ⟨c, t ++ '.' :: f, rfl, hc⟩

theorem takeWhile_isDigit (hw : ∀ c ∈ w, c.isDigit = true) (t : List Char) :
    (w ++ '.' :: t).takeWhile Char.isDigit = w ∧
      (w ++ '.' :: t).dropWhile Char.isDigit = '.' :: t := by
  have hpoint : ¬ Char.isDigit '.' = true := by decide
  rw [List.takeWhile_append_of_pos hw, List.dropWhile_append_of_pos hw,
    List.takeWhile_cons_of_neg hpoint, List.dropWhile_cons_of_neg hpoint, List.append_nil]
  exact ⟨rfl, rfl⟩

theorem takeWhile_isDigit_self (hw : ∀ c ∈ w, c.isDigit = true) :
    w.takeWhile Char.isDigit = w ∧ w.dropWhile Char.isDigit = [] := by
  have htake : (w ++ []).takeWhile Char.isDigit = w ++ [].takeWhile Char.isDigit :=
    List.takeWhile_append_of_pos hw
  have hdrop : (w ++ []).dropWhile Char.isDigit = [].dropWhile Char.isDigit :=
    List.dropWhile_append_of_pos hw
  rw [List.append_nil] at htake hdrop
  exact ⟨htake.trans (List.append_nil w), hdrop⟩

namespace Binary64

/-- **What a decimal is read as**: the value nearest to it. -/
theorem readMagnitude_of_isDecimal (h : IsDecimal s n places) (negative : Bool) :
    readMagnitude negative s = some (ofDecimal negative n (-(places : Int))) := by
  cases h with
  | whole digits =>
    obtain ⟨htake, hdrop⟩ := takeWhile_isDigit_self (isNumeral_iff.1 digits).2
    simp only [readMagnitude, htake, hdrop, List.append_nil, natural?_eq digits, readExponent,
      List.length_nil]
    rfl
  | @point w f digits frac =>
    obtain ⟨htake, hdrop⟩ := takeWhile_isDigit (isNumeral_iff.1 digits).2 f
    obtain ⟨htake', hdrop'⟩ := takeWhile_isDigit_self frac
    simp only [readMagnitude, htake, hdrop, htake', hdrop',
      natural?_eq (isNumeral_append digits frac), readExponent, zero_sub]

theorem toLower_of_isDigit {c : Char} (hc : c.isDigit = true) : c.toLower = c := by
  have hdigit : c.val.toNat ≤ 57 := by
    simp only [Char.isDigit, Bool.and_eq_true, decide_eq_true_eq, UInt32.le_iff_toNat_le] at hc
    exact hc.2
  have hupper : ¬ (c.val ≥ 'A'.val ∧ c.val ≤ 'Z'.val) := by
    rintro ⟨h, -⟩
    rw [ge_iff_le, UInt32.le_iff_toNat_le] at h
    have hA : 'A'.val.toNat = 65 := rfl
    omega
  unfold Char.toLower
  rw [dif_neg hupper]

/-- A text that starts with a digit is no name of a value. -/
theorem sameLetters_of_isDigit {c d : Char} (hc : c.isDigit = true) (hd : d.isDigit = false)
    (s t : List Char) : sameLetters (c :: s) (d :: t) = false := by
  have hne : c ≠ d := by
    rintro rfl
    rw [hc] at hd
    cases hd
  rw [sameLetters, List.map_cons, toLower_of_isDigit hc, beq_eq_false_iff_ne]
  intro he
  exact hne (List.cons.inj he).1

/-- **What a decimal after at most one sign is read as.** -/
theorem read?_of_isDecimal (h : IsDecimal s n places) :
    read? s = some (ofDecimal false n (-(places : Int))) ∧
      read? ('+' :: s) = some (ofDecimal false n (-(places : Int))) ∧
      read? ('-' :: s) = some (ofDecimal true n (-(places : Int))) := by
  obtain ⟨c, t, rfl, hc⟩ := h.isDigit_head
  have hname : ∀ d u, d.isDigit = false → sameLetters (c :: t) (d :: u) = false :=
    fun d u hd => sameLetters_of_isDigit hc hd t u
  have hunsigned : ∀ negative, (if sameLetters (c :: t) "inf".toList ||
      sameLetters (c :: t) "infinity".toList then some (.infinite negative)
      else if sameLetters (c :: t) "nan".toList then some .nan
      else readMagnitude negative (c :: t)) = some (ofDecimal negative n (-(places : Int))) := by
    intro negative
    have hinf : sameLetters (c :: t) "inf".toList = false := hname 'i' _ rfl
    have hinfinity : sameLetters (c :: t) "infinity".toList = false := hname 'i' _ rfl
    have hnan : sameLetters (c :: t) "nan".toList = false := hname 'n' _ rfl
    rw [hinf, hinfinity, hnan, readMagnitude_of_isDecimal h]
    rfl
  have hsign : readSign (c :: t) = (false, c :: t) := by
    unfold readSign
    split
    · rename_i heq
      cases heq
      exact absurd hc (by decide)
    · rename_i heq
      cases heq
      exact absurd hc (by decide)
    · rfl
  refine ⟨?_, hunsigned false, hunsigned true⟩
  rw [read?, hsign]
  exact hunsigned false

end Binary64

/-! ### Writing -/

theorem isNumeral_of_isWhole (h : Json.IsWhole w) : isNumeral w = true := by
  refine isNumeral_iff.2 ⟨?_, h.isDigit⟩
  cases h <;> exact List.cons_ne_nil _ _

/-- A text without the zeros at its end. -/
def stripZeros (s : List Char) : List Char := (s.reverse.dropWhile (· = '0')).reverse

theorem stripZeros_append (s : List Char) : ∃ k, s = stripZeros s ++ List.replicate k '0' := by
  have hzeros : s.reverse.takeWhile (· = '0') =
      List.replicate (s.reverse.takeWhile (· = '0')).length '0' := by
    refine List.eq_replicate_of_mem fun c hc => ?_
    have hzero := List.mem_takeWhile_imp hc
    exact of_decide_eq_true hzero
  refine ⟨(s.reverse.takeWhile (· = '0')).length, ?_⟩
  have happend : s.reverse.takeWhile (· = '0') ++ s.reverse.dropWhile (· = '0') = s.reverse :=
    List.takeWhile_append_dropWhile
  have hsplit := congrArg List.reverse happend
  rw [List.reverse_append, List.reverse_reverse, hzeros, List.reverse_replicate] at hsplit
  exact hsplit.symm

/-- A text with a point before its last digits, without zeros at the end. -/
theorem isDecimal_stripZeros (hw : isNumeral w = true) (hf : ∀ c ∈ f, c.isDigit = true) :
    ∃ n places k, IsDecimal (if stripZeros f = [] then w else w ++ '.' :: stripZeros f) n places ∧
      value (w ++ f) = 10 ^ k * n ∧ f.length = places + k := by
  obtain ⟨k, hk⟩ := stripZeros_append f
  have hvalue : value (w ++ f) = 10 ^ k * value (w ++ stripZeros f) := by
    conv_lhs => rw [hk, ← List.append_assoc, value_append_replicate]
  have hlength : f.length = (stripZeros f).length + k := by
    conv_lhs => rw [hk, List.length_append, List.length_replicate]
  refine ⟨value (w ++ stripZeros f), (stripZeros f).length, k, ?_, hvalue, hlength⟩
  by_cases hnil : stripZeros f = []
  · rw [if_pos hnil, hnil, List.append_nil]
    exact .whole hw
  · rw [if_neg hnil]
    refine .point hw fun c hc => hf c ?_
    rw [hk]
    exact List.mem_append_left _ hc

/-- **Which decimal a text without an exponent denotes.** -/
theorem isDecimal_text {d : Scaled} (hd : 0 < d.digits) : ∃ n places, IsDecimal d.text n places ∧
    (n : ℚ) * 10 ^ (-(places : Int)) = d.digits * 10 ^ d.power := by
  have hten : (10 : ℚ) ≠ 0 := by norm_num
  by_cases hpower : 0 ≤ d.power
  · -- zeros at the end
    refine ⟨value (digits d.digits ++ List.replicate d.power.toNat '0'), 0, ?_, ?_⟩
    · rw [Scaled.text]
      dsimp only
      rw [if_pos hpower]
      exact .whole (isNumeral_append (isNumeral_digits _) fun c hc => isDigit_of_mem_replicate hc)
    · have hcast : (10 : ℚ) ^ d.power = 10 ^ d.power.toNat := by
        rw [← zpow_natCast, Int.toNat_of_nonneg hpower]
      rw [value_append_replicate, value_digits, hcast, Nat.cast_zero, neg_zero, zpow_zero, mul_one,
        mul_comm]
      push_cast
      rfl
  · -- a point before the last digits
    have hlen : (padded d.digits (-d.power).toNat).length =
        ((-d.power).toNat + 1 - (digits d.digits).length) + (digits d.digits).length := by
      rw [padded, List.length_append, List.length_replicate]
    have hwhole := isNumeral_of_isWhole (isWhole_padded hd (-d.power).toNat)
    have hfrac : ∀ c ∈ (padded d.digits (-d.power).toNat).drop
        ((padded d.digits (-d.power).toNat).length - (-d.power).toNat), c.isDigit = true :=
      fun c hc => isDigit_of_mem_padded (List.mem_of_mem_drop hc)
    obtain ⟨n, places, k, htext, hvalue, hplaces⟩ := isDecimal_stripZeros hwhole hfrac
    rw [List.take_append_drop, value_padded] at hvalue
    rw [List.length_drop] at hplaces
    refine ⟨n, places, ?_, ?_⟩
    · rw [Scaled.text]
      dsimp only
      rw [if_neg hpower]
      exact htext
    · have hexp : -(places : Int) = k + d.power := by omega
      rw [hvalue, hexp, zpow_add₀ hten, zpow_natCast]
      push_cast
      ring

namespace Binary64

/-! ### The shortest decimal -/

theorem cast_overflow : (overflow : ℚ) = (2 ^ 54 - 1) * 2 ^ (970 : Int) := by
  have hpow : ((2 ^ 970 : Nat) : ℚ) = 2 ^ (970 : Int) := by
    rw [Nat.cast_pow]
    exact (zpow_natCast (2 : ℚ) 970).symm
  rw [overflow, Nat.cast_mul, hpow]
  norm_num

variable {m c : Nat} {q p : Int}

/-- **A decimal that is read back is below the bound**: the middle above the largest mantissa, which
is odd, is not read back. -/
theorem lt_overflow_of_readsBack (hm : m < 2 ^ 53) (hq : q ≤ maxExponent)
    (h : readsBack m q c p = true) : (c : ℚ) * 10 ^ p < overflow := by
  have hunit : 0 < up q * tens (-p) := Nat.mul_pos (up_pos q) (tens_pos (-p))
  have hlt : 4 * c * tens p * up (-q) < 2 * (2 ^ 54 - 1) * (up q * tens (-p)) := by
    unfold readsBack at h
    dsimp only at h
    by_cases heven : m % 2 = 0
    · rw [if_pos heven, Bool.and_eq_true, decide_eq_true_eq, decide_eq_true_eq] at h
      have hhigh : 4 * m + 2 < 2 * (2 ^ 54 - 1) := by omega
      exact lt_of_le_of_lt h.2 (Nat.mul_lt_mul_of_pos_right hhigh hunit)
    · rw [if_neg heven, Bool.and_eq_true, decide_eq_true_eq, decide_eq_true_eq] at h
      have hhigh : 4 * m + 2 ≤ 2 * (2 ^ 54 - 1) := by omega
      exact lt_of_lt_of_le h.2 (Nat.mul_le_mul_right _ hhigh)
  have hcast : (4 * c * tens p * up (-q) : ℚ) < 2 * (2 ^ 54 - 1) * (up q * tens (-p)) := by
    have hsub : ((2 ^ 54 - 1 : Nat) : ℚ) = 2 ^ 54 - 1 := by norm_num
    have h := Nat.cast_lt (α := ℚ).2 hlt
    simp only [Nat.cast_mul, hsub, Nat.cast_ofNat] at h
    exact h
  have hpos : (0 : ℚ) < tens (-p) * up (-q) :=
    mul_pos (Nat.cast_pos.2 (tens_pos _)) (Nat.cast_pos.2 (up_pos _))
  have hvalue : 2 * ((c : ℚ) * 10 ^ p) < (2 ^ 54 - 1) * 2 ^ q := by
    rw [cast_tens p, cast_up q] at hcast
    refine lt_of_mul_lt_mul_right ?_ hpos.le
    calc 2 * ((c : ℚ) * 10 ^ p) * (tens (-p) * up (-q))
        = 4 * c * (10 ^ p * tens (-p)) * up (-q) / 2 := by ring
      _ < 2 * (2 ^ 54 - 1) * (2 ^ q * up (-q) * tens (-p)) / 2 := by linarith
      _ = (2 ^ 54 - 1) * 2 ^ q * (tens (-p) * up (-q)) := by ring
  have hexp : (2 : ℚ) ^ q ≤ 2 * 2 ^ (970 : Int) := by
    calc (2 : ℚ) ^ q ≤ 2 ^ (971 : Int) := zpow_le_zpow_right₀ one_le_two hq
      _ = 2 * 2 ^ (970 : Int) := by
          rw [show (971 : Int) = 1 + 970 by norm_num, zpow_add₀ two_ne_zero, zpow_one]
  rw [cast_overflow]
  have hfactor : (0 : ℚ) ≤ 2 ^ 54 - 1 := by norm_num
  have hmax := mul_le_mul_of_nonneg_left hexp hfactor
  linarith

/-- **The shortest decimal of a finite value is below the bound.** -/
theorem shortest_lt (hm : m < 2 ^ 53) (hq : q ≤ maxExponent) :
    ((shortest m q).digits : ℚ) * 10 ^ (shortest m q).power < overflow := by
  rcases shortest_cases m q with ⟨n, -, hn⟩ | h
  · obtain ⟨hpower, hread, -⟩ := nearest?_eq_some hn
    rw [hpower]
    exact lt_overflow_of_readsBack hm hq hread
  · have hlt : m < overflow := lt_trans hm (by decide +kernel)
    rw [h]
    show (m : ℚ) * 10 ^ (0 : Int) < overflow
    rw [zpow_zero, mul_one]
    exact Nat.cast_lt.2 hlt

/-- **A finite value is read back as a finite one.** -/
theorem read?_text {x : Binary64} (hx : x.InFormat) (hfinite : x.isFinite = true) :
    ∃ y, read? x.text = some y ∧ y.isFinite = true := by
  cases x with
  | nan => cases hfinite
  | infinite negative => cases hfinite
  | finite negative m q =>
    obtain ⟨n, places, hdecimal, hlt⟩ : ∃ n places,
        IsDecimal (if m = 0 then ['0'] else (shortest m q).text) n places ∧
          (n : ℚ) * 10 ^ (-(places : Int)) < overflow := by
      by_cases hm : m = 0
      · refine ⟨0, 0, ?_, ?_⟩
        · rw [if_pos hm]
          exact .whole rfl
        · rw [Nat.cast_zero, zero_mul]
          exact Nat.cast_pos.2 overflow_pos
      · obtain ⟨n, places, hdecimal, hvalue⟩ :=
          isDecimal_text (digits_shortest (Nat.pos_of_ne_zero hm) q)
        refine ⟨n, places, ?_, ?_⟩
        · rw [if_neg hm]
          exact hdecimal
        · rw [hvalue]
          exact shortest_lt hx.1 hx.2.2
    obtain ⟨hplain, -, hminus⟩ := read?_of_isDecimal hdecimal
    cases negative with
    | false => exact ⟨_, hplain, (isFinite_ofDecimal _ _ _).2 hlt⟩
    | true => exact ⟨_, hminus, (isFinite_ofDecimal _ _ _).2 hlt⟩

end Binary64

end Decimal

/-! ### The number of a floating point literal -/

namespace Json

theorem IsNumber.mem {w : List Char} (h : IsNumber w) :
    ∀ c ∈ w, c.isDigit = true ∨ c = '-' ∨ c = '.' := by
  have hmagnitude : ∀ {v : List Char}, IsMagnitude v → ∀ c ∈ v, c.isDigit = true ∨ c = '.' := by
    intro v hv c hc
    cases hv with
    | whole integer => exact .inl (integer.isDigit c hc)
    | fraction integer _ digits =>
      rcases List.mem_append.1 hc with hc | hc
      · exact .inl (integer.isDigit c hc)
      · rcases List.mem_cons.1 hc with hc | hc
        · exact .inr hc
        · exact .inl (digits c hc)
  intro c hc
  cases h with
  | plain magnitude => exact (hmagnitude magnitude c hc).imp_right .inr
  | minus magnitude =>
    rcases List.mem_cons.1 hc with hc | hc
    · exact .inr (.inl hc)
    · exact (hmagnitude magnitude c hc).imp_right .inr

/-- There are no blanks in a number. -/
theorem IsNumber.isBlank {w : List Char} (h : IsNumber w) : ∀ c ∈ w, Text.isBlank c = false := by
  intro c hc
  rcases h.mem c hc with hc | rfl | rfl
  · exact Text.isBlank_of_isDigit hc
  · rfl
  · rfl

theorem IsNumber.trim {w : List Char} (h : IsNumber w) : Text.trim w = w :=
  Text.trim_eq_self (fun c hc => h.isBlank c (List.mem_of_mem_head? hc))
    fun c hc => h.isBlank c (List.mem_of_mem_getLast? hc)

end Json

namespace Literal

open Decimal

/-- **The literal of a floating point value has a number exactly if the value is finite.** -/
theorem isSome_number?_double {x : Binary64} (hx : x.InFormat) :
    (double x).number?.isSome = x.isFinite := by
  have hnumber : (double x).number? = float? (Text.trim x.text) := by
    rw [number?, double, String.toList_ofList]
    rfl
  rw [hnumber]
  cases hfinite : x.isFinite with
  | true =>
    obtain ⟨y, hy, hyfinite⟩ := Binary64.read?_text hx hfinite
    rw [(Binary64.isNumber_text hfinite).trim, float?, hy]
    dsimp only
    rw [if_pos hyfinite]
    rfl
  | false =>
    cases x with
    | finite negative m q => cases hfinite
    | infinite negative => cases negative <;> decide
    | nan => decide

end Literal

end Switchboard
