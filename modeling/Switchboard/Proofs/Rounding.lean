import Mathlib.Algebra.Order.Field.Power
import Mathlib.Data.Rat.Cast.Order
import Mathlib.Tactic.Linarith
import Mathlib.Tactic.Positivity
import Mathlib.Tactic.Ring
import Switchboard.Proofs.Numeral

/-!
# Where rounding ends

A quotient is rounded to a finite value exactly if it is below the middle between the largest finite
value and `2 ^ 1024`: the middle itself is a tie, and the even neighbour is the upper one, which the
format does not have. The same bound holds for decimals, also where the answer is known without the
power of ten.

* `floorLog2_spec`: the binary logarithm of a quotient.
* `roundQuotient_le_iff`: which quotients are rounded to an odd integer or below.
* `isFinite_ofQuotient`: the quotients that are rounded to a finite value.
* `isFinite_ofDecimal`: the decimals that are.
* `inFormat_ofDecimal`: a finite value has a mantissa and an exponent of the format.
-/

namespace Switchboard.Decimal.Binary64

/-- The middle between the largest finite value and `2 ^ 1024`. -/
def overflow : Nat := (2 ^ 54 - 1) * 2 ^ 970

/-- Whether a finite value has a mantissa and an exponent of the format. -/
def InFormat : Binary64 → Prop
  | .finite _ m q => m < 2 ^ 53 ∧ minExponent ≤ q ∧ q ≤ maxExponent
  | _ => True

/-! ### Powers with an integer exponent -/

theorem pow_toNat {base : ℚ} (hb : base ≠ 0) (e : Int) :
    base ^ e.toNat = base ^ e * base ^ (-e).toNat := by
  obtain ⟨n, rfl | rfl⟩ := e.eq_nat_or_neg
  · have hneg : (-(n : Int)).toNat = 0 := by omega
    rw [hneg, Int.toNat_natCast, pow_zero, mul_one, zpow_natCast]
  · have hneg : (-(n : Int)).toNat = 0 := by omega
    rw [hneg, neg_neg, Int.toNat_natCast, pow_zero, zpow_neg, zpow_natCast,
      inv_mul_cancel₀ (pow_ne_zero n hb)]

theorem cast_up (e : Int) : (up e : ℚ) = 2 ^ e * up (-e) := by
  have h := pow_toNat (two_ne_zero : (2 : ℚ) ≠ 0) e
  unfold up
  rw [Nat.one_shiftLeft, Nat.one_shiftLeft]
  push_cast
  exact h

theorem cast_tens (p : Int) : (tens p : ℚ) = 10 ^ p * tens (-p) := by
  have h := pow_toNat (by decide : (10 : ℚ) ≠ 0) p
  unfold tens
  push_cast [Nat.pow_eq]
  exact h

/-- A comparison of products is one of quotients. -/
theorem mul_up_le_iff (a b : Nat) (e : Int) :
    a * up e ≤ b * up (-e) ↔ (a : ℚ) * 2 ^ e ≤ b := by
  rw [← Nat.cast_le (α := ℚ)]
  push_cast
  rw [cast_up e, ← mul_assoc]
  exact mul_le_mul_iff_of_pos_right (Nat.cast_pos.2 (up_pos (-e)))

theorem mul_up_lt_iff (a b : Nat) (e : Int) :
    b * up (-e) < a * up e ↔ (b : ℚ) < a * 2 ^ e := by
  rw [← not_le, mul_up_le_iff, not_le]

/-! ### The binary logarithm -/

theorem zpow_log2_le {n : Nat} (hn : 0 < n) : (2 : ℚ) ^ (n.log2 : Int) ≤ n := by
  rw [zpow_natCast]
  exact_mod_cast Nat.log2_self_le hn.ne'

theorem lt_zpow_log2 (n : Nat) : (n : ℚ) < 2 ^ ((n.log2 : Int) + 1) := by
  have h : (n : ℚ) < 2 ^ (n.log2 + 1) := by exact_mod_cast Nat.lt_log2_self
  exact_mod_cast h

/-- **The binary logarithm of a quotient.** -/
theorem floorLog2_spec {num den : Nat} (hn : 0 < num) (hd : 0 < den) :
    (den : ℚ) * 2 ^ floorLog2 num den ≤ num ∧
      (num : ℚ) < den * 2 ^ (floorLog2 num den + 1) := by
  have two : (2 : ℚ) ≠ 0 := two_ne_zero
  -- the difference of the logarithms is at most one too large
  have hlow : (den : ℚ) * 2 ^ ((num.log2 : Int) - den.log2 - 1) ≤ num := by
    calc (den : ℚ) * 2 ^ ((num.log2 : Int) - den.log2 - 1)
        ≤ 2 ^ ((den.log2 : Int) + 1) * 2 ^ ((num.log2 : Int) - den.log2 - 1) := by
          gcongr
          exact (lt_zpow_log2 den).le
      _ = 2 ^ (num.log2 : Int) := by
          rw [← zpow_add₀ two]
          congr 1
          omega
      _ ≤ num := zpow_log2_le hn
  have hhigh : (num : ℚ) < den * 2 ^ ((num.log2 : Int) - den.log2 + 1) := by
    calc (num : ℚ) < 2 ^ ((num.log2 : Int) + 1) := lt_zpow_log2 num
      _ = 2 ^ (den.log2 : Int) * 2 ^ ((num.log2 : Int) - den.log2 + 1) := by
          rw [← zpow_add₀ two]
          congr 1
          omega
      _ ≤ den * 2 ^ ((num.log2 : Int) - den.log2 + 1) := by
          gcongr
          exact zpow_log2_le hd
  unfold floorLog2
  dsimp only
  by_cases hle : den * up ((num.log2 : Int) - den.log2) ≤ num * up (-((num.log2 : Int) - den.log2))
  · rw [if_pos hle]
    exact ⟨(mul_up_le_iff _ _ _).1 hle, hhigh⟩
  · rw [if_neg hle, sub_add_cancel]
    exact ⟨hlow, (mul_up_lt_iff _ _ _).1 (not_le.1 hle)⟩

/-! ### Rounding to an integer -/

/-- **The quotients that are rounded to an odd integer or below**: a tie above it goes up. -/
theorem roundQuotient_le_iff {num den j : Nat} (hd : 0 < den) (hj : j % 2 = 1) :
    roundQuotient num den ≤ j ↔ 2 * num < (2 * j + 1) * den := by
  have hdiv : den * (num / den) + num % den = num := Nat.div_add_mod num den
  have hmod : num % den < den := Nat.mod_lt _ hd
  have hexpand : (2 * j + 1) * den = 2 * (den * j) + den := by ring
  unfold roundQuotient
  dsimp only
  rw [hexpand]
  generalize num / den = q at hdiv ⊢
  generalize num % den = r at hdiv hmod ⊢
  rcases Nat.lt_trichotomy q j with hlt | rfl | hgt
  · -- the quotient is below `j`, so the next integer is `j` at most
    have hmul : den * (q + 1) ≤ den * j := Nat.mul_le_mul_left den hlt
    rw [Nat.mul_succ] at hmul
    constructor
    · intro _
      omega
    · intro _
      split_ifs <;> omega
  · -- the integer part is `j`, which is odd
    constructor
    · intro h
      split_ifs at h <;> omega
    · intro h
      split_ifs <;> omega
  · have hmul : den * (j + 1) ≤ den * q := Nat.mul_le_mul_left den hgt
    rw [Nat.mul_succ] at hmul
    constructor
    · intro h
      split_ifs at h <;> omega
    · intro _
      omega

theorem roundQuotient_le {num den k : Nat} (hd : 0 < den) (h : num < k * den) :
    roundQuotient num den ≤ k := by
  have hq : num / den < k := (Nat.div_lt_iff_lt_mul hd).2 h
  unfold roundQuotient
  dsimp only
  split_ifs <;> omega

/-! ### Rounding a quotient -/

/-- The exponent that a quotient is rounded at. -/
def exponentOf (num den : Nat) : Int := max minExponent (floorLog2 num den - 52)

/-- The mantissa that a quotient is rounded to, before a carry. -/
def mantissaOf (num den : Nat) : Nat :=
  roundQuotient (num * up (-exponentOf num den)) (den * up (exponentOf num den))

theorem two_leastMantissa : 2 * leastMantissa = 2 ^ 53 := by decide

/-- Rounding a quotient, with the carry apart. -/
theorem ofQuotient_eq (negative : Bool) (num den : Nat) : ofQuotient negative num den =
    if mantissaOf num den = 2 ^ 53 then
      if maxExponent < exponentOf num den + 1 then .infinite negative
      else .finite negative leastMantissa (exponentOf num den + 1)
    else
      if maxExponent < exponentOf num den then .infinite negative
      else .finite negative (mantissaOf num den) (exponentOf num den) := by
  have hround : ofQuotient negative num den =
      (fun p : Nat × Int =>
        if maxExponent < p.2 then Binary64.infinite negative else .finite negative p.1 p.2)
      (if mantissaOf num den = 2 ^ 53 then (leastMantissa, exponentOf num den + 1)
        else (mantissaOf num den, exponentOf num den)) := by
    rw [← two_leastMantissa]
    rfl
  rw [hround]
  by_cases hcarry : mantissaOf num den = 2 ^ 53
  · rw [if_pos hcarry, if_pos hcarry]
  · rw [if_neg hcarry, if_neg hcarry]

variable {num den : Nat}

theorem mantissaOf_le (hn : 0 < num) (hd : 0 < den) : mantissaOf num den ≤ 2 ^ 53 := by
  refine roundQuotient_le (Nat.mul_pos hd (up_pos _)) ?_
  have hlt : num * up (-exponentOf num den) < (2 ^ 53 * den) * up (exponentOf num den) := by
    rw [mul_up_lt_iff]
    calc (num : ℚ) < den * 2 ^ (floorLog2 num den + 1) := (floorLog2_spec hn hd).2
      _ ≤ den * 2 ^ (53 + exponentOf num den) := by
          have hle : floorLog2 num den + 1 ≤ 53 + exponentOf num den := by
            unfold exponentOf
            omega
          gcongr
          exact one_le_two
      _ = ((2 ^ 53 * den : Nat) : ℚ) * 2 ^ exponentOf num den := by
          rw [zpow_add₀ two_ne_zero]
          push_cast
          ring
  rwa [mul_assoc] at hlt

theorem inFormat_ofQuotient (negative : Bool) (hn : 0 < num) (hd : 0 < den) :
    (ofQuotient negative num den).InFormat := by
  have hmin : minExponent ≤ exponentOf num den := le_max_left _ _
  have hle := mantissaOf_le hn hd
  rw [ofQuotient_eq]
  split_ifs with hcarry hmax hmax
  · trivial
  · exact ⟨by decide, by omega, by omega⟩
  · trivial
  · exact ⟨by omega, hmin, by omega⟩

/-- A quotient that is not rounded to a finite value is infinite. -/
theorem ofQuotient_eq_infinite {negative : Bool}
    (h : (ofQuotient negative num den).isFinite = false) :
    ofQuotient negative num den = .infinite negative := by
  rw [ofQuotient_eq] at h ⊢
  split_ifs at h ⊢
  all_goals first | rfl | cases h

/-- The values that are finite have an exponent below the largest one, or the largest one and no
carry. -/
theorem isFinite_ofQuotient_iff (negative : Bool) (hn : 0 < num) (hd : 0 < den) :
    (ofQuotient negative num den).isFinite = true ↔ exponentOf num den < maxExponent ∨
      exponentOf num den = maxExponent ∧ mantissaOf num den ≤ 2 ^ 53 - 1 := by
  have hle := mantissaOf_le hn hd
  rw [ofQuotient_eq]
  split_ifs with hcarry hmax hmax <;> simp only [isFinite, true_iff, false_iff, Bool.false_eq_true]
  all_goals omega

/-- At the largest exponent, no carry is left below the middle between the last two values. -/
theorem mantissaOf_maxExponent (hd : 0 < den) (he : exponentOf num den = maxExponent) :
    mantissaOf num den ≤ 2 ^ 53 - 1 ↔ num < overflow * den := by
  have hone : up (-maxExponent) = 1 := by decide
  have hup : up maxExponent = 2 * 2 ^ 970 := by decide +kernel
  have hpos : 0 < den * up maxExponent := Nat.mul_pos hd (up_pos _)
  have hdouble : (2 * (2 ^ 53 - 1) + 1) * (den * (2 * 2 ^ 970)) = 2 * (overflow * den) := by
    unfold overflow
    generalize 2 ^ 970 = p
    ring
  rw [mantissaOf, he, hone, mul_one, roundQuotient_le_iff hpos (by decide), hup, hdouble]
  omega

/-- **The quotients that are rounded to a finite value.** -/
theorem isFinite_ofQuotient (negative : Bool) (hn : 0 < num) (hd : 0 < den) :
    (ofQuotient negative num den).isFinite = true ↔ num < overflow * den := by
  obtain ⟨hlow, hhigh⟩ := floorLog2_spec hn hd
  have hmin : minExponent < maxExponent := by decide
  have hmax : maxExponent = 971 := rfl
  rw [isFinite_ofQuotient_iff negative hn hd]
  rcases lt_trichotomy (floorLog2 num den) 1023 with hlt | heq | hgt
  · -- below `2 ^ 1023`
    have hexp : exponentOf num den < maxExponent := by
      unfold exponentOf
      omega
    refine iff_of_true (.inl hexp) ?_
    have hbound : (num : ℚ) < den * 2 ^ (1023 : Int) := by
      refine hhigh.trans_le ?_
      have hle : floorLog2 num den + 1 ≤ 1023 := hlt
      gcongr
      exact one_le_two
    have hnat : num < den * 2 ^ 1023 := by exact_mod_cast hbound
    have hpow : 2 ^ 1023 ≤ overflow := by decide +kernel
    calc num < den * 2 ^ 1023 := hnat
      _ ≤ den * overflow := Nat.mul_le_mul_left den hpow
      _ = overflow * den := Nat.mul_comm _ _
  · -- between the last two powers of two
    have hexp : exponentOf num den = maxExponent := by
      unfold exponentOf
      omega
    rw [← mantissaOf_maxExponent hd hexp]
    constructor
    · rintro (h | ⟨-, h⟩)
      · omega
      · exact h
    · intro h
      exact .inr ⟨hexp, h⟩
  · -- not below `2 ^ 1024`
    have hexp : maxExponent < exponentOf num den := by
      unfold exponentOf
      omega
    refine iff_of_false (by omega) (not_lt.2 ?_)
    have hbound : (den : ℚ) * 2 ^ (1024 : Int) ≤ num := by
      refine le_trans ?_ hlow
      have hle : 1024 ≤ floorLog2 num den := hgt
      gcongr
      exact one_le_two
    have hnat : den * 2 ^ 1024 ≤ num := by exact_mod_cast hbound
    have hpow : overflow ≤ 2 ^ 1024 := by decide +kernel
    calc overflow * den = den * overflow := Nat.mul_comm _ _
      _ ≤ den * 2 ^ 1024 := Nat.mul_le_mul_left den hpow
      _ ≤ num := hnat

/-! ### Rounding a decimal -/

theorem inFormat_ofDecimal (negative : Bool) (d : Nat) (k : Int) :
    (ofDecimal negative d k).InFormat := by
  have hzero : InFormat (.finite negative 0 minExponent) := ⟨by decide, by decide, by decide⟩
  unfold ofDecimal
  split_ifs with hd hbig hsmall
  · exact hzero
  · trivial
  · exact hzero
  · have hnum : 0 < d * Nat.pow 10 k.toNat :=
      Nat.mul_pos (Nat.pos_of_ne_zero hd) (Nat.pow_pos (by decide))
    exact inFormat_ofQuotient negative hnum (Nat.pow_pos (by decide))

/-- A decimal that is not rounded to a finite value is infinite. -/
theorem ofDecimal_eq_infinite {negative : Bool} {d : Nat} {k : Int}
    (h : (ofDecimal negative d k).isFinite = false) :
    ofDecimal negative d k = .infinite negative := by
  unfold ofDecimal at h ⊢
  split_ifs at h ⊢
  · cases h
  · rfl
  · cases h
  · exact ofQuotient_eq_infinite h

theorem lt_pow_length_digits (d : Nat) : d < 10 ^ (digits d).length :=
  (Nat.length_toDigits_le_iff (by decide) Nat.length_toDigits_pos).1 le_rfl

theorem overflow_pos : 0 < overflow := by decide +kernel

theorem overflow_le : overflow ≤ 10 ^ 401 := by decide +kernel

/-- **The decimals that are rounded to a finite value**, of any size. -/
theorem isFinite_ofDecimal (negative : Bool) (d : Nat) (k : Int) :
    (ofDecimal negative d k).isFinite = true ↔ (d : ℚ) * 10 ^ k < overflow := by
  have hpos : (0 : ℚ) < overflow := Nat.cast_pos.2 overflow_pos
  have hten : (1 : ℚ) ≤ 10 := by norm_num
  have hpower : ∀ e : Int, (0 : ℚ) < 10 ^ e := fun e => zpow_pos (by norm_num) e
  unfold ofDecimal
  split_ifs with hd hbig hsmall
  · refine iff_of_true rfl ?_
    rw [hd, Nat.cast_zero, zero_mul]
    exact hpos
  · -- the power of ten alone is too large
    refine iff_of_false Bool.false_ne_true (not_lt.2 ?_)
    have hone : (1 : ℚ) ≤ d := by exact_mod_cast Nat.pos_of_ne_zero hd
    have hmax : (overflow : ℚ) ≤ 10 ^ ((401 : Nat) : Int) := by
      have hcast := Nat.cast_le (α := ℚ).2 overflow_le
      rw [Nat.cast_pow, Nat.cast_ofNat] at hcast
      rwa [zpow_natCast]
    have hle : ((401 : Nat) : Int) ≤ k := hbig
    calc (overflow : ℚ) ≤ 10 ^ ((401 : Nat) : Int) := hmax
      _ ≤ 10 ^ k := zpow_le_zpow_right₀ hten hle
      _ = 1 * 10 ^ k := (one_mul _).symm
      _ ≤ d * 10 ^ k := mul_le_mul_of_nonneg_right hone (hpower k).le
  · -- the digits are too few to reach one
    refine iff_of_true rfl ?_
    have hlt : (d : ℚ) < 10 ^ ((digits d).length : Int) := by
      rw [zpow_natCast]
      exact_mod_cast lt_pow_length_digits d
    have hone : (1 : ℚ) ≤ overflow := Nat.one_le_cast.2 overflow_pos
    calc (d : ℚ) * 10 ^ k < 10 ^ ((digits d).length : Int) * 10 ^ k :=
          mul_lt_mul_of_pos_right hlt (hpower k)
      _ = 10 ^ (k + (digits d).length) := by
          rw [← zpow_add₀ (by norm_num), add_comm]
      _ ≤ 10 ^ (0 : Int) := zpow_le_zpow_right₀ hten (by omega)
      _ = 1 := zpow_zero _
      _ ≤ overflow := hone
  · have hnum : 0 < d * tens k :=
      Nat.mul_pos (Nat.pos_of_ne_zero hd) (tens_pos k)
    have hden : 0 < tens (-k) := tens_pos (-k)
    have hquotient := isFinite_ofQuotient negative hnum hden
    refine hquotient.trans ?_
    rw [← Nat.cast_lt (α := ℚ)]
    push_cast
    rw [cast_tens k, ← mul_assoc]
    exact mul_lt_mul_iff_of_pos_right (Nat.cast_pos.2 hden)

end Switchboard.Decimal.Binary64
