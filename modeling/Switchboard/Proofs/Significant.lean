import Switchboard.Proofs.Readback

/-!
# The digits of large values

The shortest decimal of a floating point value has at most seventeen significant digits. A value
with more digits than that before its point is therefore written as an integer with zeros at its
end, and the integer that is read off its text is in general not the one that was rounded to it.

* `lt_ten_leadingPower`: the number of digits before the point, for values of at least one.
* `digits_shortest_le`: at most seventeen significant digits.
* `power_shortest`: nothing stands behind the point of a large value.
-/

namespace Switchboard.Decimal

namespace Binary64

variable {m : Nat} {q k p : Int} {d : Scaled}

/-! ### The number of digits before the point -/

theorem belowTen_iff : belowTen m q k = true ↔ (m : ℚ) * 2 ^ q < 10 ^ k := by
  have hup : (0 : ℚ) < up (-q) := Nat.cast_pos.2 (up_pos (-q))
  have htens : (0 : ℚ) < tens (-k) := Nat.cast_pos.2 (tens_pos (-k))
  have hleft : ((m * up q * tens (-k) : Nat) : ℚ) = m * 2 ^ q * (up (-q) * tens (-k)) := by
    push_cast
    rw [cast_up q]
    ring
  have hright : ((tens k * up (-q) : Nat) : ℚ) = 10 ^ k * (up (-q) * tens (-k)) := by
    push_cast
    rw [cast_tens k]
    ring
  rw [belowTen, decide_eq_true_eq, ← Nat.cast_lt (α := ℚ), hleft, hright]
  exact mul_lt_mul_iff_of_pos_right (mul_pos hup htens)

/-- A binary digit is worth less than 0.30103 decimal ones. -/
theorem two_pow_lt_ten_pow : 2 ^ 100000 < 10 ^ 30103 := by decide +kernel

/-- A power of two by the number of its decimal digits. -/
theorem two_pow_lt (t : Nat) : 2 ^ t < 10 ^ (t * 30103 / 100000 + 1) := by
  have hdigits : t * 30103 < 100000 * (t * 30103 / 100000 + 1) := by omega
  refine lt_of_pow_lt_pow_left₀ 100000 (Nat.zero_le _) ?_
  rcases Nat.eq_zero_or_pos t with rfl | ht
  · decide +kernel
  calc (2 ^ t) ^ 100000 = (2 ^ 100000) ^ t := by rw [← pow_mul, ← pow_mul, Nat.mul_comm]
    _ < (10 ^ 30103) ^ t := Nat.pow_lt_pow_left two_pow_lt_ten_pow ht.ne'
    _ = 10 ^ (t * 30103) := by rw [← pow_mul, Nat.mul_comm]
    _ ≤ 10 ^ (100000 * (t * 30103 / 100000 + 1)) :=
      Nat.pow_le_pow_right (by decide) hdigits.le
    _ = (10 ^ (t * 30103 / 100000 + 1)) ^ 100000 := by rw [← pow_mul, Nat.mul_comm]

theorem le_leadingPower (m : Nat) (q : Int) :
    ((m.log2 : Int) + q) * 30103 / 100000 - 1 ≤ leadingPower m q := by
  unfold leadingPower
  dsimp only
  split_ifs <;> omega

/-- **The number of digits before the point** is large enough, for values of at least one. -/
theorem lt_ten_leadingPower (hq : 0 ≤ (m.log2 : Int) + q) :
    (m : ℚ) * 2 ^ q < 10 ^ leadingPower m q := by
  unfold leadingPower
  dsimp only
  split_ifs with h h' h''
  · exact belowTen_iff.1 h
  · exact belowTen_iff.1 h'
  · exact belowTen_iff.1 h''
  · -- the estimate alone is large enough
    obtain ⟨t, ht⟩ := Int.eq_ofNat_of_zero_le hq
    have hten : (2 : ℚ) ^ t < 10 ^ (t * 30103 / 100000 + 1) := by exact_mod_cast two_pow_lt t
    have hexp : ((m.log2 : Int) + q) * 30103 / 100000 - 1 + 3 =
        ((t * 30103 / 100000 + 1 : Nat) : Int) + 1 := by
      rw [ht]
      push_cast
      ring
    calc (m : ℚ) * 2 ^ q < 2 ^ ((m.log2 : Int) + 1) * 2 ^ q :=
          mul_lt_mul_of_pos_right (lt_zpow_log2 m) (zpow_pos two_pos q)
      _ = 2 ^ t * 2 := by
          rw [← zpow_add₀ two_ne_zero, ← zpow_natCast, ← ht, ← zpow_add_one₀ two_ne_zero]
          congr 1
          ring
      _ ≤ 10 ^ (t * 30103 / 100000 + 1) * 10 := by
          have := hten.le
          gcongr
          norm_num
      _ = 10 ^ (((m.log2 : Int) + q) * 30103 / 100000 - 1 + 3) := by
          rw [hexp, zpow_add_one₀ (by norm_num), zpow_natCast]

/-! ### Significant digits -/

theorem digits_nearest?_le {n : Nat} (hk : (m : ℚ) * 2 ^ q < 10 ^ k)
    (h : nearest? m q (k - n) = some d) : d.digits ≤ 10 ^ n := by
  obtain ⟨-, -, hdigits⟩ := nearest?_eq_some h
  have hup : (0 : ℚ) < up (-q) := Nat.cast_pos.2 (up_pos (-q))
  have htens : (0 : ℚ) < tens (-(k - n)) := Nat.cast_pos.2 (tens_pos _)
  have hsplit : (10 : ℚ) ^ k = 10 ^ n * 10 ^ (k - n) := by
    rw [← zpow_natCast, ← zpow_add₀ (by norm_num)]
    congr 1
    ring
  have hlt : m * up q * tens (-(k - n)) < 10 ^ n * (up (-q) * tens (k - n)) := by
    rw [← Nat.cast_lt (α := ℚ)]
    push_cast
    rw [cast_up q, cast_tens (k - n)]
    calc (m : ℚ) * (2 ^ q * up (-q)) * tens (-(k - n))
        = m * 2 ^ q * (up (-q) * tens (-(k - n))) := by ring
      _ < 10 ^ k * (up (-q) * tens (-(k - n))) :=
          mul_lt_mul_of_pos_right hk (mul_pos hup htens)
      _ = 10 ^ n * (up (-q) * (10 ^ (k - n) * tens (-(k - n)))) := by
          rw [hsplit]
          ring
  have hquotient := (Nat.div_lt_iff_lt_mul (Nat.mul_pos (up_pos _) (tens_pos _))).2 hlt
  omega

/-- **At most seventeen significant digits.** -/
theorem digits_shortest_le (hm : m < 2 ^ 53) (hq : 0 ≤ (m.log2 : Int) + q) :
    (shortest m q).digits ≤ 10 ^ 17 := by
  rcases shortest_cases m q with ⟨n, hn, hnearest⟩ | h
  · have hpow : 10 ^ n ≤ 10 ^ 17 := Nat.pow_le_pow_right (by decide) hn
    exact (digits_nearest?_le (lt_ten_leadingPower hq) hnearest).trans hpow
  · rw [h]
    exact hm.le.trans (by decide)

/-- A value with at least seventeen digits before its point has none behind it. -/
theorem power_shortest (hq : 60 ≤ (m.log2 : Int) + q) : 0 ≤ (shortest m q).power := by
  have hk : 17 ≤ leadingPower m q := by
    have hle := le_leadingPower m q
    omega
  rcases shortest_cases m q with ⟨n, hn, hnearest⟩ | h
  · rw [(nearest?_eq_some hnearest).1]
    omega
  · rw [h]

/-! ### Large integers -/

theorem div_le_roundQuotient (num den : Nat) : num / den ≤ roundQuotient num den := by
  unfold roundQuotient
  dsimp only
  split_ifs <;> omega

/-- **A large integer is rounded to a value with a full mantissa**, and its binary logarithm is not
lowered. -/
theorem large_of_ofQuotient {n : Nat} (hn : 2 ^ 63 ≤ n) {negative negative' : Bool}
    (h : ofQuotient negative n 1 = .finite negative' m q) :
    negative' = negative ∧ 0 < m ∧ 63 ≤ (m.log2 : Int) + q := by
  have hpos : 0 < n := lt_of_lt_of_le (by decide) hn
  obtain ⟨hlow, hhigh⟩ := floorLog2_spec hpos one_pos
  rw [Nat.cast_one, one_mul] at hlow hhigh
  have hlog : 63 ≤ floorLog2 n 1 := by
    have hcast : (2 : ℚ) ^ (63 : Int) ≤ n := by exact_mod_cast hn
    have hlt := (zpow_lt_zpow_iff_right₀ one_lt_two).1 (hcast.trans_lt hhigh)
    omega
  have hexponent : exponentOf n 1 = floorLog2 n 1 - 52 := by
    unfold exponentOf minExponent
    omega
  have hmantissa : 2 ^ 52 ≤ mantissaOf n 1 := by
    refine le_trans ?_ (div_le_roundQuotient _ _)
    rw [Nat.le_div_iff_mul_le (Nat.mul_pos one_pos (up_pos _)), one_mul, mul_up_le_iff]
    refine le_trans (le_of_eq ?_) hlow
    rw [hexponent, Nat.cast_pow, Nat.cast_ofNat, ← zpow_natCast, ← zpow_add₀ two_ne_zero]
    congr 1
    push_cast
    ring
  have hfull : ∀ {j : Nat}, 2 ^ 52 ≤ j → 52 ≤ (j.log2 : Int) := by
    intro j hj
    exact_mod_cast (Nat.le_log2 (by omega)).2 hj
  rw [ofQuotient_eq] at h
  split_ifs at h
  · cases h
    have hleast := hfull (j := leastMantissa) (by decide)
    exact ⟨rfl, by decide, by omega⟩
  · cases h
    have hleast := hfull hmantissa
    exact ⟨rfl, by omega, by omega⟩

/-- An integer is rounded as a quotient by one. -/
theorem ofDecimal_natCast (negative : Bool) {n : Nat} (hn : 0 < n) :
    ofDecimal negative n 0 = ofQuotient negative n 1 := by
  have hlen : ¬ (0 + ((digits n).length : Int) < -400) := by omega
  unfold ofDecimal
  rw [if_neg hn.ne', if_neg (by decide), if_neg hlen]
  exact congrArg (ofQuotient negative · 1) (Nat.mul_one n)

end Binary64

end Switchboard.Decimal
