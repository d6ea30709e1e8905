import Switchboard.Proofs.Significant
import Switchboard.Proofs.Spelling
import Switchboard.Proofs.Typing

/-!
# Published integers

The text of a literal of an integral datatype may have any number of digits. An integer that fits a
signed or an unsigned 64-bit word is published in its digits. One that is so large that it is rounded
to no finite value is published as the quoted text. One in between is published as a floating point
value, in the shortest text of that value. This is a whole number again, but in general another one:
it has at most seventeen significant digits.

* `Json.Denotes`: the integer that a JSON value stands for.
* `Literal.integer_published`: which integer is published for which.
-/

namespace Switchboard

open Decimal Literal

/-- The integer that a JSON value stands for: that of a number without an exponent, or that of a
string of digits with or without a sign and blanks around it. -/
inductive Json.Denotes : Json → Int → Prop
  | number {negative : Bool} {s w : List Char} {n places : Nat} {i : Int}
    (sign : Signed negative w s) (decimal : IsDecimal w n places)
    (whole : signed negative n = i * 10 ^ places) : Denotes (.number s) i
  | string {s : List Char} {i : Int} (integer : IsInteger (Text.trim s) i) :
    Denotes (.string (some s)) i

/-- The integers of a signed or an unsigned 64-bit word. -/
def FitsWord (i : Int) : Prop := -0x8000000000000000 ≤ i ∧ i < 0x10000000000000000

instance (i : Int) : Decidable (FitsWord i) := inferInstanceAs (Decidable (_ ∧ _))

/-- The integer in the shortest text of a large value. -/
def Decimal.Binary64.toInteger : Binary64 → Int
  | .finite negative m q =>
    signed negative ((shortest m q).digits * 10 ^ (shortest m q).power.toNat)
  | _ => 0

/-- The integer in the shortest text of the floating point value nearest to an integer. -/
def nearestShown (i : Int) : Int := (Binary64.ofDecimal (decide (i < 0)) i.natAbs 0).toInteger

/-- The integer that is published for one. -/
def publishedInteger (i : Int) : Int :=
  if FitsWord i ∨ Binary64.overflow ≤ i.natAbs then i else nearestShown i

variable {negative negative' : Bool} {s w w' : List Char} {n n' places places' : Nat} {i j : Int}

/-! ### What a value denotes -/

/-- The digits before and behind the point of a decimal. -/
theorem Decimal.IsDecimal.parts (h : IsDecimal s n places) :
    s.dropWhile Char.isDigit = [] ∧ n = value s ∧ places = 0 ∨
    ∃ f, s.dropWhile Char.isDigit = '.' :: f ∧ n = value (s.takeWhile Char.isDigit ++ f) ∧
      places = f.length := by
  cases h with
  | whole digits => exact .inl ⟨(takeWhile_isDigit_self (isNumeral_iff.1 digits).2).2, rfl, rfl⟩
  | @point w f digits _ =>
    obtain ⟨htake, hdrop⟩ := takeWhile_isDigit (isNumeral_iff.1 digits).2 f
    exact .inr ⟨f, hdrop, by rw [htake], rfl⟩

/-- Digits denote one decimal. -/
theorem Decimal.IsDecimal.unique (h : IsDecimal s n places) (h' : IsDecimal s n' places') :
    n = n' ∧ places = places' := by
  rcases h.parts with ⟨hdrop, rfl, rfl⟩ | ⟨f, hdrop, rfl, rfl⟩
  · rcases h'.parts with ⟨-, rfl, rfl⟩ | ⟨f', hdrop', -, -⟩
    · exact ⟨rfl, rfl⟩
    · rw [hdrop] at hdrop'
      cases hdrop'
  · rcases h'.parts with ⟨hdrop', -, -⟩ | ⟨f', hdrop', rfl, rfl⟩
    · rw [hdrop] at hdrop'
      cases hdrop'
    · rw [hdrop] at hdrop'
      cases hdrop'
      exact ⟨rfl, rfl⟩

/-- A decimal is negative exactly if a minus sign stands in front of it. -/
theorem Literal.Signed.negative_iff (h : Signed negative w s) (hw : IsDecimal w n places) :
    negative = true ↔ s.head? = some '-' := by
  obtain ⟨c, t, rfl, hc⟩ := hw.isDigit_head
  cases h with
  | minus => exact iff_of_true rfl rfl
  | plus => exact iff_of_false Bool.false_ne_true (by simp)
  | plain =>
    refine iff_of_false Bool.false_ne_true fun hhead => ?_
    obtain rfl : c = '-' := by simpa using hhead
    exact absurd hc (by decide)

/-- There is one sign in front of a decimal. -/
theorem Literal.Signed.unique (h : Signed negative w s) (h' : Signed negative' w' s)
    (hw : IsDecimal w n places) (hw' : IsDecimal w' n' places') :
    negative = negative' ∧ w = w' := by
  have hsign : negative = true ↔ negative' = true :=
    (h.negative_iff hw).trans (h'.negative_iff hw').symm
  refine ⟨Bool.eq_iff_iff.2 hsign, ?_⟩
  exact (h.dropSign hw.isDigit_head).symm.trans (h'.dropSign hw'.isDigit_head)

/-- Digits with or without a sign denote one integer. -/
theorem Literal.IsInteger.unique (h : IsInteger s i) (h' : IsInteger s j) : i = j := by
  obtain ⟨negative, w, hs, hw, rfl⟩ := h
  obtain ⟨negative', w', hs', hw', rfl⟩ := h'
  obtain ⟨rfl, rfl⟩ := hs.unique hs' (.whole hw) (.whole hw')
  rfl

namespace Json

/-- What a decimal with a sign denotes. -/
theorem denotes_number_iff (hs : Signed negative w s) (hw : IsDecimal w n places) :
    (Json.number s).Denotes j ↔ signed negative n = j * 10 ^ places := by
  constructor
  · intro h
    cases h with
    | number hs' hw' whole =>
      obtain ⟨rfl, rfl⟩ := hs'.unique hs hw' hw
      obtain ⟨rfl, rfl⟩ := hw'.unique hw
      exact whole
  · exact fun whole => .number hs hw whole

/-- What digits in quotes denote. -/
theorem denotes_string_iff (h : IsInteger (Text.trim s) i) :
    (Json.string (some s)).Denotes j ↔ j = i := by
  constructor
  · intro hj
    cases hj with
    | string integer => exact integer.unique h
  · rintro rfl
    exact .string h

/-- What the digits of an integer denote. -/
theorem denotes_text_iff : (Json.number (Decimal.text i)).Denotes j ↔ j = i := by
  have hdigits : isNumeral (digits i.natAbs) = true := isNumeral_digits _
  have hvalue : value (digits i.natAbs) = i.natAbs := value_digits _
  have hsign : Signed (decide (i < 0)) (digits i.natAbs) (Decimal.text i) := by
    unfold Decimal.text
    split_ifs with hi
    · rw [decide_eq_true hi]
      exact .minus
    · rw [decide_eq_false hi]
      exact .plain
  have hsigned : signed (decide (i < 0)) i.natAbs = i := by
    unfold signed
    split_ifs with hi <;> simp only [decide_eq_true_eq] at hi <;> omega
  rw [denotes_number_iff hsign (.whole hdigits), hvalue, hsigned, pow_zero, mul_one]
  exact eq_comm

end Json

/-! ### Words -/

namespace Literal

variable {l : Literal}

theorem isNumeric_of_isIntegral {d : Datatype} (h : d.isIntegral = true) : d.isNumeric = true := by
  cases d <;> first | rfl | cases h

/-- Digits behind a sign are read into an unsigned word if they fit. -/
theorem Signed.unsigned64? (h : Signed negative w s) (hw : isNumeral w = true) :
    Decimal.unsigned64? s =
      if negative = false ∧ value w < 0x10000000000000000 then some (value w) else none := by
  have hplus : (natural? w).filter (· < 0x10000000000000000) =
      if value w < 0x10000000000000000 then some (value w) else none := by
    rw [natural?_eq hw, Option.filter_some]
    simp only [decide_eq_true_eq]
  cases h with
  | plain => simpa [Decimal.unsigned64?, dropPlus_of_isNumeral hw] using hplus
  | plus => simpa [Decimal.unsigned64?, dropPlus] using hplus
  | minus =>
    have hnone : natural? ('-' :: w) = none := by
      have hnot : ¬ isNumeral ('-' :: w) = true := by simp [isNumeral]
      exact if_neg hnot
    simp [Decimal.unsigned64?, dropPlus, hnone]

/-- The number of an integral literal: in a signed word, else in an unsigned one, else as a floating
point value. -/
theorem number?_of_isInteger (hd : l.datatype.isIntegral = true)
    (h : IsInteger (Text.trim l.lexical.toList) i) : l.number? =
      if InWord i then some (.int i) else if FitsWord i then some (.uint i.natAbs)
      else float? (Text.trim l.lexical.toList) := by
  obtain ⟨negative, w, hs, hw, rfl⟩ := h
  rw [number?]
  dsimp only
  rw [if_pos (isNumeric_of_isIntegral hd), if_pos hd, hs.signed64? hw, hs.unsigned64? hw]
  by_cases hword : InWord (signed negative (value w))
  · rw [if_pos hword, if_pos hword]
  · rw [if_neg hword, if_neg hword]
    -- an unsigned word takes no sign, and what fits it only has none
    have hfits : FitsWord (signed negative (value w)) ↔
        negative = false ∧ value w < 0x10000000000000000 := by
      unfold InWord at hword
      unfold FitsWord
      cases negative with
      | false =>
        have hsigned : signed false (value w) = value w := rfl
        rw [hsigned] at hword ⊢
        simp only [true_and]
        omega
      | true =>
        have hsigned : signed true (value w) = -(value w : Int) := rfl
        rw [hsigned] at hword ⊢
        simp only [Bool.true_eq_false, false_and, iff_false]
        omega
    by_cases hplus : negative = false ∧ value w < 0x10000000000000000
    · rw [if_pos hplus, if_pos (hfits.2 hplus), hplus.1]
      rfl
    · rw [if_neg hplus, if_neg (mt hfits.1 hplus)]

/-- **An integer that fits a word is published in its digits.** -/
theorem json_of_fitsWord (hd : l.datatype.isIntegral = true)
    (h : IsInteger (Text.trim l.lexical.toList) i) (hi : FitsWord i) : l.json = Decimal.text i := by
  rw [json, number?_of_isInteger hd h]
  by_cases hword : InWord i
  · rw [if_pos hword]
    rfl
  · rw [if_neg hword, if_pos hi]
    have hpos : ¬ i < 0 := by
      unfold InWord at hword
      unfold FitsWord at hi
      omega
    exact (if_neg hpos).symm

/-! ### Beyond the words -/

theorem natAbs_signed (negative : Bool) (n : Nat) : (signed negative n).natAbs = n := by
  cases negative with
  | false => exact Int.natAbs_natCast n
  | true => exact (Int.natAbs_neg _).trans (Int.natAbs_natCast n)

theorem isNeg_signed (negative : Bool) {n : Nat} (hn : 0 < n) :
    decide (signed negative n < 0) = negative := by
  cases negative with
  | false =>
    have hsigned : signed false n = n := rfl
    rw [hsigned, decide_eq_false_iff_not]
    omega
  | true =>
    have hsigned : signed true n = -(n : Int) := rfl
    rw [hsigned, decide_eq_true_eq]
    omega

/-- What does not fit a word has a magnitude of at least `2 ^ 63`. -/
theorem le_natAbs_of_not_fitsWord (hi : ¬ FitsWord i) : 2 ^ 63 ≤ i.natAbs := by
  unfold FitsWord at hi
  omega

/-- An integer is read as the floating point value nearest to it. -/
theorem read?_of_isInteger (h : IsInteger s i) (hi : ¬ FitsWord i) :
    Binary64.read? s = some (Binary64.ofDecimal (decide (i < 0)) i.natAbs 0) := by
  have hlarge := le_natAbs_of_not_fitsWord hi
  obtain ⟨negative, w, hs, hw, rfl⟩ := h
  rw [natAbs_signed] at hlarge
  rw [natAbs_signed, isNeg_signed negative (lt_of_lt_of_le (by decide) hlarge)]
  obtain ⟨hplain, hplus, hminus⟩ := Binary64.read?_of_isDecimal (.whole hw)
  cases hs with
  | plain => exact hplain
  | plus => exact hplus
  | minus => exact hminus

theorem isFinite_ofDecimal_natAbs (i : Int) :
    (Binary64.ofDecimal (decide (i < 0)) i.natAbs 0).isFinite = true ↔
      i.natAbs < Binary64.overflow := by
  rw [Binary64.isFinite_ofDecimal, zpow_zero, mul_one, Nat.cast_lt]

/-- **An integer that is rounded to no finite value is published as the quoted text.** -/
theorem json_of_overflow (hd : l.datatype.isIntegral = true)
    (h : IsInteger (Text.trim l.lexical.toList) i) (hi : ¬ FitsWord i)
    (hlarge : Binary64.overflow ≤ i.natAbs) : l.json = Json.quote l.lexical.toList := by
  have hword : ¬ InWord i := by
    unfold FitsWord at hi
    unfold InWord
    omega
  have hfinite : ¬ (Binary64.ofDecimal (decide (i < 0)) i.natAbs 0).isFinite = true :=
    mt (isFinite_ofDecimal_natAbs i).1 (Nat.not_lt.2 hlarge)
  rw [json, number?_of_isInteger hd h, if_neg hword, if_neg hi, float?, read?_of_isInteger h hi]
  dsimp only
  rw [if_neg hfinite]

/-- **An integer in between is published in the shortest text of the nearest floating point
value.** -/
theorem json_of_rounded (hd : l.datatype.isIntegral = true)
    (h : IsInteger (Text.trim l.lexical.toList) i) (hi : ¬ FitsWord i)
    (hsmall : i.natAbs < Binary64.overflow) :
    l.json = (Binary64.ofDecimal (decide (i < 0)) i.natAbs 0).text := by
  have hword : ¬ InWord i := by
    unfold FitsWord at hi
    unfold InWord
    omega
  rw [json, number?_of_isInteger hd h, if_neg hword, if_neg hi, float?, read?_of_isInteger h hi]
  dsimp only
  rw [if_pos ((isFinite_ofDecimal_natAbs i).2 hsmall)]
  rfl

/-- The floating point value nearest to an integer in between. -/
theorem exists_rounded (hi : ¬ FitsWord i) (hsmall : i.natAbs < Binary64.overflow) :
    ∃ m q, Binary64.ofDecimal (decide (i < 0)) i.natAbs 0 = .finite (decide (i < 0)) m q ∧
      0 < m ∧ m < 2 ^ 53 ∧ 63 ≤ (m.log2 : Int) + q := by
  have hlarge := le_natAbs_of_not_fitsWord hi
  have hpos : 0 < i.natAbs := lt_of_lt_of_le (by decide) hlarge
  have hfinite := (isFinite_ofDecimal_natAbs i).2 hsmall
  have hformat := Binary64.inFormat_ofDecimal (decide (i < 0)) i.natAbs 0
  cases hx : Binary64.ofDecimal (decide (i < 0)) i.natAbs 0 with
  | nan =>
    rw [hx] at hfinite
    cases hfinite
  | infinite negative =>
    rw [hx] at hfinite
    cases hfinite
  | finite negative m q =>
    rw [hx] at hformat
    rw [Binary64.ofDecimal_natCast _ hpos] at hx
    obtain ⟨rfl, hm, hlog⟩ := Binary64.large_of_ofQuotient hlarge hx
    exact ⟨m, q, rfl, hm, hformat.1, hlog⟩

/-- The shortest text of a large value denotes an integer. -/
theorem denotes_text_large {m : Nat} {q : Int} (hm : 0 < m) (hq : 63 ≤ (m.log2 : Int) + q) :
    (Json.number (Binary64.finite negative m q).text).Denotes j ↔
      j = (Binary64.finite negative m q).toInteger := by
  obtain ⟨n, places, hdecimal, hvalue⟩ := isDecimal_text (Binary64.digits_shortest hm q)
  have hpower : 0 ≤ (Binary64.shortest m q).power := Binary64.power_shortest (by omega)
  have hsign : Signed negative (Binary64.shortest m q).text
      (Binary64.finite negative m q).text := by
    unfold Binary64.text
    dsimp only
    rw [if_neg hm.ne']
    cases negative with
    | false => exact .plain
    | true => exact .minus
  -- the same decimal without places behind the point
  have hwhole : n =
      (Binary64.shortest m q).digits * 10 ^ (Binary64.shortest m q).power.toNat * 10 ^ places := by
    have hten : (10 : ℚ) ^ places ≠ 0 := pow_ne_zero _ (by norm_num)
    rw [← Int.toNat_of_nonneg hpower, zpow_neg, zpow_natCast, zpow_natCast] at hvalue
    have hcast : (n : ℚ) = (Binary64.shortest m q).digits *
        10 ^ (Binary64.shortest m q).power.toNat * 10 ^ places := by
      rw [← hvalue, inv_mul_cancel_right₀ hten]
    exact_mod_cast hcast
  rw [Json.denotes_number_iff hsign hdecimal, hwhole]
  have htoInteger : (Binary64.finite negative m q).toInteger = signed negative
      ((Binary64.shortest m q).digits * 10 ^ (Binary64.shortest m q).power.toNat) := rfl
  have hscale : ∀ k : Nat, signed negative (k * 10 ^ places) = signed negative k * 10 ^ places := by
    intro k
    unfold signed
    split_ifs
    · push_cast
      ring
    · push_cast
      rfl
  have hten : (10 : Int) ^ places ≠ 0 := pow_ne_zero _ (by decide)
  rw [htoInteger, hscale, mul_left_inj' hten]
  exact eq_comm

/-- At most seventeen significant digits are left of an integer in between. -/
theorem natAbs_nearestShown (hi : ¬ FitsWord i) (hsmall : i.natAbs < Binary64.overflow) :
    ∃ c p : Nat, c ≤ 10 ^ 17 ∧ (nearestShown i).natAbs = c * 10 ^ p := by
  obtain ⟨m, q, hx, -, hm, hlog⟩ := exists_rounded hi hsmall
  refine ⟨(Binary64.shortest m q).digits, (Binary64.shortest m q).power.toNat,
    Binary64.digits_shortest_le hm (by omega), ?_⟩
  rw [nearestShown, hx]
  exact natAbs_signed _ _

theorem not_fitsWord_of_overflow (hlarge : Binary64.overflow ≤ i.natAbs) : ¬ FitsWord i := by
  have hbound : 0x10000000000000000 < Binary64.overflow := by decide +kernel
  intro hi
  unfold FitsWord at hi
  omega

/-- The value that an integral literal is published as. -/
theorem denotes_json (hd : l.datatype.isIntegral = true)
    (h : IsInteger (Text.trim l.lexical.toList) i) :
    ∃ v, Json.read l.json = some v ∧ ∀ j, v.Denotes j ↔ j = publishedInteger i := by
  unfold publishedInteger
  by_cases hi : FitsWord i
  · refine ⟨.number (Decimal.text i), ?_, fun j => ?_⟩
    · rw [json_of_fitsWord hd h hi]
      exact (Json.spells_number (isNumber_text i)).read
    · rw [if_pos (.inl hi)]
      exact Json.denotes_text_iff
  by_cases hlarge : Binary64.overflow ≤ i.natAbs
  · refine ⟨.string (some l.lexical.toList), ?_, fun j => ?_⟩
    · rw [json_of_overflow hd h hi hlarge]
      exact (Json.spells_quote _).read
    · rw [if_pos (.inr hlarge)]
      exact Json.denotes_string_iff h
  · have hsmall := Nat.not_le.1 hlarge
    obtain ⟨m, q, hx, hm, -, hlog⟩ := exists_rounded hi hsmall
    refine ⟨.number (Binary64.finite (decide (i < 0)) m q).text, ?_, fun j => ?_⟩
    · rw [json_of_rounded hd h hi hsmall, hx]
      exact (Json.spells_number (Binary64.isNumber_text rfl)).read
    · rw [if_neg (by simp [hi, hsmall]), nearestShown, hx]
      exact denotes_text_large hm hlog

/-- **Which integer is published for which.** A literal of an integral datatype whose text, without
blanks around it, is an integer is published as a JSON value that stands for one integer. That is
the integer itself, in its digits, if it fits a signed or an unsigned 64-bit word, and also, as the
quoted text, if it is rounded to no finite value. In between it is the integer in the shortest text
of the floating point value nearest to it, so the integer is kept exactly if it is that one. At most
seventeen significant digits are kept there. -/
theorem integer_published (l : Literal) (i : Int) (hd : l.datatype.isIntegral = true)
    (h : IsInteger (Text.trim l.lexical.toList) i) :
    ∃ v, Json.read l.json = some v ∧ (∀ j, v.Denotes j ↔ j = publishedInteger i) ∧
      (v.Denotes i ↔ FitsWord i ∨ Binary64.overflow ≤ i.natAbs ∨ i = nearestShown i) ∧
      (FitsWord i → l.json = Decimal.text i) ∧
      (Binary64.overflow ≤ i.natAbs → l.json = Json.quote l.lexical.toList) ∧
      (¬ FitsWord i → i.natAbs < Binary64.overflow →
        ∃ c p : Nat, c ≤ 10 ^ 17 ∧ (publishedInteger i).natAbs = c * 10 ^ p) := by
  obtain ⟨v, hread, hdenotes⟩ := denotes_json hd h
  refine ⟨v, hread, hdenotes, ?_, json_of_fitsWord hd h,
    fun hlarge => json_of_overflow hd h (not_fitsWord_of_overflow hlarge) hlarge, ?_⟩
  · rw [hdenotes, publishedInteger, ← or_assoc]
    split_ifs with hkept <;> simp [hkept]
  · intro hi hsmall
    rw [publishedInteger, if_neg (by simp [hi, hsmall])]
    exact natAbs_nearestShown hi hsmall

/-- The least integer beyond the words is published as another one. -/
theorem integer_published_beyondWords :
    IsInteger (Text.trim "18446744073709551616".toList) 18446744073709551616 ∧
    ∃ v, Json.read (Literal.json ⟨"18446744073709551616", .integer, none⟩) = some v ∧
      v.Denotes 18446744073709552000 ∧ ¬ v.Denotes 18446744073709551616 := by
  have hinteger : IsInteger (Text.trim "18446744073709551616".toList) 18446744073709551616 :=
    ⟨false, _, .plain, by decide, by decide⟩
  have hpublished : publishedInteger 18446744073709551616 = 18446744073709552000 := by decide +kernel
  obtain ⟨v, hread, hdenotes, -⟩ :=
    integer_published ⟨"18446744073709551616", .integer, none⟩ 18446744073709551616 rfl hinteger
  rw [hpublished] at hdenotes
  exact ⟨hinteger, v, hread, (hdenotes _).2 rfl, mt (hdenotes _).1 (by decide)⟩

end Literal

end Switchboard
