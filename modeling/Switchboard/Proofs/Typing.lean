import Switchboard.Literal.Infer
import Switchboard.Proofs.Readback

/-!
# How raw texts are typed

A text is typed by its grammar: at most one sign and digits make an integer if it fits a signed
64-bit word, at most one sign, digits, a point and any digits make a floating point value, and every
other text stays as it is. A literal typed as an integer has that integer as its number. One typed
as a floating point value has a number exactly if the decimal is below the bound where rounding
ends: beyond it the value is infinite, which is no number, and is published in quotes.

* `Literal.infer_of_isInteger`, `Literal.infer_of_isPointed`, `Literal.infer_of_other`: what texts
  of the three kinds become.
* `Literal.datatype_int_iff`, `Literal.datatype_double_iff`: which texts become numbers.
* `Literal.infer_typed`: all of it, for every text.
-/

namespace Switchboard.Literal

open Decimal

/-- A text behind at most one sign. -/
inductive Signed : Bool → List Char → List Char → Prop
  | plain {w : List Char} : Signed false w w
  | plus {w : List Char} : Signed false w ('+' :: w)
  | minus {w : List Char} : Signed true w ('-' :: w)

/-- A number with a sign. -/
def signed (negative : Bool) (n : Nat) : Int := if negative then -(n : Int) else n

/-- At most one sign and one or more digits, which denote `i`. -/
def IsInteger (s : List Char) (i : Int) : Prop :=
  ∃ negative w, Signed negative w s ∧ isNumeral w = true ∧ i = signed negative (value w)

/-- At most one sign, one or more digits, a point and any digits. The magnitude is `n` in units of
the last of `places` decimal places. -/
def IsPointed (s : List Char) (negative : Bool) (n places : Nat) : Prop :=
  ∃ w f, Signed negative (w ++ '.' :: f) s ∧ isNumeral w = true ∧
    (∀ c ∈ f, c.isDigit = true) ∧ n = value (w ++ f) ∧ places = f.length

variable {negative : Bool} {w f s : List Char} {text : String}

/-! ### Signs -/

theorem signed_dropSign (s : List Char) : ∃ negative, Signed negative (dropSign s) s := by
  unfold dropSign
  split
  · exact ⟨true, .minus⟩
  · exact ⟨false, .plus⟩
  · exact ⟨false, .plain⟩

/-- The sign is all that is taken off a text that goes on with digits. -/
theorem Signed.dropSign (h : Signed negative w s) (hw : ∃ c t, w = c :: t ∧ c.isDigit = true) :
    dropSign s = w := by
  obtain ⟨c, t, rfl, hc⟩ := hw
  cases h with
  | plus => rfl
  | minus => rfl
  | plain =>
    unfold Literal.dropSign
    split
    · rename_i heq
      cases heq
      exact absurd hc (by decide)
    · rename_i heq
      cases heq
      exact absurd hc (by decide)
    · rfl

theorem inWord_plus {n : Nat} : InWord (signed false n) ↔ n < 0x8000000000000000 := by
  have hsigned : signed false n = n := rfl
  rw [hsigned, InWord]
  omega

theorem inWord_minus {n : Nat} : InWord (signed true n) ↔ n ≤ 0x8000000000000000 := by
  have hsigned : signed true n = -(n : Int) := rfl
  rw [hsigned, InWord]
  omega

/-- Digits behind a sign are read into a word if they fit. -/
theorem Signed.signed64? (h : Signed negative w s) (hw : isNumeral w = true) :
    Decimal.signed64? s =
      if InWord (signed negative (value w)) then some (signed negative (value w)) else none := by
  have hplus : ((natural? w).filter (· < 0x8000000000000000)).map (fun (n : Nat) => (n : Int)) =
      if InWord (signed false (value w)) then some (signed false (value w)) else none := by
    rw [natural?_eq hw, Option.filter_some]
    by_cases hfits : value w < 0x8000000000000000
    · rw [if_pos (decide_eq_true hfits), if_pos (inWord_plus.2 hfits)]
      rfl
    · rw [if_neg (by simpa using hfits), if_neg fun hword => hfits (inWord_plus.1 hword)]
      rfl
  cases h with
  | plain =>
    rw [signed64?_of_isNumeral hw]
    exact hplus
  | plus => exact hplus
  | minus =>
    have hminus : Decimal.signed64? ('-' :: w) =
        ((natural? w).filter (· ≤ 0x8000000000000000)).map fun (n : Nat) => -(n : Int) := rfl
    rw [hminus, natural?_eq hw, Option.filter_some]
    by_cases hfits : value w ≤ 0x8000000000000000
    · rw [if_pos (decide_eq_true hfits), if_pos (inWord_minus.2 hfits)]
      rfl
    · rw [if_neg (by simpa using hfits), if_neg fun hword => hfits (inWord_minus.1 hword)]
      rfl

/-! ### The three kinds of texts -/

theorem head_of_isNumeral (hw : isNumeral w = true) (t : List Char) :
    ∃ c u, w ++ t = c :: u ∧ c.isDigit = true := by
  obtain ⟨hne, hdigits⟩ := isNumeral_iff.1 hw
  obtain ⟨c, u, rfl⟩ := List.exists_cons_of_ne_nil hne
  exact ⟨c, u ++ t, rfl, hdigits c List.mem_cons_self⟩

theorem point_not_mem (hw : ∀ c ∈ w, c.isDigit = true) : '.' ∉ w :=
  fun hc => absurd (hw _ hc) (by decide)

/-- Digits behind at most one sign. -/
theorem infer_of_numeral (hs : Signed negative w text.toList) (hw : isNumeral w = true) :
    infer text = if InWord (signed negative (value w)) then int (signed negative (value w))
      else string text := by
  have hhead : ∃ c t, w = c :: t ∧ c.isDigit = true := by
    have h := head_of_isNumeral hw []
    rwa [List.append_nil] at h
  have hdrop := hs.dropSign hhead
  have hcut : Text.cutFirst '.' w = none :=
    Text.cutFirst_eq_none.2 (point_not_mem (isNumeral_iff.1 hw).2)
  unfold infer
  dsimp only
  rw [hdrop, hcut, hs.signed64? hw]
  dsimp only
  rw [hw]
  split_ifs <;> rfl

/-- **What integers become.** -/
theorem infer_of_isInteger {i : Int} (h : IsInteger text.toList i) (hi : InWord i) :
    infer text = int i := by
  obtain ⟨negative, w, hs, hw, rfl⟩ := h
  rw [infer_of_numeral hs hw, if_pos hi]

/-- **What decimals with a point become**: the nearest value. -/
theorem infer_of_isPointed {n places : Nat} (h : IsPointed text.toList negative n places) :
    infer text = double (Binary64.ofDecimal negative n (-(places : Int))) := by
  obtain ⟨w, f, hs, hw, hf, rfl, rfl⟩ := h
  have hdrop := hs.dropSign (head_of_isNumeral hw _)
  have hcut : Text.cutFirst '.' (w ++ '.' :: f) = some (w, f) :=
    Text.cutFirst_eq_some.2 ⟨rfl, point_not_mem (isNumeral_iff.1 hw).2⟩
  have hread : Binary64.read? text.toList =
      some (Binary64.ofDecimal negative (value (w ++ f)) (-(f.length : Int))) := by
    obtain ⟨hplain, hplus, hminus⟩ := Binary64.read?_of_isDecimal (.point hw hf)
    generalize text.toList = s at hs
    cases hs with
    | plain => exact hplain
    | plus => exact hplus
    | minus => exact hminus
  unfold infer
  dsimp only
  rw [hdrop, hcut]
  dsimp only
  rw [hw, List.all_eq_true.2 hf, hread]
  rfl

/-- **Every other text stays as it is.** -/
theorem infer_of_other (hinteger : ∀ i, IsInteger text.toList i → ¬ InWord i)
    (hpointed : ∀ negative n places, ¬ IsPointed text.toList negative n places) :
    infer text = string text := by
  obtain ⟨negative, hs⟩ := signed_dropSign text.toList
  cases hcut : Text.cutFirst '.' (dropSign text.toList) with
  | none =>
    by_cases hw : isNumeral (dropSign text.toList) = true
    · have hword := hinteger _ ⟨negative, _, hs, hw, rfl⟩
      rw [infer_of_numeral hs hw, if_neg hword]
    · rw [Bool.not_eq_true] at hw
      unfold infer
      dsimp only
      rw [hcut]
      dsimp only
      rw [hw]
  | some p =>
    obtain ⟨w, f⟩ := p
    obtain ⟨hsplit, -⟩ := Text.cutFirst_eq_some.1 hcut
    have hdigits : (isNumeral w && f.all Char.isDigit) = false := by
      rw [← Bool.not_eq_true, Bool.and_eq_true, List.all_eq_true]
      rintro ⟨hw, hf⟩
      exact hpointed _ _ _ ⟨w, f, hsplit ▸ hs, hw, hf, rfl, rfl⟩
    unfold infer
    dsimp only
    rw [hcut]
    dsimp only
    rw [hdigits]

/-- A text becomes an integer only if it is one. -/
theorem datatype_int_iff :
    (infer text).datatype = .int ↔ ∃ i, IsInteger text.toList i ∧ InWord i := by
  constructor
  · intro h
    by_contra hinteger
    push Not at hinteger
    -- a text of another kind has another datatype
    by_cases hpointed : ∃ negative n places, IsPointed text.toList negative n places
    · obtain ⟨negative, n, places, hpointed⟩ := hpointed
      rw [infer_of_isPointed hpointed] at h
      cases h
    · push Not at hpointed
      rw [infer_of_other hinteger hpointed] at h
      cases h
  · rintro ⟨i, h, hi⟩
    rw [infer_of_isInteger h hi]
    rfl

/-- A text becomes a floating point value only if it is a decimal with a point. -/
theorem datatype_double_iff : (infer text).datatype = .double ↔
    ∃ negative n places, IsPointed text.toList negative n places := by
  constructor
  · intro h
    by_contra hpointed
    push Not at hpointed
    by_cases hinteger : ∃ i, IsInteger text.toList i ∧ InWord i
    · obtain ⟨i, hinteger, hi⟩ := hinteger
      rw [infer_of_isInteger hinteger hi] at h
      cases h
    · push Not at hinteger
      rw [infer_of_other hinteger hpointed] at h
      cases h
  · rintro ⟨negative, n, places, h⟩
    rw [infer_of_isPointed h]
    rfl

/-! ### Numbers -/

/-- An integer has itself as its number. -/
theorem number?_int {i : Int} (hi : InWord i) : (int i).number? = some (.int i) := by
  have htrim : Text.trim (Decimal.text i) = Decimal.text i := (isNumber_text i).trim
  have hsigned : signed64? (Decimal.text i) = some i := signed64?_text hi.1 hi.2
  have hlexical : (int i).lexical.toList = Decimal.text i := String.toList_ofList
  have hnumeric : (int i).datatype.isNumeric = true := rfl
  have hintegral : (int i).datatype.isIntegral = true := rfl
  rw [number?]
  dsimp only
  rw [if_pos hnumeric, if_pos hintegral, hlexical, htrim, hsigned]

/-- The literal of a decimal has a number exactly if the decimal is below the bound where rounding
ends. -/
theorem isSome_number?_ofDecimal (negative : Bool) (n places : Nat) :
    (double (Binary64.ofDecimal negative n (-(places : Int)))).number?.isSome = true ↔
      n < Binary64.overflow * 10 ^ places := by
  rw [isSome_number?_double (Binary64.inFormat_ofDecimal _ _ _), Binary64.isFinite_ofDecimal,
    zpow_neg, zpow_natCast, ← div_eq_mul_inv, div_lt_iff₀ (by positivity), ← Nat.cast_lt (α := ℚ)]
  push_cast
  rfl

/-- A decimal below that bound is published as a bare number. -/
theorem isNumber_json_ofDecimal (negative : Bool) {n places : Nat}
    (h : n < Binary64.overflow * 10 ^ places) :
    Json.IsNumber (double (Binary64.ofDecimal negative n (-(places : Int)))).json := by
  have hnumber := (isSome_number?_ofDecimal negative n places).2 h
  obtain ⟨x, hx⟩ := Option.isSome_iff_exists.1 hnumber
  rw [json, hx]
  exact isNumber_of_number? hx

/-- An infinite value is published in quotes. -/
theorem json_infinite (negative : Bool) :
    (double (.infinite negative)).json = Json.quote (Binary64.infinite negative).text := by
  have hnone : (double (.infinite negative)).number? = none := by cases negative <;> decide
  rw [json, hnone, double, String.toList_ofList]

/-- A decimal that is not below that bound is infinite. -/
theorem ofDecimal_of_overflow_le (negative : Bool) {n places : Nat}
    (h : Binary64.overflow * 10 ^ places ≤ n) :
    Binary64.ofDecimal negative n (-(places : Int)) = .infinite negative := by
  have hnot : ¬ (Binary64.ofDecimal negative n (-(places : Int))).isFinite = true := by
    rw [← isSome_number?_double (Binary64.inFormat_ofDecimal _ _ _), isSome_number?_ofDecimal]
    omega
  exact Binary64.ofDecimal_eq_infinite (Bool.eq_false_iff.2 hnot)

/-- **How raw texts are typed**, for every text. It becomes an integer exactly if it is at most one
sign and one or more digits and fits a signed 64-bit word, and a floating point value exactly if it
is at most one sign, one or more digits, a point and any digits. Every other text stays as it is. An
integer is published as it is. A floating point value is the nearest one to the text. It is a
number, and published as a bare one, exactly if the magnitude of the text is below the bound where
rounding ends. Else it is infinite, and its name is published in quotes. -/
theorem infer_typed (text : String) :
    ((infer text).datatype = .int ↔ ∃ i, IsInteger text.toList i ∧ InWord i) ∧
    ((infer text).datatype = .double ↔
      ∃ negative n places, IsPointed text.toList negative n places) ∧
    ((∀ i, IsInteger text.toList i → ¬ InWord i) →
      (∀ negative n places, ¬ IsPointed text.toList negative n places) →
        infer text = string text) ∧
    (∀ i, IsInteger text.toList i → InWord i → infer text = int i ∧
      (infer text).number? = some (.int i) ∧ (infer text).json = Decimal.text i) ∧
    ∀ negative n places, IsPointed text.toList negative n places →
      infer text = double (Binary64.ofDecimal negative n (-(places : Int))) ∧
      ((infer text).number?.isSome = true ↔ n < Binary64.overflow * 10 ^ places) ∧
      (n < Binary64.overflow * 10 ^ places → Json.IsNumber (infer text).json) ∧
      (Binary64.overflow * 10 ^ places ≤ n → infer text = double (.infinite negative) ∧
        (infer text).json = Json.quote (Binary64.infinite negative).text) := by
  refine ⟨datatype_int_iff, datatype_double_iff, infer_of_other, fun i h hi => ?_,
    fun negative n places h => ?_⟩
  · rw [infer_of_isInteger h hi, json, number?_int hi]
    exact ⟨rfl, rfl, rfl⟩
  · have hinfer := infer_of_isPointed h
    rw [hinfer]
    refine ⟨rfl, isSome_number?_ofDecimal negative n places, isNumber_json_ofDecimal negative,
      fun hle => ?_⟩
    rw [ofDecimal_of_overflow_le negative hle]
    exact ⟨rfl, json_infinite negative⟩

/-- The digits of a number that rounds to no finite value. -/
def longDigits : List Char := ['1'] ++ List.replicate 309 '0'

/-- These digits with a point behind them. -/
def longText : String := String.ofList (longDigits ++ ['.'])

theorem isPointed_longText : IsPointed longText.toList false (10 ^ 309) 0 := by
  have hdigits : isNumeral longDigits = true :=
    isNumeral_append (by decide) fun c hc => isDigit_of_mem_replicate hc
  have hvalue : value longDigits = 10 ^ 309 := by
    have hone : value ['1'] = 1 := rfl
    rw [longDigits, value_append_replicate, hone, Nat.mul_one]
  refine ⟨longDigits, [], ?_, hdigits, List.forall_mem_nil _, ?_, rfl⟩
  · rw [longText, String.toList_ofList]
    exact .plain
  · rw [List.append_nil, hvalue]

/-- An integer with a sign and zeros in front, a decimal with nothing behind its point, a text that
is neither, and a decimal beyond the bound, which becomes a floating point value that is no number. -/
theorem infer_typed_ofEachKind : infer "+007" = int 7 ∧ (infer "+007").json = "7".toList ∧
    (infer "-3.").number?.isSome = true ∧ Json.IsNumber (infer "-3.").json ∧
    infer "1.2.3" = string "1.2.3" ∧ (infer longText).datatype = .double ∧
    (infer longText).number?.isSome ≠ true ∧ (infer longText).json = "\"inf\"".toList := by
  have hseven : IsInteger "+007".toList 7 := ⟨false, _, .plus, by decide, by decide⟩
  have hthree : IsPointed "-3.".toList true 3 0 :=
    ⟨['3'], [], .minus, by decide, List.forall_mem_nil _, by decide, rfl⟩
  have hbound : 3 < Binary64.overflow * 10 ^ 0 := by decide +kernel
  have hbeyond : Binary64.overflow * 10 ^ 0 ≤ 10 ^ 309 := by decide +kernel
  obtain ⟨hint, -, hjson⟩ := (infer_typed "+007").2.2.2.1 7 hseven (by decide)
  obtain ⟨-, hnumber, hbare, -⟩ := (infer_typed "-3.").2.2.2.2 true 3 0 hthree
  obtain ⟨hnotInt, hnotDouble, hstring, -⟩ := infer_typed "1.2.3"
  have hinteger : ¬ ∃ i, IsInteger "1.2.3".toList i ∧ InWord i := mt hnotInt.2 (by decide +kernel)
  have hpointed : ¬ ∃ negative n places, IsPointed "1.2.3".toList negative n places :=
    mt hnotDouble.2 (by decide +kernel)
  push Not at hinteger hpointed
  obtain ⟨-, hdouble, -, -, hlong⟩ := infer_typed longText
  obtain ⟨-, hlongNumber, -, hinfinite⟩ := hlong false _ 0 isPointed_longText
  refine ⟨hint, hjson, hnumber.2 hbound, hbare hbound, hstring hinteger hpointed,
    hdouble.2 ⟨_, _, _, isPointed_longText⟩, mt hlongNumber.1 (Nat.not_lt.2 hbeyond), ?_⟩
  rw [(hinfinite hbeyond).2]
  decide

end Switchboard.Literal
