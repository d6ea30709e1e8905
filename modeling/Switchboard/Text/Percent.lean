import Switchboard.Text.Hex
import Switchboard.Text.Utf8

/-!
# Percent encoding

A byte may be written as `%` and two hexadecimal digits. Decoding puts the byte for each such
triple and keeps everything else. The writing is beside it: of paths, in which any character of
ASCII but `%` may stand as it is, and of forms, in which only letters and digits may, and a space is
`+` or a triple.

* `decode_append_cons`: the parts of a text around a byte such as `/` are decoded by themselves.
* `Written.decode`, `decodeComponent_of_written`: what was written is decoded.
-/

namespace Switchboard.Text.Percent

/-- The value of a byte that is a hexadecimal digit. -/
def hexByte? (b : UInt8) : Option Nat := Hex.value? (Char.ofNat b.toNat)

/-- Puts the byte for each triple of `%` and two hexadecimal digits. -/
def decode : List UInt8 → List UInt8
  | b :: x :: y :: rest =>
    if b = 37 then
      match hexByte? x, hexByte? y with
      | some i, some j => UInt8.ofNat (16 * i + j) :: decode rest
      | _, _ => b :: decode (x :: y :: rest)
    else b :: decode (x :: y :: rest)
  | bs => bs

/-- The text of a path, if its decoded bytes are well-formed UTF-8. -/
def decodePath? (path : List Char) : Option (List Char) := Utf8.decode? (decode (Utf8.encode path))

/-- The text of a form component: `+` is a space, malformed bytes become U+FFFD. -/
def decodeComponent (raw : List Char) : List Char :=
  Utf8.decodeLenient (decode (Utf8.encode (raw.map fun c => if c = '+' then ' ' else c)))

/-! ### Decoding part by part -/

variable {b s : UInt8} {c x y : Char}

theorem decode_cons_of_ne (h : b ≠ 37) (bs : List UInt8) : decode (b :: bs) = b :: decode bs := by
  match bs with
  | [] => rfl
  | [_] => rfl
  | x :: y :: rest => rw [decode, if_neg h]

theorem decode_triple {i j : Nat} {x y : UInt8} (hx : hexByte? x = some i) (hy : hexByte? y = some j)
    (bs : List UInt8) : decode (37 :: x :: y :: bs) = UInt8.ofNat (16 * i + j) :: decode bs := by
  rw [decode, if_pos rfl, hx, hy]

/-- A `%` without two digits behind it is kept. -/
theorem decode_percent {bs : List UInt8}
    (h : ∀ x y rest, bs = x :: y :: rest → hexByte? x = none ∨ hexByte? y = none) :
    decode (37 :: bs) = 37 :: decode bs := by
  match bs with
  | [] => rfl
  | [_] => rfl
  | x :: y :: rest =>
    rw [decode, if_pos rfl]
    rcases h x y rest rfl with hx | hy
    · rw [hx]
    · rw [hy]
      cases hexByte? x <;> rfl

/-- **A byte that is neither `%` nor a digit cuts a text into parts that are decoded by
themselves.** -/
theorem decode_append_cons (hs : s ≠ 37) (hd : hexByte? s = none) (a bs : List UInt8) :
    decode (a ++ s :: bs) = decode a ++ s :: decode bs := by
  induction hn : a.length using Nat.strongRecOn generalizing a with
  | ind n ih =>
    subst hn
    cases a with
    | nil => exact decode_cons_of_ne hs bs
    | cons b a =>
      by_cases hb : b = 37
      · subst hb
        by_cases htriple : ∃ x y rest i j,
            a = x :: y :: rest ∧ hexByte? x = some i ∧ hexByte? y = some j
        · obtain ⟨x, y, rest, i, j, rfl, hx, hy⟩ := htriple
          have hrest := ih rest.length (by simp only [List.length_cons]; omega) rest rfl
          simp only [List.cons_append, decode_triple hx hy, hrest]
        · have hkeep : ∀ x y rest, a = x :: y :: rest → hexByte? x = none ∨ hexByte? y = none := by
            intro x y rest ha
            cases hx : hexByte? x with
            | none => exact .inl rfl
            | some i =>
              cases hy : hexByte? y with
              | none => exact .inr rfl
              | some j => exact absurd ⟨x, y, rest, i, j, ha, hx, hy⟩ htriple
          have hkeep' : ∀ x y rest, a ++ s :: bs = x :: y :: rest →
              hexByte? x = none ∨ hexByte? y = none := by
            intro x y rest ha
            match a with
            | [] => exact .inl (by cases ha; exact hd)
            | [_] => exact .inr (by cases ha; exact hd)
            | x' :: y' :: rest' =>
              cases ha
              exact hkeep _ _ _ rfl
          have hrest := ih a.length (Nat.lt_succ_self _) a rfl
          rw [List.cons_append, decode_percent hkeep', decode_percent hkeep, hrest, List.cons_append]
      · have hrest := ih a.length (Nat.lt_succ_self _) a rfl
        rw [List.cons_append, decode_cons_of_ne hb, decode_cons_of_ne hb, hrest, List.cons_append]

/-! ### Written components -/

/-- **How bytes are written**: a byte as a character that stands for it, if `plain` allows that
character, or as `%` and two hexadecimal digits of either case. -/
inductive Written (plain : UInt8 → Char → Prop) : List UInt8 → List Char → Prop
  | nil : Written plain [] []
  | plain {b : UInt8} {c : Char} {bs : List UInt8} {w : List Char} (allowed : plain b c)
      (rest : Written plain bs w) : Written plain (b :: bs) (c :: w)
  | triple {b : UInt8} {x y : Char} {bs : List UInt8} {w : List Char}
      (high : Hex.value? x = some (b.toNat / 16)) (low : Hex.value? y = some (b.toNat % 16))
      (rest : Written plain bs w) : Written plain (b :: bs) ('%' :: x :: y :: w)

/-- A character of ASCII other than `%` stands for the byte of its code. -/
def Kept (b : UInt8) (c : Char) : Prop := c.toNat < 0x80 ∧ c ≠ '%' ∧ b = UInt8.ofNat c.toNat

/-- A letter or a digit stands for the byte of its code, and `+` for a space. -/
def FormKept (b : UInt8) (c : Char) : Prop :=
  c.isAlphanum = true ∧ b = UInt8.ofNat c.toNat ∨ c = '+' ∧ b = 32

theorem lt_of_value? {n : Nat} (h : Hex.value? c = some n) : c.toNat < 0x80 := by
  unfold Hex.value? at h
  split at h
  · rename_i hc
    exact Nat.lt_of_le_of_lt (show c.toNat ≤ '9'.toNat from hc.2) (by decide)
  · split at h
    · rename_i hc
      exact Nat.lt_of_le_of_lt (show c.toNat ≤ 'f'.toNat from hc.2) (by decide)
    · split at h
      · rename_i hc
        exact Nat.lt_of_le_of_lt (show c.toNat ≤ 'F'.toNat from hc.2) (by decide)
      · cases h

theorem hexByte?_ofNat (h : c.toNat < 0x80) : hexByte? (UInt8.ofNat c.toNat) = Hex.value? c := by
  rw [hexByte?, Utf8.toNat_byte (by omega), Char.ofNat_toNat]

theorem encode_cons (c : Char) (w : List Char) :
    Utf8.encode (c :: w) = String.utf8EncodeChar c ++ Utf8.encode w := rfl

/-- **What was written is decoded.** -/
theorem Written.decode {bs : List UInt8} {w : List Char} (h : Written Kept bs w) :
    decode (Utf8.encode w) = bs := by
  induction h with
  | nil => rfl
  | @plain b c bs w hc _ ih =>
    obtain ⟨hlt, hne, rfl⟩ := hc
    have hb : UInt8.ofNat c.toNat ≠ 37 := by
      intro he
      have hn := congrArg UInt8.toNat he
      rw [Utf8.toNat_byte (by omega)] at hn
      exact hne (Char.toNat_inj.1 hn)
    rw [encode_cons, Utf8.utf8EncodeChar_of_lt hlt, List.singleton_append, decode_cons_of_ne hb, ih]
  | @triple b x y bs w high low _ ih =>
    have hx := lt_of_value? high
    have hy := lt_of_value? low
    have hpercent : String.utf8EncodeChar '%' = [37] := by decide
    have hbyte : 16 * (b.toNat / 16) + b.toNat % 16 = b.toNat := Nat.div_add_mod _ _
    rw [encode_cons, encode_cons, encode_cons, hpercent, Utf8.utf8EncodeChar_of_lt hx,
      Utf8.utf8EncodeChar_of_lt hy, List.singleton_append, List.singleton_append,
      List.singleton_append, decode_triple ((hexByte?_ofNat hx).trans high)
        ((hexByte?_ofNat hy).trans low), ih, hbyte, UInt8.ofNat_toNat]

theorem kept_of_isAlphanum (h : c.isAlphanum = true) : c.toNat < 0x80 ∧ c ≠ '%' ∧ c ≠ '+' := by
  refine ⟨?_, ?_, ?_⟩
  · have hv : c.val.toNat < 0x80 := by
      unfold Char.isAlphanum Char.isAlpha Char.isUpper Char.isLower Char.isDigit at h
      simp only [Bool.or_eq_true, Bool.and_eq_true, decide_eq_true_eq,
        UInt32.le_iff_toNat_le] at h
      rcases h with (h | h) | h <;> exact Nat.lt_of_le_of_lt h.2 (by decide)
    exact hv
  · rintro rfl
    exact absurd h (by decide)
  · rintro rfl
    exact absurd h (by decide)

/-- A form writes a space as `+`, and else as paths do. -/
theorem Written.path {bs : List UInt8} {w : List Char} (h : Written FormKept bs w) :
    Written Kept bs (w.map fun c => if c = '+' then ' ' else c) := by
  induction h with
  | nil => exact .nil
  | @plain b c bs w hc _ ih =>
    refine .plain ?_ ih
    rcases hc with ⟨hc, rfl⟩ | ⟨rfl, rfl⟩
    · obtain ⟨hlt, hpercent, hplus⟩ := kept_of_isAlphanum hc
      dsimp only
      rw [if_neg hplus]
      exact ⟨hlt, hpercent, rfl⟩
    · exact ⟨by decide, by decide, by decide⟩
  | @triple b x y bs w high low _ ih =>
    have hplus : Hex.value? '+' = none := by decide
    have hx : x ≠ '+' := by
      rintro rfl
      rw [hplus] at high
      cases high
    have hy : y ≠ '+' := by
      rintro rfl
      rw [hplus] at low
      cases low
    simp only [List.map_cons, if_neg hx, if_neg hy, if_neg (show ¬ '%' = '+' by decide)]
    exact .triple high low ih

/-- **A written component is read back.** -/
theorem decodeComponent_of_written {s w : List Char} (h : Written FormKept (Utf8.encode s) w) :
    decodeComponent w = s := by
  rw [decodeComponent, h.path.decode, Utf8.decodeLenient, Utf8.pieces_encode, List.map_map]
  exact List.map_id s

theorem isAlphanum_of_value? {n : Nat} (h : Hex.value? c = some n) : c.isAlphanum = true := by
  have hlt := lt_of_value? h
  have hall : ∀ m : Fin 0x80, (Hex.value? (Char.ofNat m.val)).isSome = true →
      (Char.ofNat m.val).isAlphanum = true := by decide
  have hc := hall ⟨c.toNat, hlt⟩
  rw [Char.ofNat_toNat, h] at hc
  exact hc rfl

/-- The characters of a written component. -/
theorem Written.mem {bs : List UInt8} {w : List Char} (h : Written FormKept bs w) :
    ∀ c ∈ w, c.isAlphanum = true ∨ c = '+' ∨ c = '%' := by
  induction h with
  | nil => exact fun c hc => nomatch hc
  | plain allowed _ ih =>
    rw [List.forall_mem_cons]
    refine ⟨?_, ih⟩
    rcases allowed with ⟨hc, -⟩ | ⟨hc, -⟩
    · exact .inl hc
    · exact .inr (.inl hc)
  | triple high low _ ih =>
    rw [List.forall_mem_cons, List.forall_mem_cons, List.forall_mem_cons]
    exact ⟨.inr (.inr rfl), .inl (isAlphanum_of_value? high), .inl (isAlphanum_of_value? low), ih⟩

/-! ### Paths -/

/-- **The segments of a path are decoded by themselves.** -/
theorem decodePath?_append_slash (s t : List Char) : decodePath? (s ++ '/' :: t) =
    (decodePath? s).bind fun a => (decodePath? t).map fun b => a ++ '/' :: b := by
  have hslash : String.utf8EncodeChar '/' = [47] := by decide
  have hhead : ∀ b, (47 :: decode (Utf8.encode t)).head? = some b → ¬ Utf8.IsContinuation b := by
    intro b hb
    cases hb
    exact fun h => absurd h.1 (by decide)
  unfold decodePath?
  rw [Utf8.encode_append, encode_cons, hslash, List.singleton_append,
    decode_append_cons (by decide) (by decide), Utf8.decode?_append hhead,
    Utf8.decode?_cons_of_lt (by decide)]
  cases Utf8.decode? (decode (Utf8.encode t)) <;> rfl

/-- **A written text is read back.** -/
theorem Written.decodePath? {s w : List Char} (h : Written Kept (Utf8.encode s) w) :
    Percent.decodePath? w = some s := by
  rw [Percent.decodePath?, h.decode, Utf8.decode?_encode]

/-- Characters of ASCII other than `%` stand for themselves. -/
theorem written_self {s : List Char} (h : ∀ c ∈ s, c.toNat < 0x80 ∧ c ≠ '%') :
    Written Kept (Utf8.encode s) s := by
  induction s with
  | nil => exact .nil
  | cons c s ih =>
    rw [List.forall_mem_cons] at h
    rw [encode_cons, Utf8.utf8EncodeChar_of_lt h.1.1]
    exact .plain ⟨h.1.1, h.1.2, rfl⟩ (ih h.2)

/-- Bytes with each of them written as a triple. -/
def triples (bs : List UInt8) : List Char :=
  bs.flatMap fun b => ['%', Hex.digit (b.toNat / 16), Hex.digit (b.toNat % 16)]

theorem written_triples (plain : UInt8 → Char → Prop) (bs : List UInt8) :
    Written plain bs (triples bs) := by
  induction bs with
  | nil => exact .nil
  | cons b bs ih =>
    have hb := UInt8.toNat_lt b
    exact .triple (Hex.value?_digit (by omega)) (Hex.value?_digit (by omega)) ih

end Switchboard.Text.Percent
