/-!
# UTF-8

Decoding of bytes to characters, strict and lenient. The decoder reads one byte at a time and
remembers which continuation bytes the current sequence still needs. A byte that cannot
continue a sequence ends it as malformed and is then read afresh, so a malformed stretch is cut
into its longest beginnings of well-formed sequences, and the lenient reading puts one
replacement character for each.

* `decode?_encode`: a written text is read back.
* `pieces_append`: bytes that do not start inside a sequence are decoded by themselves.
-/

namespace Switchboard.Text.Utf8

/-- The bytes of a text. -/
def encode (s : List Char) : List UInt8 := s.flatMap String.utf8EncodeChar

/-- An unfinished sequence: the bits read so far, how many bytes are to come, and the bounds of
the next one. -/
structure Pending where
  bits : Nat
  more : Nat
  low : Nat
  high : Nat

/-- What one byte at the start of a sequence gives: a character, a malformed byte, or an
unfinished sequence. -/
inductive Start
  | char (c : Char)
  | malformed
  | pending (p : Pending)

/-- The role of a byte at the start of a sequence. The bounds of the second byte leave out
overlong forms, surrogates and values above the last code point. -/
def start (b : UInt8) : Start :=
  let n := b.toNat
  if n < 0x80 then .char (Char.ofNat n)
  else if n < 0xC2 then .malformed
  else if n < 0xE0 then .pending ⟨n - 0xC0, 1, 0x80, 0xBF⟩
  else if n = 0xE0 then .pending ⟨0, 2, 0xA0, 0xBF⟩
  else if n = 0xED then .pending ⟨13, 2, 0x80, 0x9F⟩
  else if n < 0xF0 then .pending ⟨n - 0xE0, 2, 0x80, 0xBF⟩
  else if n = 0xF0 then .pending ⟨0, 3, 0x90, 0xBF⟩
  else if n < 0xF4 then .pending ⟨n - 0xF0, 3, 0x80, 0xBF⟩
  else if n = 0xF4 then .pending ⟨4, 3, 0x80, 0x8F⟩
  else .malformed

/-- The characters of a byte sequence, `none` for each malformed stretch. `pending` is the
sequence that the bytes before have left unfinished. -/
def decodeFrom : Option Pending → List UInt8 → List (Option Char)
  | none, [] => []
  | some _, [] => [none]
  | none, b :: bs =>
    match start b with
    | .char c => some c :: decodeFrom none bs
    | .malformed => none :: decodeFrom none bs
    | .pending p => decodeFrom (some p) bs
  | some p, b :: bs =>
    if p.low ≤ b.toNat ∧ b.toNat ≤ p.high then
      let bits := 64 * p.bits + (b.toNat - 0x80)
      if p.more = 1 then some (Char.ofNat bits) :: decodeFrom none bs
      else decodeFrom (some ⟨bits, p.more - 1, 0x80, 0xBF⟩) bs
    else
      match start b with
      | .char c => none :: some c :: decodeFrom none bs
      | .malformed => none :: none :: decodeFrom none bs
      | .pending q => none :: decodeFrom (some q) bs

/-- The characters of a byte sequence, `none` for each malformed stretch. -/
def pieces (bs : List UInt8) : List (Option Char) := decodeFrom none bs

/-- The text of well-formed bytes. -/
def decode? (bs : List UInt8) : Option (List Char) := (pieces bs).mapM id

/-- The text of any bytes, with U+FFFD for each malformed stretch. -/
def decodeLenient (bs : List UInt8) : List Char := (pieces bs).map (·.getD '\uFFFD')

/-! ### Reading what was written -/

theorem toNat_byte {n : Nat} (h : n < 256) : (UInt8.ofNat n).toNat = n :=
  UInt8.toNat_ofNat_of_lt' h

section Read

variable {bits more low high n : Nat}

/-- The last byte that a sequence needs. -/
theorem decodeFrom_last (hl : low ≤ n) (hh : n ≤ high) (hn : n < 256) (bs : List UInt8) :
    decodeFrom (some ⟨bits, 1, low, high⟩) (UInt8.ofNat n :: bs) =
      some (Char.ofNat (64 * bits + (n - 0x80))) :: decodeFrom none bs := by
  rw [decodeFrom, toNat_byte hn, if_pos ⟨hl, hh⟩]
  rfl

/-- A byte that a sequence needs and that is not the last one. -/
theorem decodeFrom_more (hl : low ≤ n) (hh : n ≤ high) (hn : n < 256) (bs : List UInt8) :
    decodeFrom (some ⟨bits, more + 2, low, high⟩) (UInt8.ofNat n :: bs) =
      decodeFrom (some ⟨64 * bits + (n - 0x80), more + 1, 0x80, 0xBF⟩) bs := by
  rw [decodeFrom, toNat_byte hn, if_pos ⟨hl, hh⟩]
  exact if_neg (Nat.succ_ne_succ_iff.2 (Nat.succ_ne_zero more))

/-- A byte that starts a sequence. -/
theorem decodeFrom_start {p : Pending}
    (h : start (UInt8.ofNat n) = .pending p) (bs : List UInt8) :
    decodeFrom none (UInt8.ofNat n :: bs) = decodeFrom (some p) bs := by
  rw [decodeFrom, h]

/-- The first of three bytes, and the bounds of the second. -/
theorem start_three {v : Nat} (hl : 0x7ff < v) (hh : v ≤ 0xffff)
    (hv : v < 0xD800 ∨ 0xDFFF < v) :
    ∃ low high, start (UInt8.ofNat (v / 4096 % 0x10 + 0xe0)) = .pending ⟨v / 4096, 2, low, high⟩ ∧
      low ≤ v / 64 % 0x40 + 0x80 ∧ v / 64 % 0x40 + 0x80 ≤ high := by
  have he : v / 4096 % 0x10 + 0xe0 = v / 4096 + 0xe0 := by omega
  rw [he, start, toNat_byte (by omega), if_neg (by omega), if_neg (by omega), if_neg (by omega)]
  by_cases h0 : v / 4096 = 0
  · rw [if_pos (by omega), h0]
    exact ⟨_, _, rfl, by omega, by omega⟩
  · rw [if_neg (by omega)]
    by_cases h13 : v / 4096 = 13
    · rw [if_pos (by omega), h13]
      exact ⟨_, _, rfl, by omega, by omega⟩
    · rw [if_neg (by omega), if_pos (by omega), Nat.add_sub_cancel]
      exact ⟨_, _, rfl, by omega, by omega⟩

/-- The first of four bytes, and the bounds of the second. -/
theorem start_four {v : Nat} (hl : 0xffff < v) (hh : v < 0x110000) :
    ∃ low high, start (UInt8.ofNat (v / 262144 % 0x08 + 0xf0)) =
        .pending ⟨v / 262144, 3, low, high⟩ ∧
      low ≤ v / 4096 % 0x40 + 0x80 ∧ v / 4096 % 0x40 + 0x80 ≤ high := by
  have he : v / 262144 % 0x08 + 0xf0 = v / 262144 + 0xf0 := by omega
  rw [he, start, toNat_byte (by omega), if_neg (by omega), if_neg (by omega), if_neg (by omega),
    if_neg (by omega), if_neg (by omega), if_neg (by omega)]
  by_cases h0 : v / 262144 = 0
  · rw [if_pos (by omega), h0]
    exact ⟨_, _, rfl, by omega, by omega⟩
  · rw [if_neg (by omega)]
    by_cases h4 : v / 262144 = 4
    · rw [if_neg (by omega), if_pos (by omega), h4]
      exact ⟨_, _, rfl, by omega, by omega⟩
    · rw [if_pos (by omega), Nat.add_sub_cancel]
      exact ⟨_, _, rfl, by omega, by omega⟩

/-- **A written character is read back**, whatever follows. -/
theorem decodeFrom_char (c : Char) (bs : List UInt8) :
    decodeFrom none (String.utf8EncodeChar c ++ bs) = some c :: decodeFrom none bs := by
  have hc : Char.ofNat c.val.toNat = c := Char.ofNat_toNat c
  have hv : c.val.toNat < 0xD800 ∨ 0xDFFF < c.val.toNat ∧ c.val.toNat < 0x110000 := c.valid
  unfold String.utf8EncodeChar
  generalize c.val.toNat = v at hc hv
  dsimp only
  split
  · rename_i h1
    have hs : start (UInt8.ofNat v) = .char (Char.ofNat v) := by
      rw [start, toNat_byte (by omega), if_pos (by omega)]
    rw [List.singleton_append, decodeFrom, hs, hc]
  · rename_i h1
    split
    · rename_i h2
      have hs : start (UInt8.ofNat (v / 64 % 0x20 + 0xc0)) = .pending ⟨v / 64, 1, 0x80, 0xBF⟩ := by
        rw [start, toNat_byte (by omega), if_neg (by omega), if_neg (by omega), if_pos (by omega)]
        have he : v / 64 % 0x20 + 0xc0 - 0xC0 = v / 64 := by omega
        rw [he]
      rw [List.cons_append, List.singleton_append, decodeFrom_start hs,
        decodeFrom_last (by omega) (by omega) (by omega)]
      have hb : 64 * (v / 64) + (v % 0x40 + 0x80 - 0x80) = v := by omega
      rw [hb, hc]
    · rename_i h2
      split
      · rename_i h3
        obtain ⟨low, high, hs, hl, hh⟩ := start_three (v := v) (by omega) (by omega) (by omega)
        rw [List.cons_append, List.cons_append, List.singleton_append, decodeFrom_start hs,
          decodeFrom_more hl hh (by omega), decodeFrom_last (by omega) (by omega) (by omega)]
        have hb : 64 * (64 * (v / 4096) + (v / 64 % 0x40 + 0x80 - 0x80)) +
            (v % 0x40 + 0x80 - 0x80) = v := by omega
        rw [hb, hc]
      · rename_i h3
        obtain ⟨low, high, hs, hl, hh⟩ := start_four (v := v) (by omega) (by omega)
        rw [List.cons_append, List.cons_append, List.cons_append, List.singleton_append,
          decodeFrom_start hs, decodeFrom_more hl hh (by omega),
          decodeFrom_more (by omega) (by omega) (by omega),
          decodeFrom_last (by omega) (by omega) (by omega)]
        have hb : 64 * (64 * (64 * (v / 262144) + (v / 4096 % 0x40 + 0x80 - 0x80)) +
            (v / 64 % 0x40 + 0x80 - 0x80)) + (v % 0x40 + 0x80 - 0x80) = v := by omega
        rw [hb, hc]

theorem pieces_encode (s : List Char) : pieces (encode s) = s.map some := by
  unfold pieces
  induction s with
  | nil => rfl
  | cons c s ih =>
    show decodeFrom none (String.utf8EncodeChar c ++ encode s) = _
    rw [decodeFrom_char, ih]
    rfl

/-- **A written text is read back.** -/
@[simp] theorem decode?_encode (s : List Char) : decode? (encode s) = some s := by
  rw [decode?, pieces_encode]
  induction s with
  | nil => rfl
  | cons c s ih =>
    rw [List.map_cons, List.mapM_cons, ih]
    rfl

@[simp] theorem encode_append (s t : List Char) : encode (s ++ t) = encode s ++ encode t :=
  List.flatMap_append

/-- A byte below 0x80 stands for the character of that code only. -/
theorem eq_of_mem_utf8EncodeChar {c : Char} {b : UInt8} (hb : b ∈ String.utf8EncodeChar c)
    (h : b.toNat < 0x80) : c.toNat = b.toNat ∧ String.utf8EncodeChar c = [b] := by
  have hv : c.val.toNat < 0x110000 := by
    have hv : c.val.toNat < 0xD800 ∨ 0xDFFF < c.val.toNat ∧ c.val.toNat < 0x110000 := c.valid
    omega
  show c.val.toNat = _ ∧ _
  unfold String.utf8EncodeChar at hb ⊢
  generalize c.val.toNat = v at hb hv ⊢
  dsimp only at hb ⊢
  split at hb
  · rename_i h1
    rw [if_pos h1]
    rw [List.mem_singleton.1 hb, toNat_byte (by omega)]
    exact ⟨rfl, rfl⟩
  · exfalso
    split at hb
    · simp only [List.mem_cons, List.not_mem_nil, or_false] at hb
      rcases hb with rfl | rfl <;> rw [toNat_byte (by omega)] at h <;> omega
    · split at hb
      · simp only [List.mem_cons, List.not_mem_nil, or_false] at hb
        rcases hb with rfl | rfl | rfl <;> rw [toNat_byte (by omega)] at h <;> omega
      · simp only [List.mem_cons, List.not_mem_nil, or_false] at hb
        rcases hb with rfl | rfl | rfl | rfl <;> rw [toNat_byte (by omega)] at h <;> omega

end Read

/-! ### Malformed bytes -/

/-- A byte that can stand inside a sequence, but not at its start. -/
def IsContinuation (b : UInt8) : Prop := 0x80 ≤ b.toNat ∧ b.toNat ≤ 0xBF

/-- An unfinished sequence goes on with a continuation byte only. -/
def Pending.Bounded (p : Pending) : Prop := 0x80 ≤ p.low ∧ p.high ≤ 0xBF

theorem bounded_of_start {b : UInt8} {p : Pending} (h : start b = .pending p) : p.Bounded := by
  unfold start at h
  grind [Pending.Bounded]

/-- A byte that does not belong to the unfinished sequence ends it and is read afresh. -/
theorem decodeFrom_broken {p : Pending} {b : UInt8} (h : ¬ (p.low ≤ b.toNat ∧ b.toNat ≤ p.high))
    (bs : List UInt8) : decodeFrom (some p) (b :: bs) = none :: decodeFrom none (b :: bs) := by
  rw [decodeFrom, decodeFrom, if_neg h]
  cases start b <;> rfl

theorem decodeFrom_append {u v : List UInt8} (hv : ∀ b, v.head? = some b → ¬ IsContinuation b)
    {p : Option Pending} (hp : ∀ q, p = some q → q.Bounded) :
    decodeFrom p (u ++ v) = decodeFrom p u ++ decodeFrom none v := by
  induction u generalizing p with
  | nil =>
    cases p with
    | none => rfl
    | some q =>
      have hq : q.Bounded := hp q rfl
      cases v with
      | nil => rfl
      | cons b v =>
        have hb : ¬ IsContinuation b := hv b rfl
        have hout : ¬ (q.low ≤ b.toNat ∧ b.toNat ≤ q.high) := by
          intro hin
          exact hb ⟨Nat.le_trans hq.1 hin.1, Nat.le_trans hin.2 hq.2⟩
        rw [List.nil_append, decodeFrom_broken hout]
        rfl
  | cons b u ih =>
    have hnone : ∀ q, (none : Option Pending) = some q → q.Bounded := fun q h => nomatch h
    have hfresh : decodeFrom none (b :: (u ++ v)) =
        decodeFrom none (b :: u) ++ decodeFrom none v := by
      rw [decodeFrom, decodeFrom]
      cases hs : start b with
      | char c => simp only [ih hnone, List.cons_append]
      | malformed => simp only [ih hnone, List.cons_append]
      | pending q =>
        refine ih fun r hr => ?_
        obtain rfl := Option.some.inj hr
        exact bounded_of_start hs
    rw [List.cons_append]
    cases p with
    | none => exact hfresh
    | some q =>
      by_cases hin : q.low ≤ b.toNat ∧ b.toNat ≤ q.high
      · rw [decodeFrom, decodeFrom, if_pos hin, if_pos hin]
        by_cases hmore : q.more = 1
        · simp only [if_pos hmore, ih hnone, List.cons_append]
        · simp only [if_neg hmore]
          refine ih fun r hr => ?_
          obtain rfl := Option.some.inj hr
          exact ⟨Nat.le_refl _, Nat.le_refl _⟩
      · rw [decodeFrom_broken hin, decodeFrom_broken hin, hfresh, List.cons_append]

/-- **Bytes that do not start inside a sequence are decoded by themselves.** -/
theorem pieces_append {u v : List UInt8} (hv : ∀ b, v.head? = some b → ¬ IsContinuation b) :
    pieces (u ++ v) = pieces u ++ pieces v :=
  decodeFrom_append hv fun _ h => nomatch h

theorem decode?_append {u v : List UInt8} (hv : ∀ b, v.head? = some b → ¬ IsContinuation b) :
    decode? (u ++ v) = (decode? u).bind fun s => (decode? v).map (s ++ ·) := by
  unfold decode?
  rw [pieces_append hv, List.mapM_append]
  cases (pieces u).mapM id <;> cases (pieces v).mapM id <;> rfl

theorem decode?_cons_of_lt {b : UInt8} (h : b.toNat < 0x80) (bs : List UInt8) :
    decode? (b :: bs) = (decode? bs).map (Char.ofNat b.toNat :: ·) := by
  have hs : start b = .char (Char.ofNat b.toNat) := by
    unfold start
    simp only [if_pos h]
  have hp : pieces (b :: bs) = some (Char.ofNat b.toNat) :: pieces bs := by
    rw [pieces, decodeFrom, hs]
    rfl
  unfold decode?
  rw [hp, List.mapM_cons]
  cases (pieces bs).mapM id <;> rfl

/-- No character starts with a continuation byte. -/
theorem head?_utf8EncodeChar {c : Char} {b : UInt8}
    (h : (String.utf8EncodeChar c).head? = some b) : ¬ IsContinuation b := by
  have hv : c.val.toNat < 0x110000 := by
    have hv : c.val.toNat < 0xD800 ∨ 0xDFFF < c.val.toNat ∧ c.val.toNat < 0x110000 := c.valid
    omega
  unfold String.utf8EncodeChar at h
  generalize c.val.toNat = v at h hv
  unfold IsContinuation
  dsimp only at h
  split at h
  · cases h
    rw [toNat_byte (by omega)]
    omega
  · split at h
    · cases h
      rw [toNat_byte (by omega)]
      omega
    · split at h
      · cases h
        rw [toNat_byte (by omega)]
        omega
      · cases h
        rw [toNat_byte (by omega)]
        omega

/-- A text does not start inside a sequence. -/
theorem head?_encode {s : List Char} {b : UInt8} (h : (encode s).head? = some b) :
    ¬ IsContinuation b := by
  cases s with
  | nil => cases h
  | cons c s =>
    have he : encode (c :: s) = String.utf8EncodeChar c ++ encode s := rfl
    obtain ⟨d, ds, hd⟩ := List.exists_cons_of_ne_nil (String.utf8EncodeChar_ne_nil (c := c))
    rw [he, hd, List.cons_append, List.head?_cons] at h
    refine head?_utf8EncodeChar (c := c) ?_
    rw [hd, List.head?_cons]
    exact h

/-- A character of ASCII is the byte of its code. -/
theorem utf8EncodeChar_of_lt {c : Char} (h : c.toNat < 0x80) :
    String.utf8EncodeChar c = [UInt8.ofNat c.toNat] := by
  unfold String.utf8EncodeChar
  have hv : c.val.toNat ≤ 127 := Nat.le_of_lt_succ h
  simp only [if_pos hv]
  rfl

end Switchboard.Text.Utf8
