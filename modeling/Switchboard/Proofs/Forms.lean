import Switchboard.Proofs.Update

/-!
# Form-encoded parameters

A form writes each pair as its key, `=` and its value, with `&` between the pairs and any number of
them around. A letter or digit of ASCII may stand as it is, any byte may be written as `%` and two
hexadecimal digits, and a space as `+`. So neither `&` nor `=` occurs in what is written of a key or
a value, and cutting the text at these characters finds what was put together.

* `Params.pairs_of_form`: the pairs of a form are read back.
* `Params.entries_pushAll`: keys are entered once, in order of first arrival, with all their values.
* `Params.entries_read`: both together, for a whole text.
-/

namespace Switchboard

namespace Params

open Text

/-- A written key or value. -/
def IsComponent (s : String) (w : List Char) : Prop :=
  Percent.Written Percent.FormKept (Utf8.encode s.toList) w

/-- **The form-encoded texts of some pairs**: written keys and values with `=` between them, pairs
with one or more `&` between them, and any number of `&` at both ends. -/
inductive Form : List (String × String) → List Char → Prop
  | nil : Form [] []
  | separator {pairs : List (String × String)} {w : List Char} (rest : Form pairs w) :
    Form pairs ('&' :: w)
  | last {key value : String} {k v : List Char} (hk : IsComponent key k)
    (hv : IsComponent value v) : Form [(key, value)] (k ++ '=' :: v)
  | pair {key value : String} {k v : List Char} {pairs : List (String × String)} {w : List Char}
    (hk : IsComponent key k) (hv : IsComponent value v) (rest : Form pairs w) :
    Form ((key, value) :: pairs) ((k ++ '=' :: v) ++ '&' :: w)

variable {key value : String} {k v : List Char} {pairs : List (String × String)}

/-- No character that cuts a form occurs in a component. -/
theorem IsComponent.not_mem (h : IsComponent key k) : '&' ∉ k ∧ '=' ∉ k := by
  have hchars := Percent.Written.mem h
  constructor
  · intro hc
    rcases hchars _ hc with hc | hc | hc <;> exact absurd hc (by decide)
  · intro hc
    rcases hchars _ hc with hc | hc | hc <;> exact absurd hc (by decide)

theorem IsComponent.decode (h : IsComponent key k) :
    String.ofList (Percent.decodeComponent k) = key := by
  rw [Percent.decodeComponent_of_written h, String.ofList_toList]

/-- **A written pair is read back**: it is cut at its first `=`. -/
theorem readPair_append (hk : IsComponent key k) (hv : IsComponent value v) :
    readPair (k ++ '=' :: v) = (key, value) := by
  have hcut : cutFirst '=' (k ++ '=' :: v) = some (k, v) :=
    cutFirst_eq_some.2 ⟨rfl, hk.not_mem.2⟩
  rw [readPair, hcut, Option.getD_some]
  dsimp only
  rw [hk.decode, hv.decode]

theorem not_mem_pair (hk : IsComponent key k) (hv : IsComponent value v) :
    '&' ∉ k ++ '=' :: v := by
  intro hc
  rcases List.mem_append.1 hc with hc | hc
  · exact hk.not_mem.1 hc
  · rcases List.mem_cons.1 hc with hc | hc
    · cases hc
    · exact hv.not_mem.1 hc

/-- The pairs that are read from a text. -/
def pairsOf (w : List Char) : List (String × String) :=
  ((fields '&' w).filter fun s => !s.isEmpty).map readPair

/-- **The pairs of a form are read back**, in order. -/
theorem pairs_of_form {w : List Char} (h : Form pairs w) : pairsOf w = pairs := by
  induction h with
  | nil => rfl
  | separator _ ih =>
    rw [← ih, pairsOf, fields, if_pos rfl]
    rfl
  | last hk hv =>
    rw [pairsOf, fields_of_not_mem (not_mem_pair hk hv)]
    simp [readPair_append hk hv]
  | pair hk hv _ ih =>
    rw [← ih, pairsOf, fields_append_cons (not_mem_pair hk hv)]
    simp [readPair_append hk hv, pairsOf]

/-- Keys are entered in the order of their first arrival. -/
theorem keys_pushAll (pairs : List (String × String)) :
    (({} : Params).pushAll pairs).values.keys = (pairs.map Prod.fst).eraseDups := by
  induction pairs using List.reverseRecOn with
  | nil => rfl
  | append_singleton pairs e ih =>
    rw [pushAll_concat, push, Register.keys_put, List.map_append, List.eraseDups_append, ih]
    by_cases hin : e.1 ∈ pairs.map Prod.fst
    · have hold : e.1 ∈ (pairs.map Prod.fst).eraseDups := List.mem_eraseDups.2 hin
      rw [if_pos hold]
      simp [List.removeAll, hin]
    · have hnew : e.1 ∉ (pairs.map Prod.fst).eraseDups := fun h => hin (List.mem_eraseDups.1 h)
      have hone : [e.1].eraseDups = [e.1] := rfl
      rw [if_neg hnew]
      simp [List.removeAll, hin, hone]

/-- **Keys are entered once, with all their values**: keys in order of first arrival, values in
order of arrival. -/
theorem entries_pushAll (pairs : List (String × String)) :
    (({} : Params).pushAll pairs).values.entries =
      (pairs.map Prod.fst).eraseDups.map fun key => (key, given pairs key) := by
  rw [← keys_pushAll, Register.keys, List.map_map]
  have hentry : ∀ e ∈ (({} : Params).pushAll pairs).values.entries, (e.1, given pairs e.1) = e := by
    intro e he
    have hget : (({} : Params).pushAll pairs).get? e.1 = some e.2 :=
      Register.get?_eq_some_iff.2 he
    rw [get?_pushAll] at hget
    split at hget
    · cases hget
    · rw [Option.some.inj hget]
  exact (List.map_id _).symm.trans (List.map_congr_left fun e he => (hentry e he).symm)

/-- **Reading a form undoes its writing**: of the pairs that were written, the parameters hold the
distinct keys in order of first arrival, each with all of its values in order of arrival. -/
theorem entries_read {text : String} (form : Form pairs text.toList) :
    (Params.read text).values.entries =
      (pairs.map Prod.fst).eraseDups.map fun key => (key, given pairs key) := by
  have hread : Params.read text = ({} : Params).pushAll (pairsOf text.toList) := rfl
  rw [hread, pairs_of_form form, entries_pushAll]

/-- A key that is given twice, once with a space as `+` and once with all of it in triples, around a
key that is empty and has the delimiters as its value. -/
theorem entries_read_givenTwice :
    Form [("a b", "1"), ("", "=&"), ("a b", "é")]
        "&&a+b=1&=%3D%26&&%61%20%62=%c3%A9&".toList ∧
      (Params.read "&&a+b=1&=%3D%26&&%61%20%62=%c3%A9&").values.entries =
        [("a b", ["1", "é"]), ("", ["=&"])] := by
  have hplus : IsComponent "a b" ['a', '+', 'b'] :=
    .plain (.inl ⟨by decide, by decide⟩) (.plain (.inr ⟨rfl, by decide⟩)
      (.plain (.inl ⟨by decide, by decide⟩) .nil))
  have htriples : IsComponent "a b" ['%', '6', '1', '%', '2', '0', '%', '6', '2'] :=
    .triple (by decide) (by decide) (.triple (by decide) (by decide)
      (.triple (by decide) (by decide) .nil))
  have hone : IsComponent "1" ['1'] := .plain (.inl ⟨by decide, by decide⟩) .nil
  have hempty : IsComponent "" [] := .nil
  have hcutters : IsComponent "=&" ['%', '3', 'D', '%', '2', '6'] :=
    .triple (by decide) (by decide) (.triple (by decide) (by decide) .nil)
  have haccent : IsComponent "é" ['%', 'c', '3', '%', 'A', '9'] :=
    .triple (by decide) (by decide) (.triple (by decide) (by decide) .nil)
  have hform : Form [("a b", "1"), ("", "=&"), ("a b", "é")]
      "&&a+b=1&=%3D%26&&%61%20%62=%c3%A9&".toList :=
    .separator (.separator (.pair hplus hone (.pair hempty hcutters
      (.separator (.pair htriples haccent .nil)))))
  exact ⟨hform, (entries_read hform).trans (by decide +kernel)⟩

end Params

end Switchboard
