import Switchboard.Proofs.Line
import Switchboard.Request.TagPath
import Switchboard.Text.Range

/-!
# Reading graph queries

A reader of the language that graph queries are written in, as far as it goes here: some variables
are selected, subject to triple patterns of variables and names. The reader takes the longest token
at each place, as the language has it, and skips white space and comments. What it does not know it
refuses, and nothing may follow a query. It does not depend on how queries are written.

A name that is written between `<` and `>` is read as one token with the same text if each of its
characters may stand there. So a written query is read as the patterns that it was made of.

* `Query.walk_line`: the tokens of the line of a pattern.
* `Query.read_selectHubs`: what is read of a written query.
-/

namespace Switchboard

namespace Query

/-! ### Tokens -/

/-- The tokens of the language. -/
inductive Token
  | word (letters : List Char)
  | variable (name : List Char)
  | iri (name : List Char)
  | opening
  | closing
  | stop
  deriving DecidableEq

/-- White space between tokens. -/
def isSpace (c : Char) : Bool := c = ' ' || c = '\t' || c = '\r' || c = '\n'

/-- The characters that the name of a variable can start with. -/
def isNameStart (c : Char) : Bool :=
  c = '_' || c.isDigit || Text.isWithin
    [(0x41, 0x5A), (0x61, 0x7A), (0xC0, 0xD6), (0xD8, 0xF6), (0xF8, 0x2FF), (0x370, 0x37D),
      (0x37F, 0x1FFF), (0x200C, 0x200D), (0x2070, 0x218F), (0x2C00, 0x2FEF), (0x3001, 0xD7FF),
      (0xF900, 0xFDCF), (0xFDF0, 0xFFFD), (0x10000, 0xEFFFF)] c

/-- The characters that the name of a variable can go on with. -/
def isNameRest (c : Char) : Bool :=
  isNameStart c || Text.isWithin [(0xB7, 0xB7), (0x300, 0x36F), (0x203F, 0x2040)] c

/-- The characters that may stand between `<` and `>`. -/
def isIriChar (c : Char) : Bool :=
  0x20 < c.toNat && !"<>\"\x7b\x7d|^\x60\\".toList.contains c

/-- Where in a text the reader is: between tokens, in a comment, or in a token of which it has read
some characters. -/
inductive Place
  | between
  | comment
  | word (letters : List Char)
  | variable (name : List Char)
  | iri (name : List Char)
  deriving DecidableEq

/-- Reads a character between tokens: the token that it is, or the place that it leads to. -/
def enter (c : Char) : Option (List Token × Place) :=
  if isSpace c then some ([], .between)
  else if c = '#' then some ([], .comment)
  else if c = '?' || c = '$' then some ([], .variable [])
  else if c = '<' then some ([], .iri [])
  else if c = '\x7b' then some ([.opening], .between)
  else if c = '\x7d' then some ([.closing], .between)
  else if c = '.' then some ([.stop], .between)
  else if c.isAlpha then some ([], .word [c])
  else none

/-- Reads a character that ends a token. -/
def leave (token : Token) (c : Char) : Option (List Token × Place) :=
  (enter c).map fun r => (token :: r.1, r.2)

/-- Reads a character: the tokens that end with it, and the place after it. A token goes on as long
as it can. -/
def advance : Place → Char → Option (List Token × Place)
  | .between, c => enter c
  | .comment, c => some ([], if c = '\n' then .between else .comment)
  | .word letters, c =>
    if c.isAlpha then some ([], .word (letters ++ [c])) else leave (.word letters) c
  | .variable [], c => if isNameStart c then some ([], .variable [c]) else none
  | .variable name, c =>
    if isNameRest c then some ([], .variable (name ++ [c])) else leave (.variable name) c
  | .iri name, c =>
    if c = '>' then some ([.iri name], .between)
    else if isIriChar c then some ([], .iri (name ++ [c])) else none

/-- Reads a text from a place on: its tokens, and the place after it. -/
def walk : Place → List Char → Option (List Token × Place)
  | place, [] => some ([], place)
  | place, c :: s =>
    match advance place c with
    | some (tokens, next) => (walk next s).map fun r => (tokens ++ r.1, r.2)
    | none => none

/-- The token that the end of a text ends. -/
def finish : Place → Option (List Token)
  | .between => some []
  | .comment => some []
  | .word letters => some [.word letters]
  | .variable [] => none
  | .variable name => some [.variable name]
  | .iri _ => none

/-- The tokens of a text. -/
def tokens? (text : List Char) : Option (List Token) :=
  match walk .between text with
  | some (tokens, place) => (finish place).map (tokens ++ ·)
  | none => none

/-! ### Queries -/

/-- A term of a triple pattern. -/
inductive Term
  | variable (name : List Char)
  | iri (name : List Char)
  deriving DecidableEq

/-- A triple pattern. -/
structure Triple where
  subject : Term
  predicate : Term
  object : Term
  deriving DecidableEq

/-- The terms of a triple pattern. -/
def Triple.terms (t : Triple) : List Term := [t.subject, t.predicate, t.object]

/-- A query: the variables that are selected, and the triple patterns that they are subject to. -/
structure Select where
  selected : List (List Char)
  triples : List Triple
  deriving DecidableEq

/-- The term that a token is. -/
def Token.term? : Token → Option Term
  | .variable name => some (.variable name)
  | .iri name => some (.iri name)
  | _ => none

/-- The triple pattern of three tokens. -/
def triple? (s p o : Token) : Option Triple :=
  match s.term?, p.term?, o.term? with
  | some s, some p, some o => some ⟨s, p, o⟩
  | _, _, _ => none

/-- Reads the triple patterns of a group up to its end, which is that of the query. The last one
need not have a stop. -/
def readGroup : List Token → Option (List Triple)
  | [.closing] => some []
  | [s, p, o, .closing] => (triple? s p o).map ([·])
  | s :: p :: o :: .stop :: rest =>
    match triple? s p o, readGroup rest with
    | some t, some ts => some (t :: ts)
    | _, _ => none
  | _ => none

/-- Whether a word is a keyword, in whatever case. -/
def isKeyword (keyword : String) (letters : List Char) : Bool :=
  letters.map Char.toUpper = keyword.toList

/-- Reads the variables that are selected, and then the group. The word before the group may be
left out. -/
def readVariables (selected : List (List Char)) : List Token → Option Select
  | .variable name :: rest => readVariables (selected ++ [name]) rest
  | .word letters :: .opening :: rest =>
    if isKeyword "WHERE" letters && !selected.isEmpty then
      (readGroup rest).map fun triples => ⟨selected, triples⟩
    else none
  | .opening :: rest =>
    if selected.isEmpty then none else (readGroup rest).map fun triples => ⟨selected, triples⟩
  | _ => none

/-- Reads the tokens of a query. -/
def readSelect : List Token → Option Select
  | .word letters :: rest => if isKeyword "SELECT" letters then readVariables [] rest else none
  | _ => none

/-- Reads a query. -/
def read (text : List Char) : Option Select := (tokens? text).bind readSelect

/-! ### Tokens of what is written -/

section Walk

variable {p q r : Place} {s t : List Char} {ts us : List Token}

theorem walk_cons {c : Char} (h : advance p c = some (ts, q)) (h' : walk q s = some (us, r)) :
    walk p (c :: s) = some (ts ++ us, r) := by
  rw [walk, h]
  dsimp only
  rw [h']
  rfl

/-- **Texts that are read one after the other.** -/
theorem walk_append (h : walk p s = some (ts, q)) (h' : walk q t = some (us, r)) :
    walk p (s ++ t) = some (ts ++ us, r) := by
  induction s generalizing p ts with
  | nil =>
    cases h
    exact h'
  | cons c s ih =>
    rw [walk] at h
    split at h
    · rename_i vs next hc
      obtain ⟨⟨ws, q'⟩, hw, he⟩ := Option.map_eq_some_iff.1 h
      cases he
      rw [List.cons_append, List.append_assoc]
      exact walk_cons hc (ih hw)
    · cases h

theorem tokens?_of_walk (h : walk .between s = some (ts, .between)) : tokens? s = some ts := by
  rw [tokens?, h]
  exact congrArg some (List.append_nil ts)

theorem isNameRest_of_isDigit {c : Char} (h : c.isDigit = true) : isNameRest c = true := by
  simp [isNameRest, isNameStart, h]

/-- The name of a variable goes on. -/
theorem walk_name {name : List Char} (hn : name ≠ []) (hs : ∀ c ∈ s, isNameRest c = true) :
    walk (.variable name) s = some ([], .variable (name ++ s)) := by
  induction s generalizing name with
  | nil => rw [List.append_nil, walk]
  | cons c s ih =>
    have hc : advance (.variable name) c = some ([], .variable (name ++ [c])) := by
      cases name with
      | nil => exact absurd rfl hn
      | cons d name =>
        rw [advance, if_pos (hs c List.mem_cons_self)]
        exact nofun
    have hrest : walk (.variable (name ++ [c])) s = some ([], .variable (name ++ [c] ++ s)) :=
      ih (by simp) fun d hd => hs d (List.mem_cons_of_mem c hd)
    rw [List.append_assoc] at hrest
    exact walk_cons hc hrest

/-- A variable ends at a space. -/
theorem walk_variable {c : Char} (hc : isNameStart c = true) (hs : ∀ d ∈ s, isNameRest d = true) :
    walk .between ('?' :: c :: s ++ [' ']) = some ([.variable (c :: s)], .between) := by
  have hname : walk .between ('?' :: c :: s) = some ([], .variable (c :: s)) := by
    have hopen : advance .between '?' = some ([], .variable []) := rfl
    have hstart : advance (.variable []) c = some ([], .variable [c]) := by
      rw [advance, if_pos hc]
    exact walk_cons hopen (walk_cons hstart (walk_name (by simp) hs))
  exact walk_append hname rfl

/-- What may stand between `<` and `>` does not end there. -/
theorem ne_of_isIriChar {c : Char} (h : isIriChar c = true) : c ≠ '>' := by
  rintro rfl
  revert h
  decide

/-- A name goes on up to its end. -/
theorem walk_iri {name : List Char} (hs : ∀ c ∈ s, isIriChar c = true) :
    walk (.iri name) (s ++ ['>']) = some ([.iri (name ++ s)], .between) := by
  induction s generalizing name with
  | nil => rw [List.append_nil]; rfl
  | cons c s ih =>
    have hc := hs c List.mem_cons_self
    have hadvance : advance (.iri name) c = some ([], .iri (name ++ [c])) := by
      rw [advance, if_neg (ne_of_isIriChar hc), if_pos hc]
    have hrest : walk (.iri (name ++ [c])) (s ++ ['>']) =
        some ([.iri (name ++ [c] ++ s)], .between) :=
      ih fun d hd => hs d (List.mem_cons_of_mem c hd)
    rw [List.append_assoc] at hrest
    exact walk_cons hadvance hrest

end Walk

end Query

/-! ### Terms and patterns -/

open Query

/-- What a term is read as. -/
def QueryTerm.term : QueryTerm → Term
  | .node n => .variable ('s' :: Decimal.digits n)
  | .relation n => .variable ('t' :: Decimal.digits n)
  | .hub => .variable "hub".toList
  | .iri name => .iri name.toList

/-- Terms that differ are read as terms that differ. -/
theorem QueryTerm.term_injective : Function.Injective QueryTerm.term := by
  have hdigits : ∀ {m n : Nat}, Decimal.digits m = Decimal.digits n → m = n := fun {m n} h => by
    have hnatural := congrArg Decimal.natural? h
    rw [Decimal.natural?_digits, Decimal.natural?_digits] at hnatural
    exact Option.some.inj hnatural
  have hhub : ∀ {c s}, Term.variable (c :: s) = .variable "hub".toList → c = 'h' := fun {c s} h =>
    (List.cons.inj (Term.variable.inj h)).1
  intro t u h
  cases t with
  | node m => cases u with
    | node n => exact congrArg _ (hdigits (List.cons.inj (Term.variable.inj h)).2)
    | relation n => exact absurd (List.cons.inj (Term.variable.inj h)).1 (by decide)
    | hub => exact absurd (hhub h) (by decide)
    | iri name => cases h
  | relation m => cases u with
    | node n => exact absurd (List.cons.inj (Term.variable.inj h)).1 (by decide)
    | relation n => exact congrArg _ (hdigits (List.cons.inj (Term.variable.inj h)).2)
    | hub => exact absurd (hhub h) (by decide)
    | iri name => cases h
  | hub => cases u with
    | node n => exact absurd (hhub h.symm) (by decide)
    | relation n => exact absurd (hhub h.symm) (by decide)
    | hub => rfl
    | iri name => cases h
  | iri name => cases u with
    | iri other => exact congrArg _ (String.toList_inj.1 (Term.iri.inj h))
    | _ => cases h

/-- Whether a term can be written: a name may hold only what may stand between `<` and `>`. -/
def QueryTerm.IsPlain : QueryTerm → Prop
  | .iri name => ∀ c ∈ name.toList, isIriChar c = true
  | _ => True

/-- What a pattern is read as. -/
def QueryPattern.triple (p : QueryPattern) : Triple :=
  ⟨p.subject.term, p.predicate.term, p.object.term⟩

/-- The terms of a pattern. -/
def QueryPattern.terms (p : QueryPattern) : List QueryTerm := [p.subject, p.predicate, p.object]

/-- Whether a pattern can be written. -/
structure QueryPattern.IsPlain (p : QueryPattern) : Prop where
  subject : p.subject.IsPlain
  predicate : p.predicate.IsPlain
  object : p.object.IsPlain

namespace Query

/-- The token of a term. -/
def Term.token : Term → Token
  | .variable name => .variable name
  | .iri name => .iri name

/-- The tokens of a triple pattern. -/
def Triple.tokens (t : Triple) : List Token :=
  [t.subject.token, t.predicate.token, t.object.token, .stop]

theorem term?_token (t : Term) : t.token.term? = some t := by
  cases t <;> rfl

theorem triple?_tokens (t : Triple) :
    triple? t.subject.token t.predicate.token t.object.token = some t := by
  rw [triple?, term?_token, term?_token, term?_token]

/-- **A term is one token**, up to the space behind it. -/
theorem walk_term {t : QueryTerm} (ht : t.IsPlain) :
    walk .between (t.text ++ [' ']) = some ([t.term.token], .between) := by
  have hdigits : ∀ n, ∀ c ∈ Decimal.digits n, isNameRest c = true :=
    fun n c hc => isNameRest_of_isDigit (Decimal.isDigit_of_mem_digits hc)
  cases t with
  | node n => exact walk_variable (by decide) (hdigits n)
  | relation n => exact walk_variable (by decide) (hdigits n)
  | hub =>
    have hrest : ['u', 'b'].all isNameRest = true := by decide
    exact walk_variable (by decide) (List.all_eq_true.1 hrest)
  | iri name =>
    have hopen : walk .between ['<'] = some ([], .iri []) := rfl
    exact walk_append (walk_append hopen (walk_iri ht)) rfl

theorem line_eq (p : QueryPattern) : p.line = "      ".toList ++ ((p.subject.text ++ [' ']) ++
    ((p.predicate.text ++ [' ']) ++ ((p.object.text ++ [' ']) ++ ['.', '\n']))) := by
  -- The text at the start is kept closed, since only its tokens count.
  suffices h : ∀ indent, "      ".toList = indent → p.line = indent ++ ((p.subject.text ++ [' ']) ++
      ((p.predicate.text ++ [' ']) ++ ((p.object.text ++ [' ']) ++ ['.', '\n']))) from h _ rfl
  intro indent hindent
  have hline : p.line = indent ++ p.subject.text ++ ' ' :: p.predicate.text ++
      ' ' :: p.object.text ++ [' ', '.', '\n'] := by
    subst hindent
    rfl
  simpa using hline

/-- **The line of a pattern is its triple pattern**, and nothing else. -/
theorem walk_line {p : QueryPattern} (hp : p.IsPlain) :
    walk .between p.line = some (p.triple.tokens, .between) := by
  have hindent : walk .between "      ".toList = some ([], .between) := by decide +kernel
  have hstop : walk .between ['.', '\n'] = some ([.stop], .between) := by decide +kernel
  rw [line_eq]
  exact walk_append hindent (walk_append (walk_term hp.subject)
    (walk_append (walk_term hp.predicate) (walk_append (walk_term hp.object) hstop)))

/-- The lines of patterns are their triple patterns. -/
theorem walk_lines {ps : List QueryPattern} (hp : ∀ p ∈ ps, p.IsPlain) :
    walk .between (ps.flatMap QueryPattern.line) =
      some ((ps.map QueryPattern.triple).flatMap Triple.tokens, .between) := by
  induction ps with
  | nil => rfl
  | cons p ps ih =>
    exact walk_append (walk_line (hp p List.mem_cons_self))
      (ih fun q hq => hp q (List.mem_cons_of_mem p hq))

/-- **The tokens of a query** for the hubs that satisfy all patterns. -/
theorem tokens?_selectHubs {ps : List QueryPattern} (hp : ∀ p ∈ ps, p.IsPlain) :
    tokens? (selectHubs ps) = some ([.word "SELECT".toList, .variable "hub".toList,
      .word "WHERE".toList, .opening] ++ (ps.map QueryPattern.triple).flatMap Triple.tokens ++
        [.closing]) := by
  have hhead : walk .between "SELECT ?hub\nWHERE \x7b\n".toList = some ([.word "SELECT".toList,
      .variable "hub".toList, .word "WHERE".toList, .opening], .between) := by decide +kernel
  have htail : walk .between "\x7d\n".toList = some ([.closing], .between) := by decide +kernel
  exact tokens?_of_walk (walk_append (walk_append hhead (walk_lines hp)) htail)

/-! ### What is read -/

/-- A group is read as the triple patterns that its tokens are made of. -/
theorem readGroup_tokens (ts : List Triple) :
    readGroup (ts.flatMap Triple.tokens ++ [.closing]) = some ts := by
  induction ts with
  | nil => rfl
  | cons t ts ih =>
    show readGroup (t.subject.token :: t.predicate.token :: t.object.token :: .stop ::
      (ts.flatMap Triple.tokens ++ [.closing])) = _
    rw [readGroup, triple?_tokens, ih]

/-- **A written query is read as what it was made of**: the hubs are selected, subject to exactly
the patterns, in their order. -/
theorem read_selectHubs {ps : List QueryPattern} (hp : ∀ p ∈ ps, p.IsPlain) :
    read (selectHubs ps) = some ⟨["hub".toList], ps.map QueryPattern.triple⟩ := by
  have hselect : isKeyword "SELECT" "SELECT".toList = true := by decide
  have hwhere : isKeyword "WHERE" "WHERE".toList = true := by decide
  rw [read, tokens?_selectHubs hp, Option.bind_some]
  show readSelect (.word "SELECT".toList :: .variable "hub".toList :: .word "WHERE".toList ::
    .opening :: ((ps.map QueryPattern.triple).flatMap Triple.tokens ++ [.closing])) = _
  rw [readSelect, if_pos hselect, readVariables, readVariables, hwhere, readGroup_tokens]
  rfl

end Query

end Switchboard
