import CqlClient.Fault

/-!
# Tokens of CQL

A reference lexer, which reads a text once, character by character: words, decimal numbers, names
between double quotes, strings between single quotes, and symbols. A quote inside of quotes is
written twice, so that only the next character tells whether a quote was the closing one. Whatever
else CQL knows, such as comments, is refused.

* `Lexer.advance_append`: two texts are read one after the other;
* `lex_append`, `lex_flatMap`: texts that stand apart have the tokens of each of them;
* `lex_quoted`, `lex_digits`: a text between quotes, whatever it is, and a number are one token.
-/

namespace CqlClient.Cql

inductive Quote where
  | name | string
  deriving DecidableEq

def Quote.mark : Quote → Char
  | name => '"'
  | string => '\''

inductive Token where
  | word (text : String)
  | number (value : Nat)
  /-- What stands between quotes, each quote inside of them taken once. -/
  | quoted (quote : Quote) (content : String)
  | symbol (c : Char)
  deriving DecidableEq

def blanks : List Char := [' ', '\t', '\n', '\r']

def symbols : List Char := ['(', ')', '[', ']', '\x7b', '\x7d', ',', ':', ';', '=']

def isWordChar (c : Char) : Bool := c.isAlphanum || c == '_'

/-- What has been read of the next token, in reverse. -/
inductive Lexer where
  | between
  | word (read : List Char)
  | number (value : Nat)
  | inside (quote : Quote) (read : List Char)
  /-- After a quote that is the closing one unless another one follows. -/
  | closing (quote : Quote) (read : List Char)

namespace Lexer

/-- The tokens that a character completes, and what has been read after it. -/
abbrev Step := Option (List Token × Lexer)

/-- A character between tokens. -/
def start (c : Char) : Step :=
  if blanks.contains c then some ([], between)
  else if symbols.contains c then some ([.symbol c], between)
  else if c.isDigit then some ([], number (c.toNat - '0'.toNat))
  else if c.isAlpha then some ([], word [c])
  else if c = Quote.name.mark then some ([], inside .name [])
  else if c = Quote.string.mark then some ([], inside .string [])
  else none

/-- A character behind the last one of some tokens. -/
def startAfter (tokens : List Token) (c : Char) : Step :=
  (start c).map fun next => (tokens ++ next.1, next.2)

def step : Lexer → Char → Step
  | between, c => start c
  | word read, c =>
    if isWordChar c then some ([], word (c :: read))
    else startAfter [.word (String.ofList read.reverse)] c
  | number value, c =>
    if c.isDigit then some ([], number (10 * value + (c.toNat - '0'.toNat)))
    else if isWordChar c then none
    else startAfter [.number value] c
  | inside quote read, c =>
    some ([], if c = quote.mark then closing quote read else inside quote (c :: read))
  | closing quote read, c =>
    if c = quote.mark then some ([], inside quote (c :: read))
    else startAfter [.quoted quote (String.ofList read.reverse)] c

/-- The token that the end of the text completes; quotes have to be closed by then. -/
def finish : Lexer → Option (List Token)
  | between => some []
  | word read => some [.word (String.ofList read.reverse)]
  | number value => some [.number value]
  | inside _ _ => none
  | closing quote read => some [.quoted quote (String.ofList read.reverse)]

def advance : Lexer → List Char → Step
  | l, [] => some ([], l)
  | l, c :: cs => do
    let next ← l.step c
    let last ← next.2.advance cs
    return (next.1 ++ last.1, last.2)

end Lexer

/-- The tokens of a text that consists of nothing else. -/
def lex (text : List Char) : Option (List Token) := do
  let last ← Lexer.between.advance text
  return last.1 ++ (← last.2.finish)

namespace Lexer

variable {l m n : Lexer} {ts us : List Token} {c : Char} {cs ds : List Char}

theorem advance_cons_eq_some : l.advance (c :: cs) = some (us, n) ↔
    ∃ first m rest, l.step c = some (first, m) ∧ m.advance cs = some (rest, n) ∧
      first ++ rest = us := by
  rw [advance]
  constructor
  · intro h
    obtain ⟨⟨first, m⟩, hfirst, h⟩ := Option.bind_eq_some_iff.mp h
    obtain ⟨⟨rest, n⟩, hrest, h⟩ := Option.bind_eq_some_iff.mp h
    cases h
    exact ⟨first, m, rest, hfirst, hrest, rfl⟩
  · rintro ⟨first, m, rest, hfirst, hrest, rfl⟩
    exact Option.bind_eq_some_iff.mpr ⟨_, hfirst, Option.bind_eq_some_iff.mpr ⟨_, hrest, rfl⟩⟩

theorem advance_cons (hc : l.step c = some ([], m)) (hcs : m.advance cs = some (us, n)) :
    l.advance (c :: cs) = some (us, n) :=
  advance_cons_eq_some.mpr ⟨_, _, _, hc, hcs, rfl⟩

/-- Two texts are read one after the other. -/
theorem advance_append (hcs : l.advance cs = some (ts, m)) (hds : m.advance ds = some (us, n)) :
    l.advance (cs ++ ds) = some (ts ++ us, n) := by
  induction cs generalizing l ts with
  | nil =>
    cases hcs
    exact hds
  | cons c cs ih =>
    obtain ⟨first, _, rest, hfirst, hrest, rfl⟩ := advance_cons_eq_some.mp hcs
    rw [List.append_assoc]
    exact advance_cons_eq_some.mpr ⟨_, _, _, hfirst, ih hrest, rfl⟩

/-! ## Within a token -/

theorem advance_digits (hcs : ∀ c ∈ cs, c.isDigit = true) (value : Nat) :
    (number value).advance cs = some ([], number (Nat.ofDigitChars 10 cs value)) := by
  induction cs generalizing value with
  | nil => rfl
  | cons c cs ih =>
    obtain ⟨hc, hcs⟩ := List.forall_mem_cons.mp hcs
    have hstep : (number value).step c = some ([], number (10 * value + (c.toNat - '0'.toNat))) :=
      if_pos hc
    rw [Nat.ofDigitChars_cons]
    exact advance_cons hstep (ih hcs _)

/-- A text with each quote in it written twice. -/
def doubled (quote : Quote) (cs : List Char) : List Char :=
  cs.flatMap fun c => if c = quote.mark then [quote.mark, quote.mark] else [c]

/-- However many quotes there are, none of them ends the text. -/
theorem advance_doubled (quote : Quote) (cs read : List Char) :
    (inside quote read).advance (doubled quote cs) =
      some ([], inside quote (cs.reverse ++ read)) := by
  induction cs generalizing read with
  | nil => rfl
  | cons c cs ih =>
    have hrest := ih (c :: read)
    rw [List.reverse_cons, List.append_assoc, List.singleton_append, doubled, List.flatMap_cons]
    by_cases hc : c = quote.mark
    · have hfirst : (inside quote read).step c = some ([], closing quote read) :=
        congrArg (fun next => some ([], next)) (if_pos hc)
      have hsecond : (closing quote read).step c = some ([], inside quote (c :: read)) := if_pos hc
      rw [if_pos hc]
      subst hc
      exact advance_cons hfirst (advance_cons hsecond hrest)
    · have hstep : (inside quote read).step c = some ([], inside quote (c :: read)) :=
        congrArg (fun next => some ([], next)) (if_neg hc)
      rw [if_neg hc]
      exact advance_cons hstep hrest

theorem doubled_eq_self {quote : Quote} (h : quote.mark ∉ cs) : doubled quote cs = cs := by
  induction cs with
  | nil => rfl
  | cons c cs ih =>
    rw [List.mem_cons, not_or] at h
    obtain ⟨hc, hcs⟩ := h
    rw [doubled, List.flatMap_cons, if_neg (Ne.symm hc)]
    exact congrArg (c :: ·) (ih hcs)

/-! ## Between tokens -/

/-- Blanks and symbols belong to no other token. -/
def isBreak (c : Char) : Bool := (blanks ++ symbols).contains c

theorem apart_of_isBreak (h : isBreak c = true) :
    isWordChar c = false ∧ c.isDigit = false ∧ ∀ quote : Quote, c ≠ quote.mark := by
  have hall : (blanks ++ symbols).all (fun c => isWordChar c == false && c.isDigit == false &&
      c != Quote.name.mark && c != Quote.string.mark) = true := by decide
  have hc := List.all_eq_true.mp hall c (List.contains_iff_mem.mp h)
  simp only [Bool.and_eq_true, beq_iff_eq, bne_iff_ne] at hc
  obtain ⟨⟨⟨hword, hdigit⟩, hname⟩, hstring⟩ := hc
  refine ⟨hword, hdigit, fun quote => ?_⟩
  cases quote with
  | name => exact hname
  | string => exact hstring

theorem start_of_isDigit (hc : c.isDigit = true) :
    start c = some ([], number (c.toNat - '0'.toNat)) := by
  have hbreak : isBreak c = false := by
    refine Bool.eq_false_iff.mpr fun h => ?_
    exact Bool.false_ne_true ((apart_of_isBreak h).2.1.symm.trans hc)
  rw [isBreak, List.contains_append, Bool.or_eq_false_iff] at hbreak
  rw [start, hbreak.1, hbreak.2, hc, if_neg Bool.false_ne_true, if_neg Bool.false_ne_true,
    if_pos rfl]

/-- After a token that ends there, or between tokens, such a character is read alike. -/
theorem step_of_finish (hl : l.finish = some ts) (hc : isBreak c = true) :
    l.step c = startAfter ts c := by
  obtain ⟨hword, hdigit, hquote⟩ := apart_of_isBreak hc
  cases l with
  | between =>
    cases hl
    exact Option.map_id'.symm
  | word read =>
    cases hl
    rw [step, hword, if_neg Bool.false_ne_true]
  | number value =>
    cases hl
    rw [step, hdigit, hword, if_neg Bool.false_ne_true, if_neg Bool.false_ne_true]
  | inside quote read => cases hl
  | closing quote read =>
    cases hl
    rw [step, if_neg (hquote quote)]

/-- The text begins with such a character, if it is not empty. -/
def StandsApart (cs : List Char) : Prop := cs.head?.all isBreak = true

theorem StandsApart.append (hcs : StandsApart cs) (hds : StandsApart ds) :
    StandsApart (cs ++ ds) := by
  cases cs with
  | nil => exact hds
  | cons c cs => exact hcs

theorem lex_eq_some : lex cs = some ts ↔
    ∃ given l held, between.advance cs = some (given, l) ∧ l.finish = some held ∧
      given ++ held = ts := by
  rw [lex]
  constructor
  · intro h
    obtain ⟨⟨given, l⟩, hgiven, h⟩ := Option.bind_eq_some_iff.mp h
    obtain ⟨held, hheld, h⟩ := Option.bind_eq_some_iff.mp h
    exact ⟨given, l, held, hgiven, hheld, Option.some.inj h⟩
  · rintro ⟨given, l, held, hgiven, hheld, rfl⟩
    exact Option.bind_eq_some_iff.mpr ⟨_, hgiven, Option.bind_eq_some_iff.mpr ⟨_, hheld, rfl⟩⟩

end Lexer

open Lexer

variable {ts us : List Token} {cs ds : List Char}

/-- A text that ends between tokens may be followed by any other. -/
theorem lex_append_of_between (hcs : between.advance cs = some (ts, between))
    (hds : lex ds = some us) : lex (cs ++ ds) = some (ts ++ us) := by
  obtain ⟨given, l, held, hgiven, hheld, rfl⟩ := lex_eq_some.mp hds
  rw [← List.append_assoc]
  exact lex_eq_some.mpr ⟨_, l, held, advance_append hcs hgiven, hheld, rfl⟩

theorem lex_append (hcs : lex cs = some ts) (hds : lex ds = some us) (hapart : StandsApart ds) :
    lex (cs ++ ds) = some (ts ++ us) := by
  obtain ⟨given, l, held, hgiven, hheld, rfl⟩ := lex_eq_some.mp hcs
  cases ds with
  | nil =>
    obtain rfl : [] = us := Option.some.inj hds
    rw [List.append_nil, List.append_nil]
    exact hcs
  | cons d ds =>
    obtain ⟨given', m, held', hgiven', hheld', rfl⟩ := lex_eq_some.mp hds
    obtain ⟨first, n, rest, hfirst, hrest, rfl⟩ := advance_cons_eq_some.mp hgiven'
    -- The token that is still held comes out before those of the second text.
    have hstep : l.step d = some (held ++ first, n) := by
      rw [step_of_finish hheld hapart, startAfter, show start d = some (first, n) from hfirst,
        Option.map_some]
    have hsecond : l.advance (d :: ds) = some (held ++ first ++ rest, m) :=
      advance_cons_eq_some.mpr ⟨_, n, rest, hstep, hrest, rfl⟩
    refine lex_eq_some.mpr ⟨_, m, held', advance_append hgiven hsecond, hheld', ?_⟩
    simp only [List.append_assoc]

/-- Texts in a row that each stand apart from what is before them. -/
theorem lex_flatMap {α : Type} {text : α → List Char} {tokens : α → List Token} {items : List α}
    (heach : ∀ item ∈ items, lex (text item) = some (tokens item) ∧ StandsApart (text item)) :
    lex (items.flatMap text) = some (items.flatMap tokens) ∧ StandsApart (items.flatMap text) := by
  induction items with
  | nil => exact ⟨rfl, rfl⟩
  | cons item items ih =>
    obtain ⟨hfirst, hothers⟩ := List.forall_mem_cons.mp heach
    obtain ⟨hrest, hapart⟩ := ih hothers
    rw [List.flatMap_cons, List.flatMap_cons]
    exact ⟨lex_append hfirst.1 hrest hapart, hfirst.2.append hapart⟩

/-! ## Single tokens -/

theorem lex_quoted (quote : Quote) (content : List Char) :
    lex (quote.mark :: (doubled quote content ++ [quote.mark])) =
      some [.quoted quote (String.ofList content)] := by
  have hopen : between.step quote.mark = some ([], inside quote []) := by cases quote <;> rfl
  have hclose : (inside quote content.reverse).advance [quote.mark] =
      some ([], closing quote content.reverse) :=
    advance_cons (congrArg (fun next => some ([], next)) (if_pos rfl)) rfl
  have hcontent := advance_doubled quote content []
  rw [List.append_nil] at hcontent
  refine lex_eq_some.mpr ⟨_, _, _, advance_cons hopen (advance_append hcontent hclose), rfl, ?_⟩
  rw [List.reverse_reverse]
  rfl

example : lex "'it''s'".toList = some [.quoted .string "it's"] := rfl

example : lex "'it's'".toList = none := rfl

theorem lex_digits {digits : List Char} (hne : digits ≠ [])
    (hdigits : ∀ c ∈ digits, c.isDigit = true) :
    lex digits = some [.number (Nat.ofDigitChars 10 digits 0)] := by
  cases digits with
  | nil => exact absurd rfl hne
  | cons c cs =>
    obtain ⟨hc, hcs⟩ := List.forall_mem_cons.mp hdigits
    have hstart : between.step c = some ([], number (c.toNat - '0'.toNat)) := start_of_isDigit hc
    refine lex_eq_some.mpr ⟨_, _, _, advance_cons hstart (advance_digits hcs _), rfl, ?_⟩
    rw [Nat.ofDigitChars_cons, Nat.mul_zero, Nat.zero_add]
    rfl

end CqlClient.Cql
