import CqlClient.Keyspace
import CqlClient.Proofs.Keyspace.Lexer

/-!
# Statements on keyspaces

A keyspace is used by its name between double quotes, if the name is plain. The text that creates a
keyspace is read by the lexer as one statement whose tokens are those of the keyspace, whatever the
datacenters are called; and the tokens say which keyspace it is.

* `Keyspace.useStatement_of_isPlainName`, `Keyspace.useStatement_of_not_isPlainName`: the statement
  that makes a keyspace the current one;
* `NewKeyspace.statement_of_isPlainName`, `NewKeyspace.statement_of_not_isPlainName`: there is a
  statement exactly for plain names, and its tokens are `NewKeyspace.tokens`;
* `NewKeyspace.tokens_injective`, `NewKeyspace.eq_of_statement`: no two keyspaces share a statement.
-/

namespace CqlClient

open Cql
open Cql.Lexer (between StandsApart)

/-! ## Names -/

namespace Keyspace

/-- One to 48 letters, digits and underscores. -/
structure IsPlainName (name : String) : Prop where
  nonempty : 1 ≤ name.length
  short : name.length ≤ 48
  plain : ∀ c ∈ name.toList, 'a' ≤ c ∧ c ≤ 'z' ∨ 'A' ≤ c ∧ c ≤ 'Z' ∨ '0' ≤ c ∧ c ≤ '9' ∨ c = '_'

theorem isNameChar_iff {c : Char} : isNameChar c = true ↔
    'a' ≤ c ∧ c ≤ 'z' ∨ 'A' ≤ c ∧ c ≤ 'Z' ∨ '0' ≤ c ∧ c ≤ '9' ∨ c = '_' := by
  have hclass : isNameChar c = (decide (c.val ≥ 'A'.val ∧ c.val ≤ 'Z'.val) ||
      (decide (c.val ≥ 'a'.val) && decide (c.val ≤ 'z'.val)) ||
      (decide (c.val ≥ '0'.val) && decide (c.val ≤ '9'.val)) || c == '_') := rfl
  simp only [hclass, Bool.or_eq_true, Bool.and_eq_true, decide_eq_true_eq, beq_iff_eq, ge_iff_le,
    Char.le_def]
  rw [or_assoc, or_assoc, or_left_comm]

theorem isName_iff {name : String} : isName name = true ↔ IsPlainName name := by
  have hempty : name.isEmpty = false ↔ 1 ≤ name.length := by
    rw [← Bool.not_eq_true, String.isEmpty_iff, ← String.length_eq_zero_iff]
    exact Nat.pos_iff_ne_zero.symm
  simp only [isName, Bool.and_eq_true, Bool.not_eq_true', decide_eq_true_eq, List.all_eq_true,
    isNameChar_iff, hempty]
  constructor
  · rintro ⟨⟨hlower, hupper⟩, hplain⟩
    exact ⟨hlower, hupper, hplain⟩
  · rintro ⟨hlower, hupper, hplain⟩
    exact ⟨⟨hlower, hupper⟩, hplain⟩

/-- A plain name stands between double quotes as it is. -/
theorem quoted_of_isPlainName {name : String} (h : IsPlainName name) :
    quoted name = .ok ("\"" ++ name ++ "\"") := if_pos (isName_iff.mpr h)

theorem quoted_of_not_isPlainName {name : String} (h : ¬ IsPlainName name) :
    quoted name = .error ⟨name⟩ := if_neg fun hname => h (isName_iff.mp hname)

theorem useStatement_of_isPlainName {name : String} (h : IsPlainName name) :
    useStatement name = .ok ("USE \"" ++ name ++ "\"") := by
  have htext : "USE " ++ ("\"" ++ name ++ "\"") = "USE \"" ++ name ++ "\"" := by
    rw [← String.append_assoc, ← String.append_assoc]
    rfl
  rw [useStatement, quoted_of_isPlainName h, ← htext]
  rfl

theorem useStatement_of_not_isPlainName {name : String} (h : ¬ IsPlainName name) :
    useStatement name = .error ⟨name⟩ := by
  rw [useStatement, quoted_of_not_isPlainName h]
  rfl

/-- A plain name needs no escaping. -/
theorem IsPlainName.lex_quoted {name : String} (h : IsPlainName name) :
    lex ("\"" ++ name ++ "\"").toList = some [.quoted .name name] := by
  have hmark : Quote.name.mark ∉ name.toList := by
    intro hmem
    have hmark := isNameChar_iff.mpr (h.plain _ hmem)
    revert hmark
    decide
  have hlex := Cql.lex_quoted .name name.toList
  rw [Lexer.doubled_eq_self hmark, String.ofList_toList] at hlex
  rw [String.toList_append, String.toList_append]
  exact hlex

end Keyspace

/-! ## Maps -/

namespace Replication

/-- Whatever is in the text, it is read as one string, and as that text. -/
theorem lex_quoteText (s : String) : lex (quoteText s).toList = some [.quoted .string s] := by
  have h := lex_quoted .string s.toList
  rw [String.ofList_toList] at h
  rw [quoteText, String.toList_ofList]
  exact h

theorem lex_number (n : Nat) : lex (toString n).toList = some [.number n] := by
  have h := lex_digits (Nat.toDigits_ne_nil (b := 10) (n := n)) fun c =>
    Nat.isDigit_of_mem_toDigits (by decide) (by decide)
  rw [Nat.ofDigitChars_toDigits (by decide) (by decide)] at h
  rw [Nat.toString_eq_repr, Nat.toList_repr]
  exact h

def entryTokens (key : String) (value : Token) : List Token :=
  [.quoted .string key, .symbol ':', value]

theorem lex_entry (key : String) {value : String} {token : Token}
    (hvalue : lex value.toList = some [token]) :
    lex (entry key value).toList = some (entryTokens key token) := by
  have hcolon : between.advance ": ".toList = some ([.symbol ':'], between) := rfl
  have hrest := lex_append_of_between hcolon hvalue
  rw [entry, String.toList_append, String.toList_append, List.append_assoc]
  exact lex_append (lex_quoteText key) hrest rfl

theorem toList_intercalate_cons (first : String) (others : List String) :
    (", ".intercalate (first :: others)).toList =
      first.toList ++ others.flatMap fun other => ", ".toList ++ other.toList := by
  rw [String.toList_intercalate]
  induction others generalizing first with
  | nil => rw [List.map_singleton, List.intercalate_singleton, List.flatMap_nil, List.append_nil]
  | cons other others ih =>
    rw [List.map_cons, List.map_cons, List.intercalate_cons_cons, ← List.map_cons, ih,
      List.flatMap_cons, List.append_assoc, List.append_assoc]

/-- The class of a strategy. -/
def strategy : Replication → String
  | simple _ => "SimpleStrategy"
  | topology _ => "NetworkTopologyStrategy"

/-- What the map holds besides the class. -/
def factors : Replication → List (String × UInt32)
  | simple factor => [("replication_factor", factor)]
  | topology datacenters => datacenters

theorem text_eq (r : Replication) : r.text =
    "\x7b" ++ ", ".intercalate (entry "class" (quoteText r.strategy) ::
      r.factors.map fun dc => entry dc.1 (toString dc.2.toNat)) ++ "\x7d" := by
  cases r with
  | simple factor => rfl
  | topology datacenters => rfl

def furtherTokens (dc : String × UInt32) : List Token :=
  .symbol ',' :: entryTokens dc.1 (.number dc.2.toNat)

/-- A map of the class and of the factors. -/
def tokens (r : Replication) : List Token :=
  .symbol '\x7b' :: (entryTokens "class" (.quoted .string r.strategy) ++
    (r.factors.flatMap furtherTokens ++ [.symbol '\x7d']))

theorem lex_text (r : Replication) : lex r.text.toList = some r.tokens := by
  have hopen : between.advance "\x7b".toList = some ([.symbol '\x7b'], between) := rfl
  have hcomma : between.advance ", ".toList = some ([.symbol ','], between) := rfl
  have hclose : lex "\x7d".toList = some [.symbol '\x7d'] := rfl
  have hclass := lex_entry "class" (lex_quoteText r.strategy)
  have hfactors : ∀ dc ∈ r.factors,
      lex (", ".toList ++ (entry dc.1 (toString dc.2.toNat)).toList) = some (furtherTokens dc) ∧
        StandsApart (", ".toList ++ (entry dc.1 (toString dc.2.toNat)).toList) :=
    fun dc _ => ⟨lex_append_of_between hcomma (lex_entry dc.1 (lex_number dc.2.toNat)), rfl⟩
  obtain ⟨hothers, hapart⟩ := lex_flatMap hfactors
  have hrest := lex_append hothers hclose rfl
  rw [text_eq, String.toList_append, String.toList_append, toList_intercalate_cons,
    List.flatMap_map, List.append_assoc, List.append_assoc]
  exact lex_append_of_between hopen (lex_append hclass hrest (hapart.append rfl))

/-- The brace tells where the factors end, whatever comes behind it. -/
theorem factors_append_inj {dcs dcs' : List (String × UInt32)} {rest rest' : List Token}
    (h : dcs.flatMap furtherTokens ++ .symbol '\x7d' :: rest =
      dcs'.flatMap furtherTokens ++ .symbol '\x7d' :: rest') : dcs = dcs' ∧ rest = rest' := by
  induction dcs generalizing dcs' with
  | nil =>
    cases dcs' with
    | nil => exact ⟨rfl, (List.cons.inj h).2⟩
    | cons dc dcs' => simp [furtherTokens] at h
  | cons dc dcs ih =>
    cases dcs' with
    | nil => simp [furtherTokens] at h
    | cons dc' dcs' =>
      simp only [List.flatMap_cons, furtherTokens, entryTokens, List.cons_append, List.nil_append,
        List.cons.injEq, Token.quoted.injEq, Token.number.injEq, UInt32.toNat_inj, true_and] at h
      obtain ⟨hname, hfactor, hrest⟩ := h
      obtain ⟨hdcs, hrest⟩ := ih hrest
      rw [Prod.ext hname hfactor, hdcs]
      exact ⟨rfl, hrest⟩

theorem eq_of_factors {r r' : Replication} (hstrategy : r.strategy = r'.strategy)
    (hfactors : r.factors = r'.factors) : r = r' := by
  cases r with
  | simple factor =>
    cases r' with
    | simple factor' => simpa [factors] using hfactors
    | topology dcs' => simp [strategy] at hstrategy
  | topology dcs =>
    cases r' with
    | simple factor' => simp [strategy] at hstrategy
    | topology dcs' => exact congrArg topology hfactors

theorem tokens_append_inj {r r' : Replication} {rest rest' : List Token}
    (h : r.tokens ++ rest = r'.tokens ++ rest') : r = r' ∧ rest = rest' := by
  simp only [tokens, entryTokens, List.cons_append, List.nil_append, List.append_assoc,
    List.cons.injEq, Token.quoted.injEq, true_and] at h
  obtain ⟨hstrategy, h⟩ := h
  obtain ⟨hfactors, hrest⟩ := factors_append_inj h
  exact ⟨eq_of_factors hstrategy hfactors, hrest⟩

end Replication

/-! ## The statement -/

namespace NewKeyspace

def existsTokens (ifNotExists : Bool) : List Token :=
  if ifNotExists then [.word "IF", .word "NOT", .word "EXISTS"] else []

def durableTokens : Option Bool → List Token
  | none => []
  | some durable =>
    [.word "AND", .word "durable_writes", .symbol '=', .word (if durable then "true" else "false")]

/-- The one statement that asks for this keyspace. -/
def tokens (k : NewKeyspace) : List Token :=
  [.word "CREATE", .word "KEYSPACE"] ++ (existsTokens k.ifNotExists ++ ([.quoted .name k.name] ++
    ([.word "WITH", .word "replication", .symbol '='] ++ (k.replication.tokens ++
      durableTokens k.durableWrites))))

variable {k k' : NewKeyspace}

theorem statement_of_not_isPlainName (h : ¬ Keyspace.IsPlainName k.name) :
    k.statement = .error ⟨k.name⟩ := by
  rw [statement, Keyspace.quoted_of_not_isPlainName h]
  rfl

theorem statement_of_isPlainName (h : Keyspace.IsPlainName k.name) :
    ∃ text, k.statement = .ok text ∧ lex text.toList = some k.tokens := by
  rw [statement, Keyspace.quoted_of_isPlainName h]
  refine ⟨_, rfl, ?_⟩
  have hcreate : between.advance "CREATE KEYSPACE ".toList =
      some ([.word "CREATE", .word "KEYSPACE"], between) := rfl
  have hexists : between.advance (if k.ifNotExists then "IF NOT EXISTS " else "").toList =
      some (existsTokens k.ifNotExists, between) := by
    cases k.ifNotExists <;> rfl
  have hwith : between.advance " WITH replication = ".toList =
      some ([.word "WITH", .word "replication", .symbol '='], between) := rfl
  obtain ⟨hdurable, hapart⟩ : lex (k.durableWrites.elim "" fun durable =>
      " AND durable_writes = " ++ toString durable).toList = some (durableTokens k.durableWrites) ∧
      StandsApart (k.durableWrites.elim "" fun durable =>
        " AND durable_writes = " ++ toString durable).toList := by
    rcases k.durableWrites with _ | _ | _ <;> exact ⟨rfl, rfl⟩
  have hmap := lex_append_of_between hwith (lex_append k.replication.lex_text hdurable hapart)
  have hrest := lex_append_of_between hexists (lex_append h.lex_quoted hmap rfl)
  simp only [String.toList_append, List.append_assoc]
  simp only [String.toList_append, List.append_assoc] at hrest
  exact lex_append_of_between hcreate hrest

theorem lex_of_statement {text : String} (h : k.statement = .ok text) :
    lex text.toList = some k.tokens := by
  by_cases hname : Keyspace.IsPlainName k.name
  · obtain ⟨_, hok, hlex⟩ := statement_of_isPlainName hname
    cases h.symm.trans hok
    exact hlex
  · cases h.symm.trans (statement_of_not_isPlainName hname)

theorem existsTokens_append_inj {ifNotExists ifNotExists' : Bool} {name name' : String}
    {rest rest' : List Token} (h : existsTokens ifNotExists ++ .quoted .name name :: rest =
      existsTokens ifNotExists' ++ .quoted .name name' :: rest') :
    ifNotExists = ifNotExists' ∧ name = name' ∧ rest = rest' := by
  cases ifNotExists with
  | false =>
    cases ifNotExists' with
    | false => exact ⟨rfl, by simpa [existsTokens] using h⟩
    | true => simp [existsTokens] at h
  | true =>
    cases ifNotExists' with
    | false => simp [existsTokens] at h
    | true => exact ⟨rfl, by simpa [existsTokens] using h⟩

theorem durableTokens_injective {durable durable' : Option Bool}
    (h : durableTokens durable = durableTokens durable') : durable = durable' := by
  rcases durable with _ | _ | _ <;> rcases durable' with _ | _ | _ <;>
    first | rfl | simp [durableTokens] at h

theorem tokens_injective (h : k.tokens = k'.tokens) : k = k' := by
  obtain ⟨hexists, hname, hrest⟩ := existsTokens_append_inj (List.append_cancel_left h)
  obtain ⟨hreplication, hdurable⟩ :=
    Replication.tokens_append_inj (List.append_cancel_left hrest)
  cases k
  cases k'
  rw [mk.injEq]
  exact ⟨hname, hreplication, hexists, durableTokens_injective hdurable⟩

theorem eq_of_statement {text : String} (h : k.statement = .ok text)
    (h' : k'.statement = .ok text) : k = k' := by
  have htokens : some k.tokens = some k'.tokens :=
    (lex_of_statement h).symm.trans (lex_of_statement h')
  exact tokens_injective (Option.some.inj htokens)

end NewKeyspace

end CqlClient
