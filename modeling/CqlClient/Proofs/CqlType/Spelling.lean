import CqlClient.Proofs.CqlType.ClassName
import CqlClient.Proofs.Text.Number

/-!
# Class names as servers spell them

`Spelled type nesting text` says that `text` is a way of spelling a type by the name of its class,
with or without the package in front of each name, with blanks around each parameter, and with
frozen types between the levels.

* `Spelled.whole`: no bracket of a spelling is left open, so that commas outside it are its own
  limits and a parameter is never cut;
* `parseWithin_spelled`: a spelling is parsed as its type, if there is room for its levels;
* `parse_spelled`: the same for a depth and a limit, and any other name is kept as it is.
-/

namespace CqlClient.ClassName

open Text (AllBlank Whole isBlank trimBlank)

/-! ## Spellings -/

/-- The class of a native type. -/
def nativeClass : Native → String
  | .ascii => "AsciiType"
  | .bigint => "LongType"
  | .blob => "BytesType"
  | .boolean => "BooleanType"
  | .counter => "CounterColumnType"
  | .decimal => "DecimalType"
  | .double => "DoubleType"
  | .duration => "DurationType"
  | .float => "FloatType"
  | .int => "Int32Type"
  | .timestamp => "TimestampType"
  | .uuid => "UUIDType"
  | .text => "UTF8Type"
  | .varint => "IntegerType"
  | .timeuuid => "TimeUUIDType"
  | .inet => "InetAddressType"
  | .date => "SimpleDateType"
  | .time => "TimeType"
  | .smallint => "ShortType"
  | .tinyint => "ByteType"

/-- The names by which a native type goes; timestamps have an older one. -/
inductive IsNamed : Native → List Char → Prop
  | current (type : Native) : IsNamed type (nativeClass type).toList
  | formerly : IsNamed .timestamp "DateType".toList

/-- A name with the package in front of it, or without. -/
def qualify (qualified : Bool) (name : List Char) : List Char :=
  (if qualified then packagePrefix else []) ++ name

/-- A name and its parameters in brackets. -/
def applied (name : String) (inner : List Char) : List Char :=
  name.toList ++ '(' :: (inner ++ [')'])

/-- A number in decimal digits, after a plus sign or none and any number of zeros. -/
def numeral (plus : Bool) (zeros n : Nat) : List Char :=
  (if plus then ['+'] else []) ++ (List.replicate zeros '0' ++ Nat.toDigits 10 n)

/-- The text spells the type, with that many levels of brackets. At each level the package may be
named or not, and blanks may stand around; a frozen type is spelled by a level of its own. -/
inductive Spelled : CqlType → Nat → List Char → Prop
  | padded {type : CqlType} {nesting : Nat} {text before after : List Char}
    (spelled : Spelled type nesting text) (front : AllBlank before) (back : AllBlank after) :
    Spelled type nesting (before ++ (text ++ after))
  | native {type : Native} {name : List Char} (qualified : Bool) (named : IsNamed type name) :
    Spelled (.native type) 0 (qualify qualified name)
  | frozen {type : CqlType} {nesting : Nat} {text : List Char} (qualified : Bool)
    (inner : Spelled type nesting text) :
    Spelled type (nesting + 1) (qualify qualified (applied "FrozenType" text))
  | list {element : CqlType} {nesting : Nat} {text : List Char} (qualified : Bool)
    (inner : Spelled element nesting text) :
    Spelled (.list element) (nesting + 1) (qualify qualified (applied "ListType" text))
  | set {element : CqlType} {nesting : Nat} {text : List Char} (qualified : Bool)
    (inner : Spelled element nesting text) :
    Spelled (.set element) (nesting + 1) (qualify qualified (applied "SetType" text))
  | map {key value : CqlType} {m n : Nat} {first second : List Char} (qualified : Bool)
    (keys : Spelled key m first) (values : Spelled value n second) :
    Spelled (.map key value) (max m n + 1)
      (qualify qualified (applied "MapType" (first ++ ',' :: second)))
  | vector {element : CqlType} {nesting : Nat} {text before after : List Char} (qualified : Bool)
    (inner : Spelled element nesting text) (dimensions : UInt16) (plus : Bool) (zeros : Nat)
    (front : AllBlank before) (back : AllBlank after) :
    Spelled (.vector element dimensions) (nesting + 1) (qualify qualified (applied "VectorType"
      (text ++ ',' :: (before ++ (numeral plus zeros dimensions.toNat ++ after)))))

/-! ## Names without parameters -/

theorem native?_of_isNamed {type : Native} {name : List Char} (h : IsNamed type name) :
    native? (String.ofList name) = some type := by
  cases h with
  | current =>
    rw [String.ofList_toList]
    cases type <;> rfl
  | formerly => rfl

theorem isNamed_of_native? {name : String} {type : Native} (h : native? name = some type) :
    IsNamed type name.toList := by
  unfold native? at h
  split at h
  all_goals cases h
  case h_21 => exact .formerly
  all_goals exact .current _

/-- No character that means anything between class names, and no blank. -/
def Plain (cs : List Char) : Prop :=
  ∀ c ∈ cs, isBlank c = false ∧ c ≠ '(' ∧ c ≠ ')' ∧ c ≠ ','

theorem Plain.append {cs ds : List Char} (hcs : Plain cs) (hds : Plain ds) : Plain (cs ++ ds) :=
  fun c hc => (List.mem_append.mp hc).elim (hcs c) (hds c)

theorem Plain.whole {cs : List Char} (h : Plain cs) (depth : Nat) : Whole '(' ')' depth cs :=
  Text.whole_of_plain fun c hc => (h c hc).2

theorem Plain.trimBlank_eq {cs : List Char} (h : Plain cs) : trimBlank cs = cs :=
  Text.trimBlank_eq_self (fun c hc => (h c (List.mem_of_mem_head? hc)).1)
    fun c hc => (h c (List.mem_of_mem_getLast? hc)).1

/-- Plus signs, dots, digits and letters are plain, and whatever else lies between them. -/
theorem plain_of_codes {cs : List Char}
    (h : cs.all (fun c => c.toNat == 43 || (45 ≤ c.toNat && c.toNat ≤ 126)) = true) : Plain cs := by
  intro c hc
  have hcode := List.all_eq_true.mp h c hc
  simp only [Bool.or_eq_true, beq_iff_eq, Bool.and_eq_true, decide_eq_true_eq] at hcode
  have hne (d : Char) (hd : d.toNat = 40 ∨ d.toNat = 41 ∨ d.toNat = 44) : c ≠ d := by
    rintro rfl
    omega
  refine ⟨?_, hne '(' (by decide), hne ')' (by decide), hne ',' (by decide)⟩
  simp [isBlank]
  omega

theorem plain_qualify (qualified : Bool) {name : List Char} (h : Plain name) :
    Plain (qualify qualified name) := by
  cases qualified with
  | false => exact h
  | true => exact (plain_of_codes (show packagePrefix.all _ = true by decide)).append h

theorem IsNamed.plain {type : Native} {name : List Char} (h : IsNamed type name) : Plain name := by
  cases h with
  | current =>
    refine plain_of_codes ?_
    cases type <;> decide
  | formerly => exact plain_of_codes (by decide)

theorem plain_numeral (plus : Bool) (zeros n : Nat) : Plain (numeral plus zeros n) := by
  refine plain_of_codes (List.all_eq_true.mpr fun c hc => ?_)
  rw [numeral, List.mem_append, List.mem_append] at hc
  rcases hc with hc | hc | hc
  · cases plus with
    | false => cases hc
    | true =>
      rw [List.mem_singleton.mp hc]
      rfl
  · rw [(List.mem_replicate.mp hc).2]
    rfl
  · have hdigit := Nat.isDigit_of_mem_toDigits (by decide) (by decide) hc
    rw [Char.isDigit_iff_toNat] at hdigit
    have hlow : 48 ≤ c.toNat := hdigit.1
    have hhigh : c.toNat ≤ 57 := hdigit.2
    simp only [Bool.or_eq_true, beq_iff_eq, Bool.and_eq_true, decide_eq_true_eq]
    omega

/-- Neither a plus sign nor zeros in front change the number. -/
theorem unsigned?_numeral (plus : Bool) (zeros : Nat) {max n : Nat} (h : n ≤ max) :
    Text.unsigned? max (numeral plus zeros n) = some n := by
  let digits := List.replicate zeros '0' ++ Nat.toDigits 10 n
  have hdigit : ∀ c ∈ digits, '0' ≤ c ∧ c ≤ '9' := by
    intro c hc
    rcases List.mem_append.mp hc with hc | hc
    · rw [(List.mem_replicate.mp hc).2]
      decide
    · exact Text.isDigit_iff.mp (Nat.isDigit_of_mem_toDigits (by decide) (by decide) hc)
  have hvalue : n = Nat.ofDigitChars 10 digits 0 := by
    rw [Nat.ofDigitChars_append, Nat.ofDigitChars_replicate_zero, Nat.mul_zero,
      Nat.ofDigitChars_toDigits (by decide) (by decide)]
  refine Text.unsigned?_eq_some.mpr ⟨⟨digits, ?_, ?_, hdigit, hvalue⟩, h⟩
  · cases plus with
    | true => exact .inr rfl
    | false => exact .inl rfl
  · exact List.append_ne_nil_of_right_ne_nil _ Nat.toDigits_ne_nil

/-! ## Names with parameters -/

/-- Names of classes begin with a letter that the package does not begin with. -/
def IsHead (name : List Char) : Prop := name.head? ≠ some 'o'

instance (name : List Char) : Decidable (IsHead name) := inferInstanceAs (Decidable (_ ≠ _))

theorem IsNamed.isHead {type : Native} {name : List Char} (h : IsNamed type name) :
    IsHead name := by
  cases h with
  | current => cases type <;> decide
  | formerly => decide

theorem packagePrefix_eq : packagePrefix = 'o' :: packagePrefix.tail := by decide

theorem dropPackage_qualify (qualified : Bool) {name : List Char} (h : IsHead name) :
    dropPackage (qualify qualified name) = name := by
  cases qualified with
  | true =>
    have hprefix : packagePrefix.isPrefixOf (packagePrefix ++ name) = true :=
      List.isPrefixOf_iff_prefix.mpr (List.prefix_append _ _)
    rw [dropPackage, qualify, if_pos rfl, if_pos hprefix, List.drop_left]
  | false =>
    have hprefix : packagePrefix.isPrefixOf name = false := by
      cases name with
      | nil => rfl
      | cons c name =>
        have hne : ('o' == c) = false := beq_false_of_ne fun heq => h (congrArg some heq.symm)
        rw [packagePrefix_eq, List.isPrefixOf_cons_cons, hne, Bool.false_and]
    show dropPackage name = name
    rw [dropPackage, hprefix, if_neg Bool.false_ne_true]

theorem allBlank_whole {cs : List Char} (h : AllBlank cs) (depth : Nat) :
    Whole '(' ')' depth cs := by
  have hne {c d : Char} (hc : isBlank c = true) (hd : isBlank d = false) : c ≠ d := by
    rintro rfl
    exact Bool.false_ne_true (hd.symm.trans hc)
  exact Text.whole_of_plain fun c hc =>
    ⟨hne (h c hc) (by decide), hne (h c hc) (by decide), hne (h c hc) (by decide)⟩

theorem whole_applied {name : String} (hname : Plain name.toList) (qualified : Bool) {depth : Nat}
    {inner : List Char} (h : Whole '(' ')' (depth + 1) inner) :
    Whole '(' ')' depth (qualify qualified (applied name inner)) := by
  rw [applied, qualify, ← List.append_assoc]
  exact ((plain_qualify qualified hname).whole depth).append (h.enclosed (by decide))

theorem whole_comma (depth : Nat) : Whole '(' ')' (depth + 1) [','] :=
  Text.whole_singleton (by decide) (by decide) fun _ => Nat.succ_pos depth

/-- Wherever a spelling stands, it is cut nowhere. -/
theorem Spelled.whole {type : CqlType} {nesting : Nat} {text : List Char}
    (h : Spelled type nesting text) (depth : Nat) : Whole '(' ')' depth text := by
  induction h generalizing depth with
  | padded _ hfront hback ih =>
    exact (allBlank_whole hfront depth).append ((ih depth).append (allBlank_whole hback depth))
  | native qualified hnamed => exact (plain_qualify qualified hnamed.plain).whole depth
  | frozen qualified _ ih => exact whole_applied (plain_of_codes (by decide)) qualified (ih _)
  | list qualified _ ih => exact whole_applied (plain_of_codes (by decide)) qualified (ih _)
  | set qualified _ ih => exact whole_applied (plain_of_codes (by decide)) qualified (ih _)
  | map qualified _ _ ihk ihv =>
    exact whole_applied (plain_of_codes (by decide)) qualified
      ((ihk _).append ((whole_comma depth).append (ihv _)))
  | vector qualified _ dimensions plus zeros hfront hback ih =>
    have hnumber := (plain_numeral plus zeros dimensions.toNat).whole (depth + 1)
    exact whole_applied (plain_of_codes (by decide)) qualified ((ih _).append
      ((whole_comma depth).append ((allBlank_whole hfront _).append
        (hnumber.append (allBlank_whole hback _)))))

theorem parameters_one {text : List Char} (h : Whole '(' ')' 0 text) :
    parameters text = [trimBlank text] := by
  rw [parameters, Text.pieces_of_whole h]
  rfl

theorem parameters_two {first second : List Char} (hfirst : Whole '(' ')' 0 first)
    (hsecond : Whole '(' ')' 0 second) :
    parameters (first ++ ',' :: second) = [trimBlank first, trimBlank second] := by
  rw [parameters, Text.pieces_cons hfirst (by decide) (by decide), Text.pieces_of_whole hsecond]
  rfl

theorem mem_head?_append {α : Type} {xs ys : List α} {x : α} (h : x ∈ (xs ++ ys).head?) :
    x ∈ xs ∨ x ∈ ys.head? := by
  cases xs with
  | nil => exact .inr h
  | cons a xs => exact .inl (List.mem_of_mem_head? (Option.mem_def.mpr h))

theorem applies_of_trim {cs inner : List Char} {params : List (List Char)} {name : String}
    {qualified : Bool} (hname : Plain name.toList) (hhead : IsHead name.toList)
    (hparams : parameters inner = params)
    (hcs : trimBlank cs = trimBlank (qualify qualified (applied name inner))) :
    Applies cs name params := by
  have hshape : qualify qualified (applied name inner) =
      qualify qualified name.toList ++ '(' :: (inner ++ [')']) := (List.append_assoc ..).symm
  have hself : trimBlank (qualify qualified (applied name inner)) =
      qualify qualified (applied name inner) := by
    refine Text.trimBlank_eq_self (fun c hc => ?_) fun c hc => ?_
    · rw [hshape] at hc
      rcases mem_head?_append hc with hc | hc
      · exact (plain_qualify qualified hname c hc).1
      · cases hc
        decide
    · rw [hshape, ← List.cons_append, ← List.append_assoc, List.getLast?_append,
        List.getLast?_singleton] at hc
      cases hc
      decide
  have hfirst : IsHead (applied name inner) := by
    intro heq
    rw [applied, List.head?_append, Option.or_eq_some_iff] at heq
    rcases heq with hletter | ⟨-, hbracket⟩
    · exact hhead hletter
    · exact absurd (Option.some.inj hbracket) (by decide)
  exact ⟨inner, by rw [hcs, hself, dropPackage_qualify qualified hfirst, applied], hparams⟩

/-! ## What a spelling is parsed as -/

/-- What parsing gives for a spelled type: the type, or a refusal when it nests too deeply. -/
def outcome (limit room nesting : Nat) (type : CqlType) : Except DescriptorFault CqlType :=
  if nesting < room then .ok type else .error (.depthExceeded limit)

section Outcomes

variable {limit room nesting : Nat} {type : CqlType}

theorem outcome_zero : outcome limit 0 nesting type = .error (.depthExceeded limit) :=
  if_neg (Nat.not_lt_zero _)

theorem outcome_succ :
    outcome limit (room + 1) (nesting + 1) type = outcome limit room nesting type :=
  if_congr Nat.succ_lt_succ_iff rfl rfl

/-- A type with one parameter nests one level deeper than the parameter. -/
theorem outcome_bind (make : CqlType → CqlType) :
    (do return make (← outcome limit room nesting type)) =
      outcome limit (room + 1) (nesting + 1) (make type) := by
  rw [outcome_succ, outcome, outcome]
  split <;> rfl

theorem outcome_bind_two {m n : Nat} {key value : CqlType} :
    (do return .map (← outcome limit room m key) (← outcome limit room n value)) =
      outcome limit (room + 1) (max m n + 1) (.map key value) := by
  rw [outcome_succ]
  by_cases hm : m < room
  · by_cases hn : n < room
    · rw [outcome, if_pos hm, outcome, if_pos hn, outcome, if_pos (Nat.max_lt.mpr ⟨hm, hn⟩)]
      rfl
    · rw [outcome, if_pos hm, outcome, if_neg hn, outcome,
        if_neg fun h => hn (Nat.max_lt.mp h).2]
      rfl
  · rw [outcome, if_neg hm, outcome, outcome, if_neg fun h => hm (Nat.max_lt.mp h).1]
    rfl

end Outcomes

theorem parseWithin_named {type : Native} {name : List Char} (h : IsNamed type name)
    {qualified : Bool} {limit room : Nat} {cs : List Char}
    (hcs : trimBlank cs = trimBlank (qualify qualified name)) :
    parseWithin limit (room + 1) cs = .ok (.native type) := by
  have hname : dropPackage (trimBlank cs) = name := by
    rw [hcs, (plain_qualify qualified h.plain).trimBlank_eq, dropPackage_qualify qualified h.isHead]
  have hbracket : '(' ∉ dropPackage (trimBlank cs) := by
    rw [hname]
    exact fun hmem => (h.plain _ hmem).2.1 rfl
  rw [parseWithin_plain hbracket, hname, native?_of_isNamed h]
  rfl

/-- A spelled type is found again, whatever stands around it, or refused for its depth. -/
theorem parseWithin_spelled {type : CqlType} {nesting : Nat} {text : List Char}
    (h : Spelled type nesting text) (limit room : Nat) {cs : List Char}
    (hcs : trimBlank cs = trimBlank text) :
    parseWithin limit room cs = outcome limit room nesting type := by
  -- Parameters come trimmed, and only then are parsed: the induction is about every text that trims
  -- to the same as the spelling does.
  induction h generalizing room cs with
  | padded _ hfront hback ih => exact ih room (hcs.trans (Text.trimBlank_pad hfront hback _))
  | native qualified hnamed =>
    cases room with
    | zero => rw [parseWithin_zero, outcome_zero]
    | succ room => rw [parseWithin_named hnamed hcs, outcome, if_pos (Nat.succ_pos room)]
  | frozen qualified hinner ih =>
    cases room with
    | zero => rw [parseWithin_zero, outcome_zero]
    | succ room =>
      rw [parseWithin_frozen (applies_of_trim (plain_of_codes (by decide)) (by decide)
        (parameters_one (hinner.whole 0)) hcs), ih room (Text.trimBlank_trimBlank _), outcome_succ]
  | list qualified hinner ih =>
    cases room with
    | zero => rw [parseWithin_zero, outcome_zero]
    | succ room =>
      rw [parseWithin_list (applies_of_trim (plain_of_codes (by decide)) (by decide)
        (parameters_one (hinner.whole 0)) hcs), ih room (Text.trimBlank_trimBlank _), outcome_bind]
  | set qualified hinner ih =>
    cases room with
    | zero => rw [parseWithin_zero, outcome_zero]
    | succ room =>
      rw [parseWithin_set (applies_of_trim (plain_of_codes (by decide)) (by decide)
        (parameters_one (hinner.whole 0)) hcs), ih room (Text.trimBlank_trimBlank _), outcome_bind]
  | map qualified hkeys hvalues ihk ihv =>
    cases room with
    | zero => rw [parseWithin_zero, outcome_zero]
    | succ room =>
      rw [parseWithin_map (applies_of_trim (plain_of_codes (by decide)) (by decide)
        (parameters_two (hkeys.whole 0) (hvalues.whole 0)) hcs),
        ihk room (Text.trimBlank_trimBlank _), ihv room (Text.trimBlank_trimBlank _),
        outcome_bind_two]
  | @vector element nesting text before after qualified hinner dimensions plus zeros hfront hback
      ih =>
    cases room with
    | zero => rw [parseWithin_zero, outcome_zero]
    | succ room =>
      have hplain := plain_numeral plus zeros dimensions.toNat
      have hnumber : trimBlank (before ++ (numeral plus zeros dimensions.toNat ++ after)) =
          numeral plus zeros dimensions.toNat := by
        rw [Text.trimBlank_pad hfront hback _, hplain.trimBlank_eq]
      have hwhole : Whole '(' ')' 0 (before ++ (numeral plus zeros dimensions.toNat ++ after)) :=
        (allBlank_whole hfront _).append ((hplain.whole 0).append (allBlank_whole hback _))
      have hread : Text.unsigned? 0xFFFF (trimBlank (trimBlank
          (before ++ (numeral plus zeros dimensions.toNat ++ after)))) = some dimensions.toNat := by
        rw [Text.trimBlank_trimBlank, hnumber]
        exact unsigned?_numeral plus zeros (Nat.le_of_lt_succ dimensions.toNat_lt)
      rw [parseWithin_vector (applies_of_trim (plain_of_codes (by decide)) (by decide)
        (parameters_two (hinner.whole 0) hwhole) hcs) hread, ih room (Text.trimBlank_trimBlank _),
        UInt16.ofNat_toNat, outcome_bind]

/-- What stands around the name that is looked up. -/
theorem exists_qualify (cs : List Char) : ∃ qualified before after, AllBlank before ∧
    AllBlank after ∧ cs = before ++ (qualify qualified (dropPackage (trimBlank cs)) ++ after) := by
  obtain ⟨before, after, hbefore, hafter, hcs⟩ := Text.exists_trimBlank cs
  by_cases hpackage : packagePrefix.isPrefixOf (trimBlank cs) = true
  · obtain ⟨name, hname⟩ := List.isPrefixOf_iff_prefix.mp hpackage
    refine ⟨true, before, after, hbefore, hafter, ?_⟩
    rw [dropPackage, if_pos hpackage, qualify, if_pos rfl, ← hname, List.drop_left, hname]
    exact hcs
  · refine ⟨false, before, after, hbefore, hafter, ?_⟩
    rw [dropPackage, if_neg hpackage]
    exact hcs

/-- However a type is spelled, it is parsed as that type if the levels of its spelling do not exceed
the limit from the depth at which it is found, and is refused for its depth otherwise. A name
without brackets that spells no native type is kept as it is. -/
theorem parse_spelled (limit depth : Nat) :
    (∀ type nesting text, Spelled type nesting text →
      parse limit depth (String.ofList text) =
        if depth + nesting ≤ limit then .ok type else .error (.depthExceeded limit)) ∧
    ∀ className : String, '(' ∉ className.toList →
      (∀ type, ¬ Spelled (.native type) 0 className.toList) → depth ≤ limit →
      parse limit depth className = .ok (.custom className) := by
  constructor
  · intro type nesting text h
    rw [parse, String.toList_ofList, parseWithin_spelled h limit _ rfl, outcome]
    exact if_congr (by omega) rfl rfl
  · intro className hbracket hnamed hdepth
    obtain ⟨qualified, before, after, hbefore, hafter, hclass⟩ := exists_qualify className.toList
    have hplain : '(' ∉ dropPackage (trimBlank className.toList) := by
      intro hmem
      rw [hclass, List.mem_append, List.mem_append, qualify, List.mem_append] at hbracket
      exact hbracket (.inr (.inl (.inr hmem)))
    have hunknown : native? (String.ofList (dropPackage (trimBlank className.toList))) = none := by
      refine Option.eq_none_iff_forall_ne_some.mpr fun type htype => hnamed type ?_
      have hname := isNamed_of_native? htype
      rw [String.toList_ofList] at hname
      rw [hclass]
      exact .padded (.native qualified hname) hbefore hafter
    rw [parse, show limit + 1 - depth = limit - depth + 1 by omega, parseWithin_plain hplain,
      hunknown, String.ofList_toList]
    rfl

/-- A vector of frozen lists takes three levels; a class of the user's is no native type. -/
theorem parse_spelled_vector :
    let name := "org.apache.cassandra.db.marshal.VectorType( FrozenType(ListType(Int32Type)) ,+003)"
    let type := CqlType.vector (.list (.native .int)) 3
    Spelled type 3 name.toList ∧
    parse 4 1 name = .ok type ∧ parse 4 2 name = .error (.depthExceeded 4) ∧
    '(' ∉ "com.example.PointType".toList ∧
    (∀ type, ¬ Spelled (.native type) 0 "com.example.PointType".toList) ∧
    parse 4 4 "com.example.PointType" = .ok (.custom "com.example.PointType") := by
  intro name type
  have hlist : Spelled (.list (.native .int)) 1 (applied "ListType" "Int32Type".toList) :=
    .list false (.native false (.current .int))
  have hfrozen : Spelled (.list (.native .int)) 2
      ([' '] ++ (applied "FrozenType" (applied "ListType" "Int32Type".toList) ++ [' '])) :=
    .padded (.frozen false hlist) (by decide) (by decide)
  have hname : name.toList = qualify true (applied "VectorType"
      ([' '] ++ (applied "FrozenType" (applied "ListType" "Int32Type".toList) ++ [' ']) ++
        ',' :: ([] ++ (numeral true 2 3 ++ [])))) := by decide
  have hspelled : Spelled type 3 name.toList := by
    rw [hname]
    exact .vector true hfrozen 3 true 2 (by decide) (by decide)
  have hbracket : '(' ∉ "com.example.PointType".toList := by decide
  have hother (type : Native) : ¬ Spelled (.native type) 0 "com.example.PointType".toList := by
    intro h
    have hparse := parseWithin_spelled h 0 1 rfl
    cases hparse
  have hopaque := (parse_spelled 4 4).2 "com.example.PointType" hbracket hother (Nat.le_refl 4)
  have hfits := (parse_spelled 4 1).1 type 3 name.toList hspelled
  have hdeep := (parse_spelled 4 2).1 type 3 name.toList hspelled
  rw [String.ofList_toList] at hfits hdeep
  exact ⟨hspelled, hfits, hdeep, hbracket, hother, hopaque⟩

end CqlClient.ClassName
