import CqlClient.Proofs.Session.Client.Frame
import CqlClient.Proofs.Text.Number
import CqlClient.Session.Handshake

/-!
# The start-up options

A server offers an extension of the protocol by a value that holds a number behind a mark. A
connection is started with the options of its configuration, and with an acknowledgement over them
for each extension that is recognised.

* `Extensions.Recognised`, `Extensions.recognised_iff`: the extensions that are recognised;
* `Handshake.Acknowledges`: what the start-up options are;
* `Handshake.IsStartup`, `Handshake.isStartup_startupOptions`: the request that they are sent with.
-/

namespace CqlClient

namespace Extensions

/-! ## Extensions that are recognised -/

/-- The value holds a number of 32 bits behind the mark. -/
def IsMarked (mark value : String) (number : UInt32) : Prop :=
  ∃ text, value = mark ++ text ∧ Text.IsUnsigned text.toList number.toNat

/-- What the values of an option offer: the number of the first of them that holds one. -/
inductive Offers (mark : String) : List String → Option UInt32 → Prop
  | nothing : Offers mark [] .none
  | here {value : String} {values : List String} {number : UInt32}
    (marked : IsMarked mark value number) : Offers mark (value :: values) (some number)
  | later {value : String} {values : List String} {offered : Option UInt32}
    (unmarked : ∀ number, ¬ IsMarked mark value number) (rest : Offers mark values offered) :
    Offers mark (value :: values) offered

/-- The extensions are those that the options of a server offer. -/
structure Recognised (s : Supported) (e : Extensions) : Prop where
  rateLimit : Offers "ERROR_CODE=" ((s.lookup "SCYLLA_RATE_LIMIT_ERROR").getD []) e.rateLimitCode
  lwt : Offers "LWT_OPTIMIZATION_META_BIT_MASK="
    ((s.lookup "SCYLLA_LWT_ADD_METADATA_MARK").getD []) e.lwtMask

/-- The number behind a mark, if a value holds one. -/
def marked? (mark value : String) : Option UInt32 :=
  let cs := value.toList
  if mark.toList.isPrefixOf cs then
    (Text.unsigned? 0xFFFFFFFF (cs.drop mark.length)).map UInt32.ofNat
  else .none

theorem marked?_eq_some {mark value : String} {number : UInt32} :
    marked? mark value = some number ↔ IsMarked mark value number := by
  unfold marked?
  simp only
  split
  next hstart =>
    obtain ⟨text, htext⟩ := List.isPrefixOf_iff_prefix.mp hstart
    have hvalue : value = mark ++ String.ofList text := by
      rw [← String.toList_inj, String.toList_append, String.toList_ofList, htext]
    have hdrop : value.toList.drop mark.length = text := by
      rw [← htext, ← String.length_toList, List.drop_left]
    rw [hdrop, Option.map_eq_some_iff]
    constructor
    · rintro ⟨n, hread, rfl⟩
      obtain ⟨hunsigned, hmax⟩ := Text.unsigned?_eq_some.mp hread
      refine ⟨String.ofList text, hvalue, ?_⟩
      rw [String.toList_ofList, UInt32.toNat_ofNat_of_lt' (Nat.lt_succ_of_le hmax)]
      exact hunsigned
    · rintro ⟨text', heq, hunsigned⟩
      obtain rfl : text'.toList = text := by
        have happend := congrArg String.toList (heq.symm.trans hvalue)
        rw [String.toList_append, String.toList_append, String.toList_ofList] at happend
        exact List.append_cancel_left happend
      refine ⟨number.toNat, Text.unsigned?_eq_some.mpr ⟨hunsigned, ?_⟩, UInt32.ofNat_toNat⟩
      exact Nat.le_of_lt_succ number.toNat_lt
  next hstart =>
    constructor
    · nofun
    · rintro ⟨text, rfl, -⟩
      refine absurd (List.isPrefixOf_iff_prefix.mpr ?_) hstart
      rw [String.toList_append]
      exact List.prefix_append ..

theorem offers_iff {mark : String} {values : List String} {offered : Option UInt32} :
    Offers mark values offered ↔ offered = values.findSome? (marked? mark) := by
  induction values with
  | nil =>
    constructor
    · rintro ⟨⟩
      rfl
    · rintro rfl
      exact .nothing
  | cons value values ih =>
    rw [List.findSome?_cons]
    cases hvalue : marked? mark value with
    | none =>
      have hunmarked (number : UInt32) : ¬ IsMarked mark value number := by
        rw [← marked?_eq_some, hvalue]
        exact nofun
      constructor
      · intro h
        cases h with
        | here hmarked => exact absurd hmarked (hunmarked _)
        | later _ hrest => exact ih.mp hrest
      · exact fun h => .later hunmarked (ih.mpr h)
    | some number =>
      constructor
      · intro h
        cases h with
        | here hmarked => exact (marked?_eq_some.mpr hmarked).symm.trans hvalue
        | later hunmarked' _ => exact absurd (marked?_eq_some.mp hvalue) (hunmarked' number)
      · rintro rfl
        exact .here (marked?_eq_some.mp hvalue)

theorem recognised_iff {s : Supported} {e : Extensions} : Recognised s e ↔ e = ofSupported s := by
  constructor
  · rintro ⟨hlimit, hlwt⟩
    obtain ⟨limit, lwt⟩ := e
    rw [ofSupported, Extensions.mk.injEq]
    exact ⟨offers_iff.mp hlimit, offers_iff.mp hlwt⟩
  · rintro rfl
    exact ⟨offers_iff.mpr rfl, offers_iff.mpr rfl⟩

end Extensions

/-! ## The options of a connection -/

namespace Handshake

/-- The options are those of the configuration with the acknowledgements of the extensions over
them, and no option is given twice. -/
structure Acknowledges (config : ConnectionConfig) (e : Extensions)
    (options : List (String × String)) : Prop where
  rateLimit : ∀ code, e.rateLimitCode = some code →
    options.lookup "SCYLLA_RATE_LIMIT_ERROR" = some ""
  lwt : ∀ mask, e.lwtMask = some mask →
    options.lookup "SCYLLA_LWT_ADD_METADATA_MARK" =
      some ("LWT_OPTIMIZATION_META_BIT_MASK=" ++ toString mask.toNat)
  configured : ∀ key, (key = "SCYLLA_RATE_LIMIT_ERROR" → e.rateLimitCode = none) →
    (key = "SCYLLA_LWT_ADD_METADATA_MARK" → e.lwtMask = none) →
    options.lookup key = config.startupOptions.lookup key
  once : (config.startupOptions.map Prod.fst).Nodup → (options.map Prod.fst).Nodup

/-- The request starts a connection with a server that supports this. -/
def IsStartup (config : ConnectionConfig) (s : Supported) (request : Request) : Prop :=
  ∃ e options, Extensions.Recognised s e ∧ Acknowledges config e options ∧
    request = .startup options

theorem nodup_setEntry {α : Type} {entries : List (String × α)}
    (h : (entries.map Prod.fst).Nodup) (key : String) (a : α) :
    ((setEntry entries key a).map Prod.fst).Nodup := by
  have hkept : (entries.filter (·.1 != key)).map Prod.fst =
      (entries.map Prod.fst).filter (· != key) := by
    rw [List.filter_map]
    rfl
  rw [setEntry, List.map_append, hkept, List.nodup_append]
  refine ⟨h.filter _, List.pairwise_singleton .., fun name hname other hother => ?_⟩
  obtain rfl := List.mem_singleton.mp hother
  simpa using (List.mem_filter.mp hname).2

/-- The value by which an extension is acknowledged, if it is recognised. -/
def acknowledgement (e : Extensions) (key : String) : Option String :=
  if key = Extensions.rateLimitKey then e.rateLimitCode.map fun _ => ""
  else if key = Extensions.lwtKey then
    e.lwtMask.map fun mask => Extensions.lwtMark ++ toString mask.toNat
  else none

/-- An acknowledgement stands over the option of the configuration, and nothing else does. -/
theorem lookup_startupOptions (config : ConnectionConfig) (s : Supported) (key : String) :
    (startupOptions config s).lookup key =
      (acknowledgement (.ofSupported s) key).or (config.startupOptions.lookup key) := by
  have hkeys : Extensions.lwtKey ≠ Extensions.rateLimitKey := by decide
  rw [startupOptions, Extensions.startupOptions, acknowledgement]
  cases (Extensions.ofSupported s).rateLimitCode <;> cases (Extensions.ofSupported s).lwtMask <;>
    simp only [Option.map_none, Option.map_some, Option.toList_none, Option.toList_some,
      List.nil_append, List.append_nil, List.cons_append, List.foldl_cons, List.foldl_nil,
      lookup_setEntry, beq_iff_eq]
  all_goals
    by_cases hlwt : key = Extensions.lwtKey
    · simp [hlwt, hkeys]
    · by_cases hlimit : key = Extensions.rateLimitKey <;>
        simp [hlwt, hlimit, hkeys.symm]

/-- No option is given twice. -/
theorem nodup_startupOptions {config : ConnectionConfig} (s : Supported)
    (h : (config.startupOptions.map Prod.fst).Nodup) :
    ((startupOptions config s).map Prod.fst).Nodup := by
  rw [startupOptions]
  generalize config.startupOptions = options at h
  induction (Extensions.ofSupported s).startupOptions generalizing options with
  | nil => exact h
  | cons entry entries ih =>
    rw [List.foldl_cons]
    exact ih _ (nodup_setEntry h entry.1 entry.2)

theorem acknowledges_startupOptions (config : ConnectionConfig) (s : Supported) :
    Acknowledges config (.ofSupported s) (startupOptions config s) where
  rateLimit := fun code hcode => by
    refine (lookup_startupOptions config s Extensions.rateLimitKey).trans ?_
    rw [acknowledgement, if_pos rfl, hcode]
    rfl
  lwt := fun mask hmask => by
    refine (lookup_startupOptions config s Extensions.lwtKey).trans ?_
    rw [acknowledgement, if_neg (by decide), if_pos rfl, hmask]
    rfl
  configured := fun key hlimit hlwt => by
    rw [lookup_startupOptions, acknowledgement]
    split
    next hkey => rw [hlimit hkey, Option.map_none, Option.none_or]
    next =>
      split
      next hkey => rw [hlwt hkey, Option.map_none, Option.none_or]
      next => exact Option.none_or
  once := nodup_startupOptions s

theorem isStartup_startupOptions (config : ConnectionConfig) (s : Supported) :
    IsStartup config s (.startup (startupOptions config s)) :=
  ⟨_, _, Extensions.recognised_iff.mpr rfl, acknowledges_startupOptions config s, rfl⟩

end Handshake

end CqlClient
