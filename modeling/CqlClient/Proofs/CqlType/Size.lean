import CqlClient.CqlType

/-!
# Sizes of types

`CqlType.fixedSize` multiplies in a word and gives up where a product does not fit. Beside it stands
the size as a number, `CqlType.exactSize`, which nothing is too large for:

* `CqlType.inductionOn`: induction on types, here and in all that follows;
* `CqlType.SizeFits`: a word has room for every product on the way;
* `CqlType.fixedSize_of_fits`, `CqlType.fixedSize_of_not_fits`: the size is counted if all products
  fit, and then it is the number; and nothing else keeps it from being counted.
-/

namespace CqlClient.CqlType

/-! ## Types and the types they are built from -/

/-- Induction on types, with a hypothesis for every type that a tuple or a user type is built
from. -/
@[elab_as_elim]
theorem inductionOn {P : CqlType → Prop}
    (native : ∀ type, P (.native type)) (custom : ∀ className, P (.custom className))
    (list : ∀ element, P element → P (.list element))
    (set : ∀ element, P element → P (.set element))
    (map : ∀ key value, P key → P value → P (.map key value))
    (tuple : ∀ types : List CqlType, (∀ type ∈ types, P type) → P (.tuple types))
    (udt : ∀ keyspace name (fields : List (String × CqlType)),
      (∀ field ∈ fields, P field.2) → P (.udt keyspace name fields))
    (vector : ∀ element dimensions, P element → P (.vector element dimensions)) :
    ∀ type, P type
  | .native type => native type
  | .custom className => custom className
  | .list e => list e (inductionOn native custom list set map tuple udt vector e)
  | .set e => set e (inductionOn native custom list set map tuple udt vector e)
  | .map k w => map k w (inductionOn native custom list set map tuple udt vector k)
      (inductionOn native custom list set map tuple udt vector w)
  | .tuple types => tuple types fun type _ =>
      inductionOn native custom list set map tuple udt vector type
  | .udt keyspace name fields => udt keyspace name fields fun field _ =>
      inductionOn native custom list set map tuple udt vector field.2
  | .vector e n => vector e n (inductionOn native custom list set map tuple udt vector e)
termination_by type => sizeOf type
decreasing_by
  all_goals simp_wf
  all_goals try omega
  · have := List.sizeOf_lt_of_mem ‹type ∈ types›
    omega
  · have := List.sizeOf_lt_of_mem ‹field ∈ fields›
    cases field
    simp at this ⊢
    omega

/-- The types that a type is directly built from. -/
def children : CqlType → List CqlType
  | native _ | custom _ => []
  | list element | set element | vector element _ => [element]
  | map key value => [key, value]
  | tuple types => types
  | udt _ _ fields => fields.map Prod.snd

/-- Induction on types, with a hypothesis for every type that a type is built from. -/
@[elab_as_elim]
theorem inductionOnChildren {P : CqlType → Prop}
    (step : ∀ type : CqlType, (∀ child ∈ type.children, P child) → P type) (type : CqlType) :
    P type := by
  induction type using inductionOn with
  | native type => exact step _ (List.forall_mem_nil _)
  | custom className => exact step _ (List.forall_mem_nil _)
  | list element ih => exact step _ (List.forall_mem_singleton.mpr ih)
  | set element ih => exact step _ (List.forall_mem_singleton.mpr ih)
  | map key value ihk ihv => exact step _ (by simp [children, ihk, ihv])
  | tuple types ih => exact step _ ih
  | udt keyspace name fields ih => exact step _ (List.forall_mem_map.mpr ih)
  | vector element dimensions ih => exact step _ (List.forall_mem_singleton.mpr ih)

/-! ## Sizes -/

/-- The encoded size of every value of a type, however large it is, if it does not vary. -/
def exactSize : CqlType → Option Nat
  | native type => type.fixedSize
  | vector element dimensions => element.exactSize.map (· * dimensions.toNat)
  | _ => none

/-- A word has room for every product on the way to the size of a type. -/
def SizeFits : CqlType → Prop
  | vector element dimensions => element.SizeFits ∧
      ∀ size, element.exactSize = some size → size * dimensions.toNat < UInt64.size
  | _ => True

variable {type : CqlType} {size : Option Nat}

theorem fixedSize_of_fits (hfits : type.SizeFits) : type.fixedSize = .ok type.exactSize := by
  induction type using CqlType.inductionOn with
  | vector element dimensions ih =>
    obtain ⟨hinner, hroom⟩ := hfits
    rw [fixedSize, ih hinner, exactSize]
    cases hsize : element.exactSize with
    | none => rfl
    | some size => exact congrArg (Except.map some) (checkedMul_of_lt (hroom size hsize))
  | _ => rfl

theorem fixedSize_of_not_fits (htight : ¬ type.SizeFits) :
    type.fixedSize = .error .multiplyOverflow := by
  induction type using CqlType.inductionOn with
  | vector element dimensions ih =>
    by_cases hinner : element.SizeFits
    · have hwide : ¬ ∀ size, element.exactSize = some size →
          size * dimensions.toNat < UInt64.size := fun hroom => htight ⟨hinner, hroom⟩
      obtain ⟨size, hsize, hover⟩ : ∃ size, element.exactSize = some size ∧
          UInt64.size ≤ size * dimensions.toNat := by simpa using hwide
      rw [fixedSize, fixedSize_of_fits hinner, hsize]
      exact congrArg (Except.map some) (checkedMul_of_le hover)
    · rw [fixedSize, ih hinner]
  | _ => exact absurd trivial htight

theorem fixedSize_eq_ok : type.fixedSize = .ok size ↔ type.SizeFits ∧ type.exactSize = size := by
  by_cases hfits : type.SizeFits
  · rw [fixedSize_of_fits hfits, Except.ok.injEq, and_iff_right hfits]
  · rw [fixedSize_of_not_fits hfits]
    exact iff_of_false nofun fun h => hfits h.1

theorem exactSize_of_fixedSize (h : type.fixedSize = .ok size) : type.exactSize = size :=
  (fixedSize_eq_ok.mp h).2

theorem exactSize_native_le {type : Native} {size : Nat} (h : type.fixedSize = some size) :
    size ≤ 16 := by
  cases type <;> cases h <;> decide

theorem SizeFits.exactSize_lt {size : Nat} (hfits : type.SizeFits)
    (h : type.exactSize = some size) : size < UInt64.size := by
  cases type with
  | native type => exact Nat.lt_of_le_of_lt (exactSize_native_le h) (by decide)
  | vector element dimensions =>
    obtain ⟨part, hpart, rfl⟩ := Option.map_eq_some_iff.mp h
    exact hfits.2 part hpart
  | _ => cases h

/-- Four vectors of uuids in each other, of `2 ^ 60` elements altogether. -/
def nestedUuids : CqlType :=
  vector (vector (vector (vector (native .uuid) 32768) 32768) 32768) 32768

/-- The last product is the first number that a word does not hold. -/
theorem fixedSize_nestedUuids : nestedUuids.exactSize = some UInt64.size ∧
    nestedUuids.fixedSize = .error .multiplyOverflow := ⟨rfl, rfl⟩

end CqlClient.CqlType
