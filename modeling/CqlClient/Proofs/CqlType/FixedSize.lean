import CqlClient.Proofs.Codec.Acceptance
import CqlClient.Proofs.CqlType.Bounds
import CqlClient.Proofs.CqlType.Described

/-!
# Sizes of types in column metadata

The size of a vector is a product over all vectors that stand directly in each other, and it is
counted in 64 bits. A type may open more levels than that has room for, whoever describes it:

* `CqlType.exactSize_le`, `CqlType.exactSize_lt`: how large a size gets with the levels, and that
  three levels, or four of single bytes, still fit;
* `uncodable_of_tight`: nothing is coded by a vector of elements whose size does not fit;
* `Descriptor.fixedSize_of_read`: all of that, for every part of a type in column metadata;
* `Descriptor.read_nestedUuids`: four levels, and a size that does not fit.
-/

namespace CqlClient

open Codec Scalar

namespace CqlType

/-- How many vectors stand directly in each other. -/
def vectorLevels : CqlType → Nat
  | vector element _ => element.vectorLevels + 1
  | _ => 0

/-- The type that such vectors are filled with in the end. -/
def innermost : CqlType → CqlType
  | vector element _ => element.innermost
  | type => type

/-- Three vectors in each other, or four that are filled with single bytes. -/
def FewLevels (type : CqlType) : Prop :=
  type.vectorLevels ≤ 3 ∨ type.vectorLevels = 4 ∧ type.innermost.exactSize = some 1

variable {type part : CqlType} {size : Nat}

/-! ## Levels -/

theorem height_lt_of_child (h : part ∈ type.children) : part.height < type.height := by
  cases type with
  | native _ | custom _ => cases h
  | list element | set element | vector element _ =>
    rw [List.mem_singleton.mp h]
    exact Nat.lt_succ_self element.height
  | map key value =>
    rw [children, List.mem_pair] at h
    rw [height]
    rcases h with rfl | rfl
    · exact Nat.lt_succ_of_le (Nat.le_max_left ..)
    · exact Nat.lt_succ_of_le (Nat.le_max_right ..)
  | tuple types => exact heights_le.mp (Nat.le_refl (heights types)) part h
  | udt keyspace name fields =>
    obtain ⟨field, hfield, rfl⟩ := List.mem_map.mp h
    exact fieldHeights_le.mp (Nat.le_refl (fieldHeights fields)) field hfield

theorem Occurs.height_le (h : Occurs part type) : part.height ≤ type.height := by
  induction h with
  | here => exact Nat.le_refl _
  | inside hmember _ ih => exact ih.trans (height_lt_of_child hmember).le

theorem vectorLevels_le_height (type : CqlType) : type.vectorLevels ≤ type.height := by
  induction type using CqlType.inductionOn with
  | vector element dimensions ih => exact Nat.succ_le_succ ih
  | _ => exact Nat.zero_le _

/-! ## Sizes -/

/-- Every vector multiplies the size by what 16 bits can count. -/
theorem exactSize_le (h : type.exactSize = some size) :
    ∃ base ≤ 16, type.innermost.exactSize = some base ∧
      size ≤ base * 65535 ^ type.vectorLevels := by
  induction type using CqlType.inductionOn generalizing size with
  | native type => exact ⟨size, exactSize_native_le h, h, Nat.le_of_eq (Nat.mul_one size).symm⟩
  | vector element dimensions ih =>
    obtain ⟨part, hpart, rfl⟩ := Option.map_eq_some_iff.mp h
    obtain ⟨base, hbase, hinner, hle⟩ := ih hpart
    have hdimensions : dimensions.toNat ≤ 65535 := Nat.le_of_lt_succ dimensions.toNat_lt
    refine ⟨base, hbase, hinner, ?_⟩
    calc part * dimensions.toNat
        ≤ base * 65535 ^ element.vectorLevels * 65535 := Nat.mul_le_mul hle hdimensions
      _ = base * 65535 ^ (element.vectorLevels + 1) := by rw [Nat.pow_succ, Nat.mul_assoc]
  | _ => cases h

/-- The room that a word leaves. -/
theorem exactSize_lt (hfew : type.FewLevels) (h : type.exactSize = some size) :
    size < UInt64.size := by
  obtain ⟨base, hbase, hinner, hle⟩ := exactSize_le h
  rcases hfew with hthree | ⟨hfour, hsingle⟩
  · calc size
        ≤ base * 65535 ^ type.vectorLevels := hle
      _ ≤ 16 * 65535 ^ 3 := Nat.mul_le_mul hbase (Nat.pow_le_pow_right (by decide) hthree)
      _ < UInt64.size := by decide
  · obtain rfl : base = 1 := Option.some.inj (hinner.symm.trans hsingle)
    rw [hfour] at hle
    exact lt_of_le_of_lt hle (by decide)

theorem sizeFits_of_few (hfew : type.FewLevels) : type.SizeFits := by
  induction type using CqlType.inductionOn with
  | vector element dimensions ih =>
    have hinner : element.FewLevels :=
      .inl (hfew.elim (Nat.le_of_succ_le ·) fun h => (Nat.succ.inj h.1).le)
    refine ⟨ih hinner, fun size hsize => exactSize_lt hfew ?_⟩
    rw [exactSize, hsize, Option.map_some]
  | _ => trivial

end CqlType

/-! ## Vectors of elements whose size does not fit -/

/-- Nothing is coded by a vector of such elements, not even by an empty one: the program gives up
over the size of the elements, before it looks at any of them. -/
structure Uncodable (type : CqlType) : Prop where
  decode : ∀ (dimensions : UInt16) bytes,
    Registry.standard.decode (.vector type dimensions) bytes = .error (.panic .multiplyOverflow)
  encode : ∀ (dimensions : UInt16) v vs, v = .list vs ∨ v = .vector vs →
    vs.length = dimensions.toNat →
      Registry.standard.encode v (some (.vector type dimensions)) =
        .error (.panic .multiplyOverflow)

theorem uncodable_of_tight {type : CqlType} (htight : ¬ type.SizeFits) : Uncodable type where
  decode dimensions bytes := by
    rw [decode_vector, CqlType.fixedSize_of_not_fits htight]
    rfl
  encode dimensions v vs hkind hlength := by
    rw [encode_vectored hkind hlength, CqlType.fixedSize_of_not_fits htight]
    rfl

/-! ## Types in column metadata -/

namespace Descriptor

open CqlType (Occurs FewLevels)

/-- What a word says of the size of any part of a type that was read. As many levels as the limit
lets through multiply it. If the levels are few, or anyhow all products fit, it is counted; and if
not, the program gives up, also whenever it codes a vector of such elements. -/
theorem fixedSize_of_read {limit : Nat} {bytes rest : Bytes} {type : CqlType}
    (hread : read limit bytes = .ok type rest) :
    ∀ part, Occurs part type →
      part.vectorLevels ≤ limit ∧
      (∀ size, part.exactSize = some size → size ≤ 16 * 65535 ^ part.vectorLevels) ∧
      (part.FewLevels → part.SizeFits) ∧
      (part.SizeFits → part.fixedSize = .ok part.exactSize ∧
        ∀ size, part.exactSize = some size → size < 2 ^ 64) ∧
      (¬ part.SizeFits → part.fixedSize = .error .multiplyOverflow ∧ Uncodable part) := by
  intro part hpart
  obtain ⟨_, rfl, hheight, -⟩ := accepts_bounded limit (limit + 1) _ _ _ hread
  have hlevels : part.vectorLevels ≤ limit :=
    calc part.vectorLevels
        ≤ part.height := CqlType.vectorLevels_le_height part
      _ ≤ type.height := hpart.height_le
      _ ≤ limit := Nat.le_of_lt_succ hheight
  refine ⟨hlevels, fun size hsize => ?le, CqlType.sizeFits_of_few, fun hfits => ?counted,
    fun htight => ⟨CqlType.fixedSize_of_not_fits htight, uncodable_of_tight htight⟩⟩
  case le =>
    obtain ⟨base, hbase, -, hle⟩ := CqlType.exactSize_le hsize
    exact hle.trans (Nat.mul_le_mul_right _ hbase)
  case counted => exact ⟨CqlType.fixedSize_of_fits hfits, fun size => hfits.exactSize_lt⟩

/-- Three vectors in each other, of as many elements as they can have. -/
def threeLevels : CqlType :=
  .vector (.vector (.vector (.native .uuid) 65535) 65535) 65535

theorem describable_threeLevels : threeLevels.Describable :=
  .vector (.vector (.vector (.native .uuid) _) _) _ (by decide +kernel)

theorem fixedSize_of_read_threeLevels :
    read defaultDepthLimit (CqlType.list threeLevels).described.wire =
      .ok (.list threeLevels) [] ∧ threeLevels.exactSize = some (16 * 65535 ^ 3) ∧
        threeLevels.FewLevels ∧ threeLevels.vectorLevels ≤ defaultDepthLimit ∧
        threeLevels.fixedSize = .ok (some (16 * 65535 ^ 3)) ∧ 16 * 65535 ^ 3 < 2 ^ 64 := by
  have hread := read_of_describable (.list describable_threeLevels)
    (by decide : _ ≤ defaultDepthLimit)
  have hsize : threeLevels.exactSize = some (16 * 65535 ^ 3) := rfl
  have hfew : threeLevels.FewLevels := .inl (by decide)
  obtain ⟨hlevels, -, hfits, hcount, -⟩ := fixedSize_of_read hread threeLevels
    (.inside (List.mem_singleton_self _) .here)
  obtain ⟨hcounted, hlt⟩ := hcount (hfits hfew)
  exact ⟨hread, hsize, hfew, hlevels, hcounted.trans (congrArg _ hsize), hlt _ hsize⟩

theorem describable_nestedUuids : CqlType.nestedUuids.Describable :=
  .vector (.vector (.vector (.vector (.native .uuid) _) _) _) _ (by decide +kernel)

/-- A type with a size that a word does not hold is read within the default limit. -/
theorem read_nestedUuids :
    read defaultDepthLimit CqlType.nestedUuids.described.wire = .ok CqlType.nestedUuids [] ∧
      CqlType.nestedUuids.exactSize = some (2 ^ 64) ∧
      CqlType.nestedUuids.fixedSize = .error .multiplyOverflow :=
  ⟨read_of_describable describable_nestedUuids (by decide), CqlType.fixedSize_nestedUuids⟩

end Descriptor

end CqlClient
