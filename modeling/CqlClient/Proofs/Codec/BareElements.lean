import CqlClient.Proofs.Codec.Acceptance
import Mathlib.Data.List.SplitLengths

/-!
# Elements that stand bare in a vector

Nothing but the size of its type says where an element of a fixed size ends. So the table of sizes,
which stands apart from the codecs, has to agree with all of them.

* `cutEvery_flatten`: parts of one length are found again in their concatenation;
* `encode_bare`: a vector of such elements is written as if their lengths were not compared;
* `fixedSize_exact`: every encoding has the size, and the elements of a vector are its pieces.
-/

namespace CqlClient

open Codec

/-! ## Pieces of one length -/

/-- The bytes cut so many times, each time after as many of them. -/
def cutEvery (size count : Nat) (bytes : Bytes) : List Bytes :=
  (List.replicate count size).splitLengths bytes

theorem cutEvery_flatten {size : Nat} {parts : List Bytes}
    (heach : ∀ part ∈ parts, part.length = size) :
    cutEvery size parts.length parts.flatten = parts := by
  induction parts with
  | nil => rfl
  | cons part parts ih =>
    obtain ⟨hfirst, hrest⟩ := List.forall_mem_cons.mp heach
    have hrest := ih hrest
    rw [cutEvery] at hrest ⊢
    rw [List.length_cons, List.replicate_succ, List.splitLengths_cons, List.flatten_cons,
      List.take_left' hfirst, List.drop_left' hfirst, hrest]

theorem sized_of_mapM {α : Type} {write : α → Except EncodeFault Bytes} {size : Nat}
    {as : List α} {parts : List Bytes} (hwritten : as.mapM write = .ok parts)
    (heach : ∀ a part, write a = .ok part → part.length = size) :
    parts.length = as.length ∧ ∀ part ∈ parts, part.length = size := by
  induction as generalizing parts with
  | nil =>
    obtain rfl := mapM_nil_eq_ok.mp hwritten
    exact ⟨rfl, List.forall_mem_nil _⟩
  | cons a as ih =>
    obtain ⟨part, others, hpart, hothers, rfl⟩ := mapM_cons_eq_ok.mp hwritten
    obtain ⟨hwidth, hrest⟩ := ih hothers
    exact ⟨congrArg Nat.succ hwidth, List.forall_mem_cons.mpr ⟨heach a part hpart, hrest⟩⟩

/-! ## Vectors -/

section Vectors

variable {type : CqlType} {size : Nat} (hfixed : type.fixedSize = .ok (some size))
include hfixed

/-- The length that is compared is always the size. -/
theorem bare_of_encode {v : Value} {bytes : Bytes}
    (h : Registry.standard.encode v (some type) = .ok bytes) :
    Framing.bare size v bytes = .ok bytes :=
  if_pos (length_of_encode (CqlType.exactSize_of_fixedSize hfixed) h)

theorem encodeFramed_eq_encode (v : Value) :
    Registry.standard.encodeFramed (vectorFraming (some size)) (some type) v =
      Registry.standard.encode v (some type) := by
  rw [Registry.encodeFramed]
  cases h : Registry.standard.encode v (some type) with
  | error fault => rfl
  | ok bytes => exact bare_of_encode hfixed h

variable {dimensions : UInt16} {v : Value} {vs : List Value} {bytes : Bytes}

theorem encode_bare (hkind : v = .list vs ∨ v = .vector vs)
    (hwidth : vs.length = dimensions.toNat) :
    Registry.standard.encode v (some (.vector type dimensions)) =
      List.flatten <$> vs.mapM fun w => Registry.standard.encode w (some type) := by
  rw [encode_vectored hkind hwidth, hfixed]
  exact congrArg (List.flatten <$> ·) (mapM_congr fun w _ => encodeFramed_eq_encode hfixed w)

theorem cutEvery_of_encode (hkind : v = .list vs ∨ v = .vector vs)
    (h : Registry.standard.encode v (some (.vector type dimensions)) = .ok bytes) :
    (vs.mapM fun w => Registry.standard.encode w (some type)) =
      .ok (cutEvery size dimensions.toNat bytes) := by
  have hwidth : vs.length = dimensions.toNat := by
    obtain ⟨ws, hother, hwidth⟩ := vectored_of_encode h
    rcases hkind with rfl | rfl <;> rcases hother with hsame | hsame <;> cases hsame <;>
      exact hwidth
  rw [encode_bare hfixed hkind hwidth] at h
  obtain ⟨parts, hwritten, rfl⟩ := map_eq_ok.mp h
  obtain ⟨halike, hsized⟩ := sized_of_mapM hwritten fun w part =>
    length_of_encode (CqlType.exactSize_of_fixedSize hfixed)
  rw [hwritten, ← hwidth, ← halike, cutEvery_flatten hsized]

theorem cutEvery_of_decode
    (h : Registry.standard.decode (.vector type dimensions) bytes = .ok (.vector vs)) :
    (cutEvery size dimensions.toNat bytes).mapM (Registry.standard.decode type) = .ok vs := by
  obtain ⟨-, made, hmade, hsame⟩ := decode_vector_eq_ok.mp h
  rw [CqlType.exactSize_of_fixedSize hfixed] at hmade
  cases hsame
  obtain ⟨parts, rfl, hwidth, hsized, hread⟩ := mapM_of_components hmade
  rw [← hwidth, cutEvery_flatten hsized]
  exact hread

end Vectors

/-- Values of the type stand bare in vectors, one behind the other: no length is ever found to be
another than the size, and cutting gives back what each of them is written in and read from. -/
structure StandsBare (type : CqlType) (size : Nat) : Prop where
  framing : (elementSize (some type)).map vectorFraming = .ok (.bare size)
  compared : ∀ v bytes, Registry.standard.encode v (some type) = .ok bytes →
    Framing.bare size v bytes = .ok bytes
  unframed : ∀ (dimensions : UInt16) v vs, v = .list vs ∨ v = .vector vs →
    vs.length = dimensions.toNat →
      Registry.standard.encode v (some (.vector type dimensions)) =
        List.flatten <$> vs.mapM fun w => Registry.standard.encode w (some type)
  written : ∀ (dimensions : UInt16) v vs bytes, v = .list vs ∨ v = .vector vs →
    Registry.standard.encode v (some (.vector type dimensions)) = .ok bytes →
      (vs.mapM fun w => Registry.standard.encode w (some type)) =
        .ok (cutEvery size dimensions.toNat bytes)
  read : ∀ (dimensions : UInt16) bytes vs,
    Registry.standard.decode (.vector type dimensions) bytes = .ok (.vector vs) →
      (cutEvery size dimensions.toNat bytes).mapM (Registry.standard.decode type) = .ok vs

theorem standsBare {type : CqlType} {size : Nat} (hfixed : type.fixedSize = .ok (some size)) :
    StandsBare type size where
  framing := by
    rw [elementSize, hfixed]
    rfl
  compared _ _ := bare_of_encode hfixed
  unframed _ _ _ := encode_bare hfixed
  written _ _ _ _ := cutEvery_of_encode hfixed
  read _ _ _ := cutEvery_of_decode hfixed

/-- A size that is counted without overflow is a number that fits into a word and the length of
every encoding, and nothing of another length is read; and so vectors need no lengths between values
of the type. -/
theorem fixedSize_exact {type : CqlType} {size : Nat} (hfixed : type.fixedSize = .ok (some size)) :
    (type.exactSize = some size ∧ size < UInt64.size) ∧
    (∀ v bytes, Registry.standard.encode v (some type) = .ok bytes → bytes.length = size) ∧
    (∀ bytes v, Registry.standard.decode type bytes = .ok v → bytes.length = size) ∧
    StandsBare type size := by
  obtain ⟨hfits, hwhole⟩ := CqlType.fixedSize_eq_ok.mp hfixed
  exact ⟨⟨hwhole, hfits.exactSize_lt hwhole⟩, fun _ _ => length_of_encode hwhole,
    fun _ _ => length_of_decode hwhole, standsBare hfixed⟩

/-- Three pairs of numbers of two bytes each. -/
theorem fixedSize_exact_pairs :
    let pair := CqlType.vector (.native .smallint) 2
    let first := Value.vector [.smallint 1, .smallint 2]
    let second := Value.list [.smallint 3, .smallint (-1)]
    pair.fixedSize = .ok (some 4) ∧
      Registry.standard.encode second (some pair) = .ok [0, 3, 255, 255] ∧
      [0, 3, 255, 255].length = 4 ∧
      Registry.standard.encode (.vector [first, second, first]) (some (.vector pair 3)) =
        .ok [0, 1, 0, 2, 0, 3, 255, 255, 0, 1, 0, 2] ∧
      ([first, second, first].mapM fun v => Registry.standard.encode v (some pair)) =
        .ok [[0, 1, 0, 2], [0, 3, 255, 255], [0, 1, 0, 2]] := by
  intro pair first second
  have hfixed : pair.fixedSize = .ok (some 4) := rfl
  have hencoded : Registry.standard.encode second (some pair) = .ok [0, 3, 255, 255] := rfl
  have hall : Registry.standard.encode (.vector [first, second, first]) (some (.vector pair 3)) =
      .ok [0, 1, 0, 2, 0, 3, 255, 255, 0, 1, 0, 2] := rfl
  obtain ⟨-, hlength, -, hbare⟩ := fixedSize_exact hfixed
  exact ⟨hfixed, hencoded, hlength _ _ hencoded, hall, hbare.written 3 _ _ _ (.inr rfl) hall⟩

end CqlClient
