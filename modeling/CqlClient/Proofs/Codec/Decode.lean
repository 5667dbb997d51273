import CqlClient.Codec.Decode
import CqlClient.Proofs.Codec.Scalar
import CqlClient.Proofs.Fronts

/-!
# What containers read

Readers of the parts of containers, against the bytes that a part is framed with:

* `reads_readElement`, `reads_readField`, `reads_readLateField`: parts behind their length;
* `decodeTuple_eq`, `decodeFields_eq`: fields are read one by one, each by its own type.
-/

namespace CqlClient

open Codec Scalar

section Parts

variable {decode : PartDecoder} {bytes : Bytes} {v : Value}

theorem reads_readElement (hd : decode bytes = .ok v) (hlen : bytes.length ≤ Wire.maxInt32) :
    Reads (readElement decode) (Wire.writeBytes bytes) v :=
  (reads_wire (reads_optionalBytes hlen)).bind_nil (reads_ofExcept hd)

theorem reads_readField (hd : decode bytes = .ok v) (hlen : bytes.length ≤ Wire.maxInt32) :
    Reads (readField decode) (Wire.writeBytes bytes) (some v) :=
  (reads_wire (reads_optionalBytes hlen)).bind_nil ((reads_ofExcept hd).map some)

theorem reads_readField_null : Reads (readField decode) Wire.null none :=
  (reads_wire reads_optionalBytes_null).bind_nil (reads_pure none)

/-- A field that is there is read as any other. -/
theorem reads_readLateField {part : Bytes} {field : Option Value} (hne : part ≠ [])
    (hr : Reads (readField decode) part field) : Reads (readLateField decode) part field := by
  intro rest
  have hrest : (part ++ rest).isEmpty = false := by
    cases part with
    | nil => exact absurd rfl hne
    | cons b part => rfl
  have hread : readLateField decode (part ++ rest) = readField decode (part ++ rest) := by
    show (if (part ++ rest).isEmpty then (pure none : Reader DecodeFault _)
      else readField decode) (part ++ rest) = _
    rw [hrest]
    rfl
  rw [hread]
  exact hr rest

theorem reads_readCount {n : Nat} (h : n ≤ Wire.maxInt32) :
    Reads readCount (Bytes.ofNat 4 n) n := by
  rw [← ofInt32_ofNat h]
  have hn := (reads_wire (reads_int32 (Int32.ofNat n))).bind (f := fun n : Int32 =>
    if n < 0 then throw (.invalid (.negativeCount n)) else pure n.toInt.toNat) (b := n) (by
      rw [if_neg (not_int32_ofNat_neg h), toInt_int32_ofNat h]
      exact reads_pure n)
  rwa [List.append_nil] at hn

theorem reads_readComponent_bare (hd : decode bytes = .ok v) :
    Reads (readComponent (some bytes.length) decode) bytes v := by
  have h := (reads_wire (reads_raw (rfl : bytes.length = bytes.length))).bind
    (f := fun bytes => Reader.ofExcept (decode bytes)) (reads_ofExcept hd)
  rwa [List.append_nil] at h

theorem reads_readComponent_vint (hd : decode bytes = .ok v) (hlen : bytes.length < UInt64.size) :
    Reads (readComponent none decode)
      (Vint.writeUnsigned (UInt64.ofNat bytes.length) ++ bytes) v := by
  have hsize : (UInt64.ofNat bytes.length).toNat = bytes.length := by
    rw [UInt64.toNat_ofNat', Nat.mod_eq_of_lt hlen]
  have h := (reads_wire (reads_raw hsize.symm)).bind
    (f := fun bytes => Reader.ofExcept (decode bytes)) (reads_ofExcept hd)
  rw [List.append_nil] at h
  have hn := (reads_wire (Vint.reads_readUnsigned (UInt64.ofNat bytes.length))).map UInt64.toNat
  rw [bind_pure_comp] at hn
  exact hn.bind h

end Parts

/-! ## Fields one by one -/

theorem decodeTuple_eq (r : Registry) (types : List CqlType) (done : List (Option Value)) :
    decodeTuple r types done = (do
      let fields ← types.mapM fun type => readField (r.decode type)
      nothingLeft "tuple"
      return done.reverse ++ fields) := by
  induction types generalizing done with
  | nil => simp [decodeTuple]
  | cons type types ih =>
    rw [decodeTuple, List.mapM_cons, bind_assoc]
    congr 1
    funext field
    rw [ih]
    simp

theorem decodeFields_eq (r : Registry) (types : List (String × CqlType))
    (done : List (String × Option Value)) :
    decodeFields r types done = (do
      let fields ← types.mapM fun field => do
        return (field.1, ← readLateField (r.decode field.2))
      nothingLeft "udt"
      return done.reverse ++ fields) := by
  induction types generalizing done with
  | nil => simp [decodeFields]
  | cons field types ih =>
    obtain ⟨name, type⟩ := field
    rw [decodeFields, List.mapM_cons, bind_assoc, bind_assoc]
    congr 1
    funext field
    rw [ih]
    simp

end CqlClient
