import CqlClient.Bytes

/-!
UTF-8 text in byte strings. Decoding accepts exactly valid UTF-8 and undoes encoding; a refusal
says where the valid part ends and how much of what follows can never be completed.
-/

namespace CqlClient.Utf8

/-- Where bytes stop being UTF-8, after `index` valid ones. -/
inductive Fault where
  /-- The next `length` bytes start no character. -/
  | invalid (length index : Nat)
  /-- The input ends inside a character. -/
  | incomplete (index : Nat)
  deriving DecidableEq

def Fault.message : Fault → String
  | .invalid length index =>
    "invalid utf-8 sequence of " ++ toString length ++ " bytes from index " ++ toString index
  | .incomplete index => "incomplete utf-8 byte sequence from index " ++ toString index

/-- The bytes that may follow a leading byte: the range of the second one, and how many
continuation bytes come after it. -/
def afterLead (lead : UInt8) : Option (UInt8 × UInt8 × Nat) :=
  if 0xC2 ≤ lead ∧ lead ≤ 0xDF then some (0x80, 0xBF, 0)
  else if lead = 0xE0 then some (0xA0, 0xBF, 1)
  else if lead = 0xED then some (0x80, 0x9F, 1)
  else if 0xE1 ≤ lead ∧ lead ≤ 0xEF then some (0x80, 0xBF, 1)
  else if lead = 0xF0 then some (0x90, 0xBF, 2)
  else if 0xF1 ≤ lead ∧ lead ≤ 0xF3 then some (0x80, 0xBF, 2)
  else if lead = 0xF4 then some (0x80, 0x8F, 2)
  else none

/-- How far a character is from its leading byte. -/
inductive Progress where
  | between
  /-- `seen` bytes of the character are read, the next one lies in a range, `owed` more follow. -/
  | inside (seen : Nat) (low high : UInt8) (owed : Nat)

/-- Looks for the first fault, from a number of valid bytes and the progress after them. -/
def findFault : Progress → Nat → Bytes → Option Fault
  | .between, _, [] => none
  | .inside .., index, [] => some (.incomplete index)
  | .between, index, b :: rest =>
    if b < 0x80 then findFault .between (index + 1) rest
    else match afterLead b with
      | none => some (.invalid 1 index)
      | some (low, high, owed) => findFault (.inside 1 low high owed) index rest
  | .inside seen low high owed, index, b :: rest =>
    if low ≤ b ∧ b ≤ high then
      match owed with
      | 0 => findFault .between (index + seen + 1) rest
      | owed + 1 => findFault (.inside (seen + 1) 0x80 0xBF owed) index rest
    else some (.invalid seen index)

def encode (s : String) : Bytes := s.toByteArray.data.toList

def decode (bytes : Bytes) : Except Fault String :=
  if h : bytes.toByteArray.IsValidUTF8 then .ok (String.ofByteArray bytes.toByteArray h)
  else .error ((findFault .between 0 bytes).getD (.incomplete bytes.length))

theorem decode_encode (s : String) : decode (encode s) = .ok s := by
  have h : (encode s).toByteArray = s.toByteArray := by
    apply ByteArray.ext
    simp [encode, List.data_toByteArray]
  simp [decode, h, s.isValidUTF8]

theorem encode_of_decode {bytes : Bytes} {s : String} (h : decode bytes = .ok s) :
    encode s = bytes := by
  unfold decode at h
  split at h
  · injection h with h
    subst h
    simp [encode, List.data_toByteArray]
  · cases h

theorem encode_eq_flatMap (s : String) : encode s = s.toList.flatMap String.utf8EncodeChar := by
  rw [encode, ← String.utf8Encode_toList, List.utf8Encode]
  simp [List.data_toByteArray]

/-- Every character takes a byte at least. -/
theorem length_le_encode (s : String) : s.toList.length ≤ (encode s).length := by
  rw [encode_eq_flatMap]
  induction s.toList with
  | nil => exact Nat.le_refl 0
  | cons c cs ih =>
    have hc : 1 ≤ (String.utf8EncodeChar c).length := by
      rw [String.length_utf8EncodeChar]
      exact c.utf8Size_pos
    rw [List.flatMap_cons, List.length_append, List.length_cons]
    omega

end CqlClient.Utf8
