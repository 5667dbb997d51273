import CqlClient.Text.Number

/-!
# Numbers in text

A number without a sign is read from decimal digits, after a plus sign at most, and from nothing
else.

* `Text.digits?_eq`, `Text.digits?_eq_some`: digits are read as the number that they write;
* `Text.unsigned?_eq_some`: which texts are read, and as which number.
-/

namespace CqlClient.Text

/-- The text is the number in decimal digits, after a plus sign at most. -/
def IsUnsigned (cs : List Char) (n : Nat) : Prop :=
  ∃ digits, (cs = digits ∨ cs = '+' :: digits) ∧ digits ≠ [] ∧
    (∀ c ∈ digits, '0' ≤ c ∧ c ≤ '9') ∧ n = Nat.ofDigitChars 10 digits 0

variable {cs : List Char} {n max : Nat}

theorem digits?_eq (hne : cs ≠ []) (hdigits : ∀ c ∈ cs, c.isDigit = true) :
    digits? cs = some (Nat.ofDigitChars 10 cs 0) := by
  have hfold : (fun n c => n * 10 + digitValue c) =
      fun n c => 10 * n + (c.toNat - '0'.toNat) := by
    funext n c
    rw [Nat.mul_comm, digitValue]
  rw [digits?, List.isEmpty_eq_false_iff.mpr hne, List.all_eq_true.mpr hdigits,
    Nat.ofDigitChars_eq_foldl, hfold]
  rfl

theorem isDigit_iff {c : Char} : c.isDigit = true ↔ '0' ≤ c ∧ c ≤ '9' := by
  rw [Char.isDigit, Bool.and_eq_true, decide_eq_true_iff, decide_eq_true_iff]
  rfl

theorem digits?_eq_some : digits? cs = some n ↔
    cs ≠ [] ∧ (∀ c ∈ cs, '0' ≤ c ∧ c ≤ '9') ∧ n = Nat.ofDigitChars 10 cs 0 := by
  simp only [← isDigit_iff]
  constructor
  · intro h
    have hdigits : cs ≠ [] ∧ ∀ c ∈ cs, c.isDigit = true := by
      unfold digits? at h
      split at h
      · cases h
      next hcs => simpa using hcs
    rw [digits?_eq hdigits.1 hdigits.2] at h
    exact ⟨hdigits.1, hdigits.2, (Option.some.inj h).symm⟩
  · rintro ⟨hne, hdigits, rfl⟩
    exact digits?_eq hne hdigits

theorem unsigned?_eq_some : unsigned? max cs = some n ↔ IsUnsigned cs n ∧ n ≤ max := by
  unfold unsigned?
  rw [Option.filter_eq_some_iff, decide_eq_true_iff]
  refine and_congr_left' ?_
  split
  next rest =>
    rw [digits?_eq_some]
    constructor
    · exact fun h => ⟨rest, .inr rfl, h⟩
    · rintro ⟨digits, heq | heq, hne, hdigits, hn⟩
      · -- A plus sign is no digit.
        have hsign := hdigits '+' (heq ▸ List.mem_cons_self ..)
        exact absurd hsign (by decide)
      · cases heq
        exact ⟨hne, hdigits, hn⟩
  next hcs =>
    rw [digits?_eq_some]
    constructor
    · exact fun h => ⟨cs, .inl rfl, h⟩
    · rintro ⟨digits, rfl | rfl, h⟩
      · exact h
      · exact absurd rfl (hcs digits)

end CqlClient.Text
