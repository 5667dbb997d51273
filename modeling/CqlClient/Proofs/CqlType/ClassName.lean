import CqlClient.CqlType.ClassName
import CqlClient.Proofs.Outcome
import CqlClient.Proofs.Text.Pieces

/-!
# Class names and their parameters

What parsing a class name comes down to. Given the name in front of the bracket and the parameters
between the brackets, there is one lemma a class: `parseWithin_plain` for names without parameters,
then `parseWithin_frozen`, `parseWithin_list`, `parseWithin_set`, `parseWithin_map` and
`parseWithin_vector`. The other way round, `made_of_parseWithin` tells from a type which parameters
it was made of, and that these are shorter than the name.
-/

namespace CqlClient.ClassName

open Text (trimBlank)

/-! ## Taking a class name apart -/

/-- Without blanks and package, the text is a name with parameters in brackets. -/
def Applies (cs : List Char) (outer : String) (params : List (List Char)) : Prop :=
  ∃ inner, dropPackage (trimBlank cs) = outer.toList ++ '(' :: (inner ++ [')']) ∧
    parameters inner = params

section Steps

variable {limit room : Nat} {cs param first second : List Char}

theorem parseWithin_zero (limit : Nat) (cs : List Char) :
    parseWithin limit 0 cs = .error (.depthExceeded limit) := by
  rw [parseWithin]

theorem parseWithin_plain (h : '(' ∉ dropPackage (trimBlank cs)) :
    parseWithin limit (room + 1) cs =
      .ok (((native? (String.ofList (dropPackage (trimBlank cs)))).map CqlType.native).getD
        (.custom (String.ofList cs))) := by
  rw [parseWithin, Text.splitOuter_of_not_mem h]
  dsimp only
  cases native? (String.ofList (dropPackage (trimBlank cs))) <;> rfl

theorem parseWithin_frozen (h : Applies cs "FrozenType" [param]) :
    parseWithin limit (room + 1) cs = parseWithin limit room param := by
  obtain ⟨inner, htext, hparams⟩ := h
  rw [parseWithin, htext, Text.splitOuter_append (by decide)]
  simp only [Text.withoutClosing?_append, String.ofList_toList, hparams]

theorem parseWithin_list (h : Applies cs "ListType" [param]) :
    parseWithin limit (room + 1) cs = (do return .list (← parseWithin limit room param)) := by
  obtain ⟨inner, htext, hparams⟩ := h
  rw [parseWithin, htext, Text.splitOuter_append (by decide)]
  simp only [Text.withoutClosing?_append, String.ofList_toList, hparams]

theorem parseWithin_set (h : Applies cs "SetType" [param]) :
    parseWithin limit (room + 1) cs = (do return .set (← parseWithin limit room param)) := by
  obtain ⟨inner, htext, hparams⟩ := h
  rw [parseWithin, htext, Text.splitOuter_append (by decide)]
  simp only [Text.withoutClosing?_append, String.ofList_toList, hparams]

theorem parseWithin_map (h : Applies cs "MapType" [first, second]) :
    parseWithin limit (room + 1) cs =
      (do return .map (← parseWithin limit room first) (← parseWithin limit room second)) := by
  obtain ⟨inner, htext, hparams⟩ := h
  rw [parseWithin, htext, Text.splitOuter_append (by decide)]
  simp only [Text.withoutClosing?_append, String.ofList_toList, hparams]

theorem parseWithin_vector {n : Nat} (h : Applies cs "VectorType" [first, second])
    (hn : Text.unsigned? 0xFFFF (trimBlank second) = some n) :
    parseWithin limit (room + 1) cs =
      (do return .vector (← parseWithin limit room first) (UInt16.ofNat n)) := by
  obtain ⟨inner, htext, hparams⟩ := h
  rw [parseWithin, htext, Text.splitOuter_append (by decide)]
  simp only [Text.withoutClosing?_append, String.ofList_toList, hparams, hn]

end Steps

/-- What a class name is parsed as, given what each parameter is parsed as. Parameters stand in
brackets, so that they are shorter. -/
inductive Made (nested : List Char → CqlType → Prop) (cs : List Char) : CqlType → Prop
  | native (type : Native) : Made nested cs (.native type)
  | custom (className : String) : Made nested cs (.custom className)
  | frozen {inner param : List Char} {type : CqlType} (room : inner.length + 2 ≤ cs.length)
    (params : parameters inner = [param]) (part : nested param type) : Made nested cs type
  | list {inner param : List Char} {element : CqlType} (room : inner.length + 2 ≤ cs.length)
    (params : parameters inner = [param]) (part : nested param element) :
    Made nested cs (.list element)
  | set {inner param : List Char} {element : CqlType} (room : inner.length + 2 ≤ cs.length)
    (params : parameters inner = [param]) (part : nested param element) :
    Made nested cs (.set element)
  | map {inner first second : List Char} {key value : CqlType}
    (room : inner.length + 2 ≤ cs.length) (params : parameters inner = [first, second])
    (keys : nested first key) (values : nested second value) : Made nested cs (.map key value)
  | vector {inner first second : List Char} {element : CqlType} (dimensions : UInt16)
    (room : inner.length + 2 ≤ cs.length) (params : parameters inner = [first, second])
    (part : nested first element) : Made nested cs (.vector element dimensions)

theorem length_dropPackage_le (cs : List Char) : (dropPackage cs).length ≤ cs.length := by
  rw [dropPackage]
  split
  · rw [List.length_drop]
    omega
  · exact Nat.le_refl _

theorem made_of_parseWithin {limit room : Nat} {cs : List Char} {type : CqlType}
    (h : parseWithin limit (room + 1) cs = .ok type) :
    Made (fun param part => parseWithin limit room param = .ok part) cs type := by
  have hlength := Nat.le_trans (length_dropPackage_le (trimBlank cs)) (Text.length_trimBlank_le cs)
  rw [parseWithin] at h
  split at h
  · split at h
    · cases h
      exact .native _
    · cases h
      exact .custom _
  · rename_i outer tail hsplit
    split at h
    · cases h
    · rename_i inner hclosed
      have hroom : inner.length + 2 ≤ cs.length := by
        rw [Text.eq_of_splitOuter hsplit, Text.eq_of_withoutClosing? hclosed] at hlength
        simp only [List.length_append, List.length_cons, List.length_nil] at hlength
        omega
      split at h
      · rename_i hparams
        obtain ⟨element, helement, h⟩ := bind_eq_ok.mp h
        split at h
        · cases h
          exact .vector _ hroom hparams helement
        · cases h
      · cases h
      · rename_i hparams
        obtain ⟨element, helement, h⟩ := bind_eq_ok.mp h
        cases h
        exact .list hroom hparams helement
      · rename_i hparams
        obtain ⟨element, helement, h⟩ := bind_eq_ok.mp h
        cases h
        exact .set hroom hparams helement
      · rename_i hparams
        obtain ⟨key, hkey, h⟩ := bind_eq_ok.mp h
        obtain ⟨value, hvalue, h⟩ := bind_eq_ok.mp h
        cases h
        exact .map hroom hparams hkey hvalue
      · rename_i hparams
        exact .frozen hroom hparams h
      · cases h
        exact .custom _

end CqlClient.ClassName
