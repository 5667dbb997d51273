import CqlClient.Text.Pieces
import Mathlib.Algebra.Ring.Nat
import Mathlib.Data.List.Basic
import Mathlib.Data.List.TakeWhile

/-!
# Texts trimmed, and cut at their outer commas

* `Text.trimBlank_pad`: blanks around a text do not change what trimming leaves of it;
* `Text.Whole`: scanning a text from some depth cuts it nowhere and comes back to that depth; a text
  in brackets is whole if what it encloses is whole one level further in;
* `Text.pieces_of_whole`, `Text.pieces_cons`: such texts, with commas between them, are the pieces;
* `Text.sum_length_pieces`: no character is lost but the commas.
-/

namespace CqlClient.Text

/-! ## Blanks at the ends -/

def AllBlank (cs : List Char) : Prop := ∀ c ∈ cs, isBlank c = true

instance (cs : List Char) : Decidable (AllBlank cs) := decidable_of_iff _ List.all_eq_true

theorem exists_trimBlank (cs : List Char) : ∃ before after, AllBlank before ∧ AllBlank after ∧
    cs = before ++ (trimBlank cs ++ after) := by
  refine ⟨cs.takeWhile isBlank, ((cs.dropWhile isBlank).reverse.takeWhile isBlank).reverse,
    fun c hc => List.mem_takeWhile_imp hc, fun c hc => ?_, ?_⟩
  · exact List.mem_takeWhile_imp (List.mem_reverse.mp hc)
  · rw [trimBlank, ← List.reverse_append, List.takeWhile_append_dropWhile, List.reverse_reverse,
      List.takeWhile_append_dropWhile]

/-- Blanks around a text do not change what trimming leaves of it. -/
theorem trimBlank_pad {before after : List Char} (hbefore : AllBlank before)
    (hafter : AllBlank after) (cs : List Char) :
    trimBlank (before ++ (cs ++ after)) = trimBlank cs := by
  have hback : AllBlank after.reverse := fun c hc => hafter c (List.mem_reverse.mp hc)
  rw [trimBlank, trimBlank, List.dropWhile_append_of_pos hbefore, List.dropWhile_append]
  split
  · rename_i hempty
    rw [List.isEmpty_iff.mp hempty, ← List.append_nil after, List.dropWhile_append_of_pos hafter]
    rfl
  · rw [List.reverse_append, List.dropWhile_append_of_pos hback]

theorem trimBlank_trimBlank (cs : List Char) : trimBlank (trimBlank cs) = trimBlank cs := by
  obtain ⟨before, after, hbefore, hafter, hcs⟩ := exists_trimBlank cs
  have htrim := trimBlank_pad hbefore hafter (trimBlank cs)
  rw [← hcs] at htrim
  exact htrim.symm

theorem length_trimBlank_le (cs : List Char) : (trimBlank cs).length ≤ cs.length := by
  obtain ⟨before, after, -, -, hcs⟩ := exists_trimBlank cs
  have hlength := congrArg List.length hcs
  rw [List.length_append, List.length_append] at hlength
  omega

/-- There is nothing to trim where the first and the last character are not blank. -/
theorem trimBlank_eq_self {cs : List Char} (hfirst : ∀ c ∈ cs.head?, isBlank c = false)
    (hlast : ∀ c ∈ cs.getLast?, isBlank c = false) : trimBlank cs = cs := by
  have hdrop {ds : List Char} (h : ∀ c ∈ ds.head?, isBlank c = false) :
      ds.dropWhile isBlank = ds := by
    cases ds with
    | nil => rfl
    | cons d ds => exact List.dropWhile_cons_of_neg (by simp [h d rfl])
  rw [trimBlank, hdrop hfirst, hdrop (by rwa [List.head?_reverse]), List.reverse_reverse]

/-! ## Pieces -/

section Pieces

variable {opening closing : Char} {depth : Nat} {cs ds : List Char}

/-- The text is passed over: it is not cut, and the depth after it is the depth before. -/
def Whole (opening closing : Char) (depth : Nat) (cs : List Char) : Prop :=
  ∀ piece rest, piecesFrom opening closing depth piece (cs ++ rest) =
    piecesFrom opening closing depth (cs.reverse ++ piece) rest

theorem whole_nil : Whole opening closing depth [] := fun _ _ => rfl

theorem Whole.append (hcs : Whole opening closing depth cs) (hds : Whole opening closing depth ds) :
    Whole opening closing depth (cs ++ ds) := by
  intro piece rest
  rw [List.append_assoc, hcs, hds, List.reverse_append, List.append_assoc]

/-- A comma is passed over inside of brackets only. -/
theorem whole_singleton {c : Char} (hopening : c ≠ opening) (hclosing : c ≠ closing)
    (hcomma : c = ',' → 0 < depth) : Whole opening closing depth [c] := by
  intro piece rest
  have houter : (decide (c = ',') && depth == 0) = false := by
    rw [Bool.and_eq_false_imp]
    intro h
    exact beq_eq_false_iff_ne.mpr (Nat.ne_of_gt (hcomma (of_decide_eq_true h)))
  rw [List.singleton_append, piecesFrom, if_neg hopening, if_neg hclosing, houter,
    if_neg Bool.false_ne_true]
  rfl

theorem whole_of_plain (h : ∀ c ∈ cs, c ≠ opening ∧ c ≠ closing ∧ c ≠ ',') :
    Whole opening closing depth cs := by
  induction cs with
  | nil => exact whole_nil
  | cons c cs ih =>
    rw [List.forall_mem_cons] at h
    obtain ⟨⟨hopening, hclosing, hcomma⟩, hrest⟩ := h
    exact (whole_singleton hopening hclosing fun heq => absurd heq hcomma).append (ih hrest)

/-- What is whole one level further in is whole in brackets. -/
theorem Whole.enclosed (hne : closing ≠ opening) (h : Whole opening closing (depth + 1) cs) :
    Whole opening closing depth (opening :: (cs ++ [closing])) := by
  intro piece rest
  rw [List.cons_append, piecesFrom, if_pos rfl, List.append_assoc, h, List.singleton_append,
    piecesFrom, if_neg hne, if_pos rfl, Nat.add_sub_cancel, List.reverse_cons, List.reverse_append]
  simp

theorem pieces_of_whole (h : Whole opening closing 0 cs) : pieces opening closing cs = [cs] := by
  have hscan := h [] []
  rw [List.append_nil, List.append_nil] at hscan
  rw [pieces, hscan, piecesFrom, List.reverse_reverse]

theorem pieces_cons (h : Whole opening closing 0 cs) (hopening : opening ≠ ',')
    (hclosing : closing ≠ ',') (rest : List Char) :
    pieces opening closing (cs ++ ',' :: rest) = cs :: pieces opening closing rest := by
  rw [pieces, h, piecesFrom, if_neg (Ne.symm hopening), if_neg (Ne.symm hclosing), List.append_nil,
    List.reverse_reverse]
  rfl

theorem sum_length_piecesFrom (depth : Nat) (piece cs : List Char) :
    ((piecesFrom opening closing depth piece cs).map (·.length + 1)).sum =
      piece.length + cs.length + 1 := by
  induction cs generalizing depth piece with
  | nil => simp [piecesFrom]
  | cons c cs ih =>
    rw [piecesFrom]
    split
    · rw [ih, List.length_cons, List.length_cons]
      omega
    · split
      · rw [ih, List.length_cons, List.length_cons]
        omega
      · split
        · rw [List.map_cons, List.sum_cons, ih, List.length_reverse, List.length_nil,
            List.length_cons]
          omega
        · rw [ih, List.length_cons, List.length_cons]
          omega

/-- Every character is in one piece, or is a comma between two. -/
theorem sum_length_pieces (opening closing : Char) (cs : List Char) :
    ((pieces opening closing cs).map (·.length + 1)).sum = cs.length + 1 := by
  rw [pieces, sum_length_piecesFrom, List.length_nil, Nat.zero_add]

end Pieces

/-! ## Brackets -/

theorem splitOuter_of_not_mem {opening : Char} {cs : List Char} (h : opening ∉ cs) :
    splitOuter opening cs = (cs, none) := by
  have hdrop : cs.dropWhile (· ≠ opening) = [] := by
    rw [List.dropWhile_eq_nil_iff]
    intro c hc
    exact decide_eq_true fun heq => h (heq ▸ hc)
  rw [splitOuter, hdrop]

theorem splitOuter_append {opening : Char} {outer : List Char} (h : opening ∉ outer)
    (inner : List Char) :
    splitOuter opening (outer ++ opening :: inner) = (outer, some inner) := by
  have hall : ∀ c ∈ outer, decide (c ≠ opening) = true := fun c hc =>
    decide_eq_true fun heq => h (heq ▸ hc)
  have hdrop : (outer ++ opening :: inner).dropWhile (· ≠ opening) = opening :: inner := by
    rw [List.dropWhile_append_of_pos hall]
    simp
  have htake : (outer ++ opening :: inner).takeWhile (· ≠ opening) = outer := by
    rw [List.takeWhile_append_of_pos hall]
    simp
  rw [splitOuter, hdrop, htake]

/-- Where there is a bracket, the text is cut in two at the first one. -/
theorem eq_of_splitOuter {opening : Char} {cs outer inner : List Char}
    (h : splitOuter opening cs = (outer, some inner)) : cs = outer ++ opening :: inner := by
  rw [splitOuter] at h
  cases hdrop : cs.dropWhile (· ≠ opening) with
  | nil =>
    rw [hdrop] at h
    cases h
  | cons c rest =>
    rw [hdrop] at h
    cases h
    have hc : c = opening := by
      have := List.head?_dropWhile_not (· ≠ opening) cs
      rw [hdrop] at this
      simpa using this
    subst hc
    rw [← hdrop, List.takeWhile_append_dropWhile]

theorem withoutClosing?_append (closing : Char) (cs : List Char) :
    withoutClosing? closing (cs ++ [closing]) = some cs := by
  rw [withoutClosing?, if_pos List.getLast?_concat, List.dropLast_concat]

theorem eq_of_withoutClosing? {closing : Char} {cs inner : List Char}
    (h : withoutClosing? closing cs = some inner) : cs = inner ++ [closing] := by
  rw [withoutClosing?] at h
  split at h
  · rename_i hlast
    cases h
    exact (List.dropLast_append_getLast? closing hlast).symm
  · cases h

end CqlClient.Text
