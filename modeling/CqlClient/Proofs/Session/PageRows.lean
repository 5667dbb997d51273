import CqlClient.Row.Iterator
import CqlClient.Session.Cursor
import Mathlib.Logic.Function.Iterate

/-!
# Two readers of one page

The rows of a page are read by an iterator, which leaves to its caller the bytes after the last row,
or are taken from the page itself, which refuses the last row for them. Both move through the bytes
in the same way: `RowIterator.page` is the page that is as far as the iterator.

* `RowIterator.collect_eq`: what is collected from an iterator is what its calls give;
* `RowIterator.next_page`: one call of each, and one page again;
* `RowIterator.item_page`: a page hands out what the iterator is judged to hand out;
* `RowIterator.item_page_of_trails`, `RowIterator.item_page_of_not_trails`: the judgement changes
  nothing but the last row, and that only if bytes are left after it;
* `Page.item_eq_iterator_item`: both compared, call by call.
-/

namespace CqlClient

/-- Calls give `count` items at most; nothing is given after a fault, nor once nothing was. -/
structure Handout {ε : Type} (count : Nat) (item : Nat → Option (Except ε Row)) : Prop where
  bounded : ∀ k, count ≤ k → item k = none
  ended : ∀ j k, j ≤ k → item j = none → item k = none
  failed : ∀ j k fault, j < k → item j = some (.error fault) → item k = none

/-! ## The iterator -/

namespace RowIterator

/-- The iterator after some calls. -/
def after (it : RowIterator) (calls : Nat) : RowIterator := (fun it => it.next.2)^[calls] it

/-- What a call gives after that many others. -/
def item (it : RowIterator) (calls : Nat) : Option (Except RowDecodeFault Row) :=
  (it.after calls).next.1

/-- All rows that are announced can be read, one at least, and that many bytes are left then. -/
structure Trails (it : RowIterator) (n : Nat) : Prop where
  positive : 0 < n
  announced : 0 < it.remaining
  readable : ∀ k < it.remaining, ∃ row, it.item k = some (.ok row)
  left : (it.after it.remaining).content.length = n

variable {it : RowIterator}

theorem next_of_zero (h : it.remaining = 0) : it.next = (none, it) := by
  rw [next, h]

theorem next_of_error {n : Nat} {fault : RowDecodeFault} {rest : Bytes}
    (h : it.remaining = n + 1)
    (hread : Row.read it.registry it.columns it.content = .error fault rest) :
    it.next = (some (.error fault), { it with content := rest, remaining := 0 }) := by
  rw [next, h]
  simp only [hread]

theorem next_of_ok {n : Nat} {row : Row} {rest : Bytes} (h : it.remaining = n + 1)
    (hread : Row.read it.registry it.columns it.content = .ok row rest) :
    it.next = (some (.ok row), { it with content := rest, remaining := n }) := by
  rw [next, h]
  simp only [hread]

theorem after_succ (it : RowIterator) (k : Nat) : it.after (k + 1) = (it.after k).next.2 :=
  Function.iterate_succ_apply' _ _ _

/-- What a call does: nothing, an end with a fault, or one row less. -/
theorem next_cases (it : RowIterator) :
    (it.remaining = 0 ∧ it.next = (none, it)) ∨
    (∃ fault, it.next.1 = some (.error fault) ∧ it.next.2.remaining = 0) ∨
    ∃ row, it.next.1 = some (.ok row) ∧ it.remaining = it.next.2.remaining + 1 := by
  cases hremaining : it.remaining with
  | zero => exact .inl ⟨rfl, next_of_zero hremaining⟩
  | succ n =>
    cases hread : Row.read it.registry it.columns it.content with
    | error fault rest =>
      rw [next_of_error hremaining hread]
      exact .inr (.inl ⟨fault, rfl, rfl⟩)
    | ok row rest =>
      rw [next_of_ok hremaining hread]
      exact .inr (.inr ⟨row, rfl, rfl⟩)

theorem next_eq_none_iff : it.next.1 = none ↔ it.remaining = 0 := by
  rcases it.next_cases with ⟨hzero, hnext⟩ | ⟨fault, hitem, _⟩ | ⟨row, hitem, hremaining⟩
  · simp [hnext, hzero]
  · refine ⟨fun h => ?_, fun h => by rw [next_of_zero h]⟩
    rw [hitem] at h
    cases h
  · simp [hitem, hremaining]

theorem remaining_next_le (it : RowIterator) : it.next.2.remaining ≤ it.remaining - 1 := by
  rcases it.next_cases with ⟨hzero, hnext⟩ | ⟨_, _, hremaining⟩ | ⟨_, _, hremaining⟩
  · simp only [hnext, hzero, Nat.zero_le]
  · omega
  · omega

theorem remaining_after_le (it : RowIterator) (k : Nat) :
    (it.after k).remaining ≤ it.remaining - k := by
  induction k with
  | zero => exact Nat.le_refl _
  | succ k ih =>
    have hnext := (it.after k).remaining_next_le
    rw [after_succ]
    omega

theorem remaining_after_anti {j k : Nat} (h : j ≤ k) :
    (it.after k).remaining ≤ (it.after j).remaining := by
  induction h with
  | refl => exact Nat.le_refl _
  | @step k _ ih =>
    have hnext := (it.after k).remaining_next_le
    rw [after_succ]
    omega

theorem item_eq_none_iff {k : Nat} : it.item k = none ↔ (it.after k).remaining = 0 :=
  next_eq_none_iff

theorem remaining_after_of_error {k : Nat} {fault : RowDecodeFault}
    (h : it.item k = some (.error fault)) : (it.after (k + 1)).remaining = 0 := by
  rw [after_succ]
  rcases (it.after k).next_cases with ⟨_, hnext⟩ | ⟨_, _, hremaining⟩ | ⟨_, hitem, _⟩
  · rw [item, hnext] at h
    cases h
  · exact hremaining
  · rw [item, hitem] at h
    cases h

/-- As long as rows are left, every call before has given one. -/
theorem readable_of_remaining {k : Nat} (h : (it.after k).remaining ≠ 0) :
    (it.after k).remaining + k = it.remaining ∧ ∀ j < k, ∃ row, it.item j = some (.ok row) := by
  induction k with
  | zero => exact ⟨rfl, nofun⟩
  | succ k ih =>
    rw [after_succ] at h ⊢
    rcases (it.after k).next_cases with ⟨hzero, hnext⟩ | ⟨_, _, hzero⟩ | ⟨row, hitem, hremaining⟩
    · rw [hnext] at h
      exact absurd hzero h
    · exact absurd hzero h
    · obtain ⟨hsum, hearlier⟩ := ih (by omega)
      refine ⟨by omega, fun j hj => ?_⟩
      rcases Nat.lt_succ_iff_lt_or_eq.mp hj with hlt | rfl
      · exact hearlier j hlt
      · exact ⟨row, hitem⟩

theorem handout (it : RowIterator) : Handout it.remaining it.item where
  bounded k h := by
    have hle := it.remaining_after_le k
    rw [item_eq_none_iff]
    omega
  ended j k h hnone := by
    have hle : (it.after k).remaining ≤ (it.after j).remaining := remaining_after_anti h
    rw [item_eq_none_iff] at hnone ⊢
    omega
  failed j k fault h herror := by
    have hle : (it.after k).remaining ≤ (it.after (j + 1)).remaining := remaining_after_anti h
    have hzero := remaining_after_of_error herror
    rw [item_eq_none_iff]
    omega

theorem after_of_zero (h : it.remaining = 0) (k : Nat) : it.after k = it :=
  Function.iterate_fixed (by rw [next_of_zero h]) k

/-- What is collected is what the calls give, one by one. -/
theorem collect_eq (it : RowIterator) (n : Nat) (done : List (Except RowDecodeFault Row)) :
    it.collect n done = (done.reverse ++ (List.range n).filterMap it.item, it.after n) := by
  induction n generalizing it done with
  | zero => exact congrArg (·, it) (List.append_nil _).symm
  | succ n ih =>
    rw [collect]
    rcases hnext : it.next with ⟨_ | item, it'⟩
    · have hzero := next_eq_none_iff.mp (congrArg Prod.fst hnext)
      have hitem (k : Nat) : it.item k = none := by
        rw [item_eq_none_iff, after_of_zero hzero, hzero]
      rw [next_of_zero hzero] at hnext
      cases hnext
      rw [after_of_zero hzero, List.filterMap_eq_nil_iff.mpr fun k _ => hitem k, List.append_nil]
    · have hfirst : it.item 0 = some item := congrArg Prod.fst hnext
      have hlater : it.after (n + 1) = it'.after n :=
        congrArg (RowIterator.after · n) (congrArg Prod.snd hnext)
      have hothers : it.item ∘ Nat.succ = it'.item := by
        funext k
        exact congrArg (RowIterator.item · k) (congrArg Prod.snd hnext)
      refine (ih it' (item :: done)).trans ?_
      rw [List.range_succ_eq_map, List.filterMap_cons_some hfirst, List.filterMap_map, hothers,
        List.reverse_cons, List.append_assoc, List.singleton_append, hlater]

end RowIterator

/-! ## The page -/

namespace Page

/-- What a call gives, and the page after it. -/
def next (r : Registry) (page : Page) : Option (Except ExecutionFault Row) × Page :=
  match page.take r with
  | some (item, page) => (some item, page)
  | none => (none, page)

/-- The page after some calls. -/
def after (r : Registry) (page : Page) (calls : Nat) : Page :=
  (fun page => (page.next r).2)^[calls] page

/-- What a call gives after that many others. -/
def item (r : Registry) (page : Page) (calls : Nat) : Option (Except ExecutionFault Row) :=
  ((page.after r calls).next r).1

theorem after_succ (r : Registry) (page : Page) (k : Nat) :
    page.after r (k + 1) = ((page.after r k).next r).2 :=
  Function.iterate_succ_apply' _ _ _

end Page

/-! ## Both -/

namespace RowIterator

/-- The page that is as far as an iterator. -/
def page (it : RowIterator) : Page := ⟨it.content, it.remaining, it.columns⟩

/-- What a page makes of the next row: the last one is refused if bytes are left after it. -/
def judged (it : RowIterator) : Option (Except ExecutionFault Row) :=
  match it.next with
  | (some (.ok row), it) =>
    if it.remaining = 0 && !it.content.isEmpty then
      some (.error (.call (.violation (.trailingBytes it.content.length))))
    else some (.ok row)
  | (item, _) => item.map (·.mapError .row)

variable {it : RowIterator}

/-- One call of each: the page moves as the iterator does. -/
theorem next_page (it : RowIterator) :
    it.page.next it.registry = (it.judged, it.next.2.page) := by
  unfold Page.next Page.take
  cases hremaining : it.remaining with
  | zero => simp only [page, judged, next_of_zero hremaining, hremaining, Option.map_none]
  | succ n =>
    cases hread : Row.read it.registry it.columns it.content with
    | error fault rest =>
      simp only [page, judged, next_of_error hremaining hread, hremaining, hread]
      rfl
    | ok row rest =>
      simp only [page, judged, next_of_ok hremaining hread, hremaining, hread]
      by_cases htrailing : (decide (n = 0) && !rest.isEmpty) = true
      · simp only [if_pos htrailing]
      · simp only [if_neg htrailing]

theorem registry_next (it : RowIterator) : it.next.2.registry = it.registry := by
  unfold next
  split
  · rfl
  · split <;> rfl

theorem after_page (it : RowIterator) (k : Nat) :
    it.page.after it.registry k = (it.after k).page ∧ (it.after k).registry = it.registry := by
  induction k with
  | zero => exact ⟨rfl, rfl⟩
  | succ k ih =>
    obtain ⟨hpage, hregistry⟩ := ih
    rw [Page.after_succ, after_succ, hpage, registry_next, hregistry, ← hregistry, next_page]
    exact ⟨rfl, rfl⟩

/-- A page hands out what the iterator is judged to hand out. -/
theorem item_page (it : RowIterator) (k : Nat) :
    it.page.item it.registry k = (it.after k).judged := by
  obtain ⟨hpage, hregistry⟩ := it.after_page k
  rw [Page.item, hpage, ← hregistry, next_page]

/-- The judgement changes the last row if bytes are left after it, and nothing else. -/
theorem judged_cases (it : RowIterator) :
    (it.judged = some (.error (.call (.violation (.trailingBytes it.next.2.content.length)))) ∧
      (∃ row, it.next.1 = some (.ok row)) ∧ it.next.2.remaining = 0 ∧
        0 < it.next.2.content.length) ∨
    it.judged = it.next.1.map (·.mapError .row) ∧
      ¬ ((∃ row, it.next.1 = some (.ok row)) ∧ it.next.2.remaining = 0 ∧
        0 < it.next.2.content.length) := by
  unfold judged
  obtain ⟨item, next⟩ := it.next
  rcases item with _ | fault | row
  · exact .inr ⟨rfl, fun h => nomatch h.1⟩
  · exact .inr ⟨rfl, fun h => nomatch h.1⟩
  · have htrailing : (decide (next.remaining = 0) && !next.content.isEmpty) = true ↔
        next.remaining = 0 ∧ 0 < next.content.length := by
      simp [List.length_pos_iff]
    by_cases hleft : (decide (next.remaining = 0) && !next.content.isEmpty) = true
    · exact .inl ⟨if_pos hleft, ⟨row, rfl⟩, htrailing.mp hleft⟩
    · exact .inr ⟨if_neg hleft, fun h => hleft (htrailing.mpr h.2)⟩

/-- A row after which none is announced is the last one, and all before it could be read. -/
theorem trails_of_last {k : Nat} {row : Row} (hrow : it.item k = some (.ok row))
    (hlast : (it.after (k + 1)).remaining = 0) (hleft : 0 < (it.after (k + 1)).content.length) :
    k + 1 = it.remaining ∧ it.Trails (it.after (k + 1)).content.length := by
  obtain ⟨hsome, hsum⟩ : (it.after k).remaining ≠ 0 ∧
      (it.after k).remaining = (it.after (k + 1)).remaining + 1 := by
    rw [after_succ]
    rcases (it.after k).next_cases with ⟨_, hnext⟩ | ⟨_, hitem, _⟩ | ⟨_, _, hremaining⟩
    · rw [item, hnext] at hrow
      cases hrow
    · rw [item, hitem] at hrow
      cases hrow
    · exact ⟨by omega, hremaining⟩
  obtain ⟨hcount, hearlier⟩ := readable_of_remaining hsome
  have hk : k + 1 = it.remaining := by omega
  refine ⟨hk, hleft, by omega, fun j hj => ?_, by rw [hk]⟩
  rcases Nat.lt_succ_iff_lt_or_eq.mp (hk ▸ hj) with hlt | rfl
  · exact hearlier j hlt
  · exact ⟨row, hrow⟩

/-- If bytes are left after the rows, the last row is refused for them and the others are handed
out. -/
theorem item_page_of_trails {n : Nat} (h : it.Trails n) (k : Nat) :
    it.page.item it.registry k =
      if k + 1 = it.remaining then some (.error (.call (.violation (.trailingBytes n))))
      else (it.item k).map (·.mapError .row) := by
  rw [item_page]
  rcases (it.after k).judged_cases with ⟨hjudged, ⟨row, hrow⟩, hlast, hleft⟩ | ⟨hjudged, hnot⟩
  · rw [← after_succ] at hjudged hlast hleft
    obtain ⟨hk, htrails⟩ := trails_of_last hrow hlast hleft
    rw [hjudged, if_pos hk, ← h.left, ← hk]
  · rw [hjudged, if_neg fun hk => hnot ?_]
    · rfl
    · rw [← after_succ, hk]
      refine ⟨h.readable k (by omega), ?_, by
        rw [h.left]
        exact h.positive⟩
      have := it.remaining_after_le it.remaining
      omega

/-- If nothing is left after the rows, or some row cannot be read, both hand out the same. -/
theorem item_page_of_not_trails (h : ∀ n, ¬ it.Trails n) (k : Nat) :
    it.page.item it.registry k = (it.item k).map (·.mapError .row) := by
  rw [item_page]
  rcases (it.after k).judged_cases with ⟨_, ⟨row, hrow⟩, hlast, hleft⟩ | ⟨hjudged, _⟩
  · rw [← after_succ] at hlast hleft
    exact absurd (trails_of_last hrow hlast hleft).2 (h _)
  · exact hjudged

/-- A page gives nothing where the iterator does, and only there. -/
theorem item_page_eq_none_iff (it : RowIterator) (k : Nat) :
    it.page.item it.registry k = none ↔ it.item k = none := by
  rw [item_page]
  rcases (it.after k).judged_cases with ⟨hjudged, ⟨row, hrow⟩, _, _⟩ | ⟨hjudged, _⟩
  · simp [hjudged, item, hrow]
  · rw [hjudged, Option.map_eq_none_iff]
    rfl

theorem handout_page (it : RowIterator) : Handout it.remaining (it.page.item it.registry) where
  bounded k h := (it.item_page_eq_none_iff k).mpr (it.handout.bounded k h)
  ended j k h hnone :=
    (it.item_page_eq_none_iff k).mpr
      (it.handout.ended j k h ((it.item_page_eq_none_iff j).mp hnone))
  failed j k fault h herror := by
    rw [item_page_eq_none_iff]
    rw [item_page] at herror
    rcases (it.after j).judged_cases with ⟨_, _, hlast, _⟩ | ⟨hjudged, _⟩
    · rw [← after_succ] at hlast
      exact it.handout.ended (j + 1) k h (item_eq_none_iff.mpr hlast)
    · rw [hjudged, Option.map_eq_some_iff] at herror
      obtain ⟨item, hitem, hfault⟩ := herror
      cases item with
      | ok row => cases hfault
      | error fault => exact it.handout.failed j k fault h hitem

end RowIterator

/-- The rows of a page as they are taken from it are those that the iterator gives, a fault ending
both at the same row. If bytes are left after rows that can all be read, taking refuses the last row
for them. -/
theorem Page.item_eq_iterator_item {rows : Rows} {r : Registry} {fallback : Option Columns}
    {it : RowIterator} (h : rows.iterator? r fallback = some it) :
    ∃ page, Page.ofRows rows fallback = .ok (page, rows.metadata.pagingState) ∧
      (∀ n, it.Trails n → ∀ k, page.item r k =
        if k + 1 = rows.count then some (.error (.call (.violation (.trailingBytes n))))
        else (it.item k).map (·.mapError .row)) ∧
      ((∀ n, ¬ it.Trails n) → ∀ k, page.item r k = (it.item k).map (·.mapError .row)) ∧
      Handout rows.count it.item ∧ Handout rows.count (page.item r) := by
  obtain ⟨columns, hcolumns, hit⟩ := Option.map_eq_some_iff.mp h
  have hregistry : it.registry = r := by rw [← hit]
  have hcount : it.remaining = rows.count := by rw [← hit]
  have hpage : ofRows rows fallback = .ok (it.page, rows.metadata.pagingState) := by
    rw [ofRows, hcolumns, ← hit]
    rfl
  rw [← hregistry, ← hcount]
  exact ⟨it.page, hpage, fun _ => RowIterator.item_page_of_trails,
    RowIterator.item_page_of_not_trails, it.handout, it.handout_page⟩

/-- Two rows of a number and a flag, the second flag null, with a byte behind them. -/
theorem Page.item_eq_iterator_item_trailing :
    let columns : Columns :=
      [⟨"ks", "t", "n", 0, .native .int⟩, ⟨"ks", "t", "b", 1, .native .boolean⟩]
    let content : Bytes :=
      [0, 0, 0, 4, 0, 0, 0, 5, 0, 0, 0, 1, 1,
        0, 0, 0, 4, 255, 255, 255, 250, 255, 255, 255, 255, 7]
    let rows : Rows := ⟨⟨2, none, some columns⟩, 2, content⟩
    let it : RowIterator := ⟨.standard, columns, 2, content⟩
    let first : Row := [some (.int 5), some (.boolean true)]
    let second : Row := [some (.int (-6)), none]
    rows.iterator? .standard none = some it ∧ it.Trails 1 ∧
      it.item 0 = some (.ok first) ∧ it.item 1 = some (.ok second) ∧
      ∃ page, Page.ofRows rows none = .ok (page, none) ∧
        page.item .standard 0 = some (.ok first) ∧
        page.item .standard 1 = some (.error (.call (.violation (.trailingBytes 1)))) := by
  intro columns content rows it first second
  have hit : rows.iterator? .standard none = some it := rfl
  have hfirst : it.next = (some (.ok first), ⟨.standard, columns, 1, content.drop 13⟩) :=
    RowIterator.next_of_ok rfl rfl
  have hsecond : (⟨.standard, columns, 1, content.drop 13⟩ : RowIterator).next =
      (some (.ok second), ⟨.standard, columns, 0, [7]⟩) := RowIterator.next_of_ok rfl rfl
  have hafter : it.after 1 = ⟨.standard, columns, 1, content.drop 13⟩ := congrArg Prod.snd hfirst
  have hzero : it.item 0 = some (.ok first) := congrArg Prod.fst hfirst
  have hone : it.item 1 = some (.ok second) := by rw [RowIterator.item, hafter, hsecond]
  have htrails : it.Trails 1 := by
    refine ⟨by decide, by decide, fun k hk => ?_, ?_⟩
    · obtain rfl | rfl : k = 0 ∨ k = 1 := by
        have : k < 2 := hk
        omega
      · exact ⟨first, hzero⟩
      · exact ⟨second, hone⟩
    · show (it.after 2).content.length = 1
      rw [RowIterator.after_succ, hafter, hsecond]
      rfl
  obtain ⟨page, hpage, htrailing, _⟩ := Page.item_eq_iterator_item hit
  have hpageZero : page.item .standard 0 = (it.item 0).map (·.mapError .row) :=
    htrailing 1 htrails 0
  rw [hzero] at hpageZero
  exact ⟨hit, htrails, hzero, hone, page, hpage, hpageZero, htrailing 1 htrails 1⟩

end CqlClient
