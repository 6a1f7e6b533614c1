import Mathlib.Data.List.Sort

/-! # First match after a stable sort

Sorting a list stably by a key and taking the first element that satisfies a predicate finds the
satisfying element of least key, the earliest one where keys tie. `leastMatch` computes that
element with no sort, so results about ordered rule lists need neither the sorted list nor its
length. Filters and maps of the list move into the predicate and the key.
-/

namespace List

variable {α β κ : Type*} [LinearOrder κ]

/-- The matching element of least key; among equal keys the earliest. -/
def leastMatch (key : α → κ) (p : α → Bool) : List α → Option α
  | [] => none
  | a :: l =>
      if p a then
        match leastMatch key p l with
        | none => some a
        | some b => if key b < key a then some b else some a
      else leastMatch key p l

theorem leastMatch_cons_of_not (key : α → κ) {p : α → Bool} {a : α} (l : List α)
    (rejected : p a = false) : leastMatch key p (a :: l) = leastMatch key p l := by
  simp only [leastMatch, rejected, Bool.false_eq_true, ↓reduceIte]

theorem leastMatch_eq_none_iff {key : α → κ} {p : α → Bool} {l : List α} :
    leastMatch key p l = none ↔ ∀ a ∈ l, p a = false := by
  induction l with
  | nil => simp [leastMatch]
  | cons a l ih =>
    by_cases matched : p a = true
    · simp only [leastMatch, matched, ↓reduceIte, mem_cons, forall_eq_or_imp, reduceCtorEq,
        false_and, iff_false]
      split
      · simp
      · split <;> simp
    · have rejected : p a = false := by simpa using matched
      rw [leastMatch_cons_of_not key l rejected, ih]
      simp [rejected]

/-- The selected element occurs in the list, matches, and no match has a smaller key. -/
theorem leastMatch_some {key : α → κ} {p : α → Bool} {l : List α} {a : α}
    (found : leastMatch key p l = some a) :
    a ∈ l ∧ p a = true ∧ ∀ b ∈ l, p b = true → key a ≤ key b := by
  induction l generalizing a with
  | nil => simp [leastMatch] at found
  | cons c l ih =>
    by_cases matched : p c = true
    · simp only [leastMatch, matched, ↓reduceIte] at found
      cases tail : leastMatch key p l with
      | none =>
        simp only [tail, Option.some.injEq] at found
        subst found
        have unmatched := leastMatch_eq_none_iff.mp tail
        refine ⟨mem_cons_self, matched, ?_⟩
        intro b present matchedB
        rcases mem_cons.mp present with rfl | present
        · exact le_rfl
        · simp [unmatched b present] at matchedB
      | some d =>
        obtain ⟨member, matchedTail, least⟩ := ih tail
        simp only [tail] at found
        split_ifs at found with smaller <;> cases found
        · refine ⟨mem_cons_of_mem _ member, matchedTail, ?_⟩
          intro b present matchedB
          rcases mem_cons.mp present with rfl | present
          · exact smaller.le
          · exact least b present matchedB
        · refine ⟨mem_cons_self, matched, ?_⟩
          intro b present matchedB
          rcases mem_cons.mp present with rfl | present
          · exact le_rfl
          · exact (not_lt.mp smaller).trans (least b present matchedB)
    · rw [leastMatch_cons_of_not key l (by simpa using matched)] at found
      obtain ⟨member, matchedTail, least⟩ := ih found
      refine ⟨mem_cons_of_mem _ member, matchedTail, ?_⟩
      intro b present matchedB
      rcases mem_cons.mp present with rfl | present
      · exact absurd matchedB matched
      · exact least b present matchedB

/-- The selected element splits the list: what matches before it has a greater key, and what
matches after it has no smaller one. -/
theorem exists_append_of_leastMatch {key : α → κ} {p : α → Bool} {l : List α} {a : α}
    (found : leastMatch key p l = some a) : ∃ before after, l = before ++ a :: after ∧ p a = true ∧
      (∀ b ∈ before, p b = true → key a < key b) ∧ ∀ b ∈ after, p b = true → key a ≤ key b := by
  induction l generalizing a with
  | nil => cases found
  | cons c l ih =>
    by_cases matched : p c = true
    · rw [leastMatch, if_pos matched] at found
      cases tail : leastMatch key p l with
      | none =>
        rw [tail] at found
        cases found
        refine ⟨[], l, rfl, matched, by simp, fun b member matchedB => ?_⟩
        rw [leastMatch_eq_none_iff.mp tail b member] at matchedB
        cases matchedB
      | some d =>
        simp only [tail] at found
        split_ifs at found with smaller <;> cases found
        · obtain ⟨before, after, rfl, matchedTail, above, least⟩ := ih tail
          exact ⟨c :: before, after, rfl, matchedTail,
            List.forall_mem_cons.mpr ⟨fun _ => smaller, above⟩, least⟩
        · refine ⟨[], l, rfl, matched, by simp, fun b member matchedB => ?_⟩
          exact (not_lt.mp smaller).trans ((leastMatch_some tail).2.2 b member matchedB)
    · rw [leastMatch_cons_of_not key l (by simpa using matched)] at found
      obtain ⟨before, after, rfl, matchedTail, above, least⟩ := ih found
      exact ⟨c :: before, after, rfl, matchedTail,
        List.forall_mem_cons.mpr ⟨fun matchedC => absurd matchedC matched, above⟩, least⟩

private theorem leastMatch_append_cons {key : α → κ} {p : α → Bool} {a : α} {after : List α}
    (matched : p a = true) (least : ∀ b ∈ after, p b = true → key a ≤ key b) {before : List α}
    (above : ∀ b ∈ before, p b = true → key a < key b) :
    leastMatch key p (before ++ a :: after) = some a := by
  induction before with
  | nil =>
    rw [nil_append, leastMatch, if_pos matched]
    cases tail : leastMatch key p after with
    | none => rfl
    | some b =>
      obtain ⟨member, matchedTail, _⟩ := leastMatch_some tail
      exact if_neg (not_lt.mpr (least b member matchedTail))
  | cons c before ih =>
    obtain ⟨aboveHead, aboveTail⟩ := forall_mem_cons.mp above
    rw [cons_append]
    by_cases matchedHead : p c = true
    · rw [leastMatch, if_pos matchedHead, ih aboveTail]
      exact if_pos (aboveHead matchedHead)
    · rw [leastMatch_cons_of_not key _ (by simpa using matchedHead), ih aboveTail]

/-- The selected element is the one with a place between greater and no smaller matches. -/
theorem leastMatch_eq_some_iff {key : α → κ} {p : α → Bool} {l : List α} {a : α} :
    leastMatch key p l = some a ↔ ∃ before after, l = before ++ a :: after ∧ p a = true ∧
      (∀ b ∈ before, p b = true → key a < key b) ∧ ∀ b ∈ after, p b = true → key a ≤ key b := by
  constructor
  · exact exists_append_of_leastMatch
  · rintro ⟨before, after, rfl, matched, above, least⟩
    exact leastMatch_append_cons matched least above

/-- Filtering the list strengthens the predicate. -/
theorem leastMatch_filter (key : α → κ) (p q : α → Bool) (l : List α) :
    leastMatch key p (l.filter q) = leastMatch key (fun a => q a && p a) l := by
  induction l with
  | nil => rfl
  | cons a l ih =>
    by_cases kept : q a = true
    · rw [filter_cons_of_pos kept]
      simp only [leastMatch, kept, Bool.true_and, ih]
    · have dropped : q a = false := by simpa using kept
      rw [filter_cons_of_neg kept, ih, leastMatch_cons_of_not key l (by simp [dropped])]

theorem leastMatch_congr {key : α → κ} {p q : α → Bool} {l : List α}
    (same : ∀ a ∈ l, p a = q a) : leastMatch key p l = leastMatch key q l := by
  induction l with
  | nil => rfl
  | cons a l ih =>
    simp only [leastMatch, same a mem_cons_self,
      ih (fun b member => same b (mem_cons_of_mem _ member))]

/-- A stronger predicate that the selected element satisfies selects the same element. -/
theorem leastMatch_and_of_some {key : α → κ} {p q : α → Bool} {l : List α} {a : α}
    (found : leastMatch key p l = some a) (kept : q a = true) :
    leastMatch key (fun a => q a && p a) l = some a := by
  induction l generalizing a with
  | nil => cases found
  | cons b l ih =>
    by_cases matched : p b = true
    · rw [leastMatch, if_pos matched] at found
      rcases tail : leastMatch key p l with _ | c
      · rw [tail, Option.some_inj] at found
        subst found
        have unmatched := leastMatch_eq_none_iff.mp tail
        have rest : leastMatch key (fun a => q a && p a) l = none :=
          leastMatch_eq_none_iff.mpr fun c member => by rw [unmatched c member, Bool.and_false]
        rw [leastMatch, kept, matched, rest]
        rfl
      · simp only [tail] at found
        split_ifs at found with smaller <;> cases found
        · rw [leastMatch, ih tail kept, matched, Bool.and_true]
          simp only [if_pos smaller, ite_self]
        · rw [leastMatch, kept, matched]
          rcases rest : leastMatch key (fun a => q a && p a) l with _ | d
          · rfl
          · obtain ⟨member, matchedD, _⟩ := leastMatch_some rest
            obtain ⟨_, _, least⟩ := leastMatch_some tail
            have above : ¬ key d < key b := by
              rw [Bool.and_eq_true] at matchedD
              exact not_lt.mpr ((not_lt.mp smaller).trans (least d member matchedD.2))
            exact (if_pos rfl).trans (if_neg above)
    · have rejected : p b = false := by simpa using matched
      rw [leastMatch_cons_of_not key l rejected] at found
      rw [leastMatch_cons_of_not key l (by rw [rejected, Bool.and_false]), ih found kept]

/-- Lists related element by element select related elements. -/
theorem leastMatch_forall₂ {R : α → β → Prop} (key : α → κ) (key' : β → κ) (p : α → Bool)
    (p' : β → Bool) {l : List α} {l' : List β} (related : Forall₂ R l l')
    (agree : ∀ a b, R a b → key a = key' b ∧ p a = p' b) :
    Option.Rel R (leastMatch key p l) (leastMatch key' p' l') := by
  induction related with
  | nil => exact .none
  | @cons a b l l' head _ ih =>
    obtain ⟨sameKey, sameMatch⟩ := agree a b head
    rw [leastMatch, leastMatch, sameMatch]
    by_cases matched : p' b = true
    · rw [if_pos matched, if_pos matched]
      generalize leastMatch key p l = selected at ih ⊢
      generalize leastMatch key' p' l' = selected' at ih ⊢
      cases ih with
      | none => exact .some head
      | @some c d tail =>
        simp only [sameKey, (agree c d tail).1]
        split
        · exact .some tail
        · exact .some head
    · rw [if_neg matched, if_neg matched]
      exact ih

private theorem find?_orderedInsert (key : α → κ) (p : α → Bool) (a : α) {l : List α}
    (sorted : l.Pairwise (fun a b => key a ≤ key b)) :
    (l.orderedInsert (fun a b => key a ≤ key b) a).find? p =
      if p a then
        match l.find? p with
        | none => some a
        | some b => if key b < key a then some b else some a
      else l.find? p := by
  induction l with
  | nil => simp [find?_cons]; split <;> simp_all
  | cons b l ih =>
    obtain ⟨below, rest⟩ := pairwise_cons.mp sorted
    by_cases before : key a ≤ key b
    · rw [orderedInsert_cons_of_le (fun a b => key a ≤ key b) l before, find?_cons]
      cases matched : p a with
      | false => simp
      | true =>
        cases found : (b :: l).find? p with
        | none => simp
        | some c =>
          have bound : key a ≤ key c := by
            rcases mem_cons.mp (mem_of_find?_eq_some found) with rfl | member
            · exact before
            · exact before.trans (below c member)
          simp [not_lt.mpr bound]
    · rw [orderedInsert_of_not_le (r := fun a b => key a ≤ key b) l before, find?_cons]
      cases matched : p b with
      | true => simp [matched, not_le.mp before]
      | false =>
        simp only [ih rest, find?_cons, matched]

/-- Searching the stably sorted list selects the match of least key. -/
theorem find?_insertionSort (key : α → κ) (p : α → Bool) (l : List α) :
    (l.insertionSort (fun a b => key a ≤ key b)).find? p = leastMatch key p l := by
  induction l with
  | nil => rfl
  | cons a l ih =>
    rw [insertionSort_cons, find?_orderedInsert key p a (pairwise_insertionSort _ l), ih, leastMatch]

/-- Sorting first does not change which match is selected. -/
theorem leastMatch_insertionSort (key : α → κ) (p : α → Bool) (l : List α) :
    leastMatch key p (l.insertionSort (fun a b => key a ≤ key b)) = leastMatch key p l := by
  rw [← find?_insertionSort, ← find?_insertionSort,
    Pairwise.insertionSort_eq (pairwise_insertionSort _ l)]

end List
