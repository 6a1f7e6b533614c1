import Mathlib.Data.List.Sort

/-! # Lists in strict key order

A list with distinct keys has one reordering whose keys increase strictly. Sorting by key finds it,
and leaves a list that is already in that order alone.
-/

namespace List

variable {α κ : Type*} [LinearOrder κ] {key : α → κ} {l l' : List α}

/-- Keys increase strictly along the list. -/
def KeyOrdered (key : α → κ) (l : List α) : Prop :=
  l.Pairwise fun a b => key a < key b

theorem KeyOrdered.nodup_keys (ordered : KeyOrdered key l) : (l.map key).Nodup := by
  apply pairwise_map.mpr
  exact ordered.imp fun {a b} before => ne_of_lt before

/-- Two reorderings of one list in strict key order are the same list. -/
theorem KeyOrdered.eq_of_perm (left : KeyOrdered key l) (right : KeyOrdered key l')
    (perm : l.Perm l') : l = l' := by
  refine perm.eq_of_pairwise ?_ left right
  intro a b _ _ before after
  exact absurd after (not_lt_of_gt before)

/-- Sorting by distinct keys orders them strictly. -/
theorem keyOrdered_insertionSort (distinct : (l.map key).Nodup) :
    KeyOrdered key (l.insertionSort fun a b => key a ≤ key b) := by
  have reordered := perm_insertionSort (fun a b => key a ≤ key b) l
  have apart : ((l.insertionSort fun a b => key a ≤ key b).map key).Nodup :=
    (reordered.map key).nodup_iff.mpr distinct
  have sorted := pairwise_insertionSort (fun a b => key a ≤ key b) l
  refine sorted.imp₂ ?_ (pairwise_map.mp apart)
  intro a b below different
  exact lt_of_le_of_ne below different

/-- A list in strict key order is what sorting makes of any reordering of it. -/
theorem KeyOrdered.insertionSort_eq (ordered : KeyOrdered key l') (perm : l.Perm l') :
    l.insertionSort (fun a b => key a ≤ key b) = l' := by
  have distinct : (l.map key).Nodup := (perm.map key).nodup_iff.mpr ordered.nodup_keys
  apply (keyOrdered_insertionSort distinct).eq_of_perm ordered
  exact (perm_insertionSort _ l).trans perm

end List
