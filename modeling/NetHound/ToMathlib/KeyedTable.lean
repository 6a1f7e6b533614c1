import Mathlib.Data.List.Nodup
import Mathlib.Data.List.Perm.Basic

/-! # Tables keyed by a function

A table is a list whose elements have distinct keys. `upsert` replaces the element of the same key
in place and otherwise appends; `upserts` writes a whole list in order. A table built by writes
holds the last write of each key, in the order the keys first appeared, and a filter on keys can be
taken before or after the writes.

`mergeInto` is a store's view of one write: whatever matches is reassigned, and something is created
where nothing matches. Over entities created by earlier writes it is an upsert of the writes
themselves (`mergeInto_map_create`).
-/

namespace List

variable {α κ : Type*} [DecidableEq κ]

omit [DecidableEq κ] in
/-- Distinct elements that are all the same. -/
theorem eq_singleton_of_nodup {l : List α} {a : α} (unique : l.Nodup) (member : a ∈ l)
    (all : ∀ b ∈ l, b = a) :
    l = [a] := by
  apply perm_singleton.mp
  refine (perm_ext_iff_of_nodup unique (nodup_singleton a)).mpr fun b => ?_
  rw [mem_singleton]
  constructor
  · exact all b
  · rintro rfl
    exact member

/-- Replace the element with the same key, or append. -/
def upsert (key : α → κ) (a : α) : List α → List α
  | [] => [a]
  | b :: l => if key b = key a then a :: l else b :: upsert key a l

/-- Writes in order. -/
def upserts (key : α → κ) (table writes : List α) : List α :=
  writes.foldl (fun table a => upsert key a table) table

/-- The last write of a key. -/
def lastWrite (key : α → κ) (k : κ) (writes : List α) : Option α :=
  writes.reverse.find? (fun a => key a = k)

section Upsert

variable (key : α → κ)

theorem upsert_of_notMem {a : α} {l : List α} (fresh : key a ∉ l.map key) :
    upsert key a l = l ++ [a] := by
  induction l with
  | nil => rfl
  | cons b l ih =>
    rw [map_cons, mem_cons, not_or] at fresh
    rw [upsert, if_neg (Ne.symm fresh.1), ih fresh.2, cons_append]

theorem map_key_upsert (a : α) (l : List α) :
    (upsert key a l).map key = if key a ∈ l.map key then l.map key else l.map key ++ [key a] := by
  induction l with
  | nil => simp [upsert]
  | cons b l ih =>
    by_cases same : key b = key a
    · simp [upsert, same]
    · rw [upsert, if_neg same, map_cons, ih, map_cons]
      by_cases present : key a ∈ l.map key
      · rw [if_pos present, if_pos (mem_cons_of_mem _ present)]
      · have fresh : key a ∉ key b :: l.map key := not_mem_cons_of_ne_of_not_mem (Ne.symm same) present
        rw [if_neg present, if_neg fresh, cons_append]

theorem mem_map_key_upsert {a : α} {l : List α} {k : κ} :
    k ∈ (upsert key a l).map key ↔ k = key a ∨ k ∈ l.map key := by
  rw [map_key_upsert]
  split
  · next present =>
    constructor
    · exact Or.inr
    · rintro (rfl | member)
      · exact present
      · exact member
  · rw [mem_append, mem_singleton, or_comm]

theorem nodup_upsert {a : α} {l : List α} (unique : (l.map key).Nodup) :
    ((upsert key a l).map key).Nodup := by
  rw [map_key_upsert]
  split
  · exact unique
  · next fresh => exact unique.append (nodup_singleton _) (by simpa using fresh)

theorem mem_upsert_iff {a b : α} {l : List α} (unique : (l.map key).Nodup) :
    b ∈ upsert key a l ↔ b = a ∨ b ∈ l ∧ key b ≠ key a := by
  induction l with
  | nil => simp [upsert]
  | cons c l ih =>
    rw [map_cons, nodup_cons] at unique
    by_cases same : key c = key a
    · rw [upsert, if_pos same, mem_cons, mem_cons]
      constructor
      · rintro (rfl | member)
        · exact Or.inl rfl
        · refine Or.inr ⟨Or.inr member, ?_⟩
          intro clash
          exact unique.1 (mem_map.mpr ⟨b, member, clash.trans same.symm⟩)
      · rintro (rfl | ⟨rfl | member, other⟩)
        · exact Or.inl rfl
        · exact absurd same other
        · exact Or.inr member
    · rw [upsert, if_neg same, mem_cons, ih unique.2, mem_cons]
      constructor
      · rintro (rfl | rfl | ⟨member, other⟩)
        · exact Or.inr ⟨Or.inl rfl, same⟩
        · exact Or.inl rfl
        · exact Or.inr ⟨Or.inr member, other⟩
      · rintro (rfl | ⟨rfl | member, other⟩)
        · exact Or.inr (Or.inl rfl)
        · exact Or.inl rfl
        · exact Or.inr (Or.inr ⟨member, other⟩)

/-- With distinct keys, an upsert of a present key rewrites that element only. -/
theorem upsert_eq_map {a : α} {l : List α} (unique : (l.map key).Nodup)
    (present : key a ∈ l.map key) :
    upsert key a l = l.map (fun b => if key b = key a then a else b) := by
  induction l with
  | nil => cases present
  | cons c l ih =>
    rw [map_cons, nodup_cons] at unique
    by_cases same : key c = key a
    · rw [upsert, if_pos same, map_cons, if_pos same]
      congr 1
      refine ((map_congr_left ?_).trans (map_id l)).symm
      intro b member
      have other : key b ≠ key a := fun clash =>
        unique.1 (mem_map.mpr ⟨b, member, clash.trans same.symm⟩)
      rw [if_neg other, id]
    · have later : key a ∈ l.map key := (mem_cons.mp present).resolve_left (Ne.symm same)
      rw [upsert, if_neg same, map_cons, if_neg same, ih unique.2 later]

/-- A key filter commutes with an upsert. -/
theorem filter_upsert (p : κ → Bool) (a : α) (l : List α) :
    (upsert key a l).filter (fun b => p (key b)) =
      if p (key a) then upsert key a (l.filter (fun b => p (key b)))
      else l.filter (fun b => p (key b)) := by
  induction l with
  | nil => by_cases kept : p (key a) <;> simp [upsert, kept]
  | cons b l ih =>
    by_cases same : key b = key a
    · by_cases kept : p (key a) <;> simp [upsert, same, kept]
    · rw [upsert, if_neg same, filter_cons, filter_cons, ih]
      by_cases kept : p (key b) = true
      · rw [if_pos kept, if_pos kept, upsert, if_neg same]
        split <;> rfl
      · rw [if_neg kept, if_neg kept]

end Upsert

section Upserts

variable (key : α → κ)

@[simp] theorem upserts_nil (table : List α) : upserts key table [] = table := rfl

@[simp] theorem upserts_cons (table : List α) (a : α) (writes : List α) :
    upserts key table (a :: writes) = upserts key (upsert key a table) writes := rfl

theorem upserts_append (table writes more : List α) :
    upserts key table (writes ++ more) = upserts key (upserts key table writes) more :=
  foldl_append

theorem nodup_upserts {table : List α} (unique : (table.map key).Nodup) (writes : List α) :
    ((upserts key table writes).map key).Nodup := by
  induction writes generalizing table with
  | nil => exact unique
  | cons a writes ih => exact ih (nodup_upsert key unique)

theorem mem_map_key_upserts {table writes : List α} {k : κ} :
    k ∈ (upserts key table writes).map key ↔ k ∈ table.map key ∨ k ∈ writes.map key := by
  induction writes generalizing table with
  | nil => simp
  | cons a writes ih =>
    rw [upserts_cons, ih, mem_map_key_upsert, map_cons, mem_cons, or_assoc, or_left_comm]

theorem mem_of_mem_upsert {a b : α} {l : List α} (member : b ∈ upsert key a l) : b = a ∨ b ∈ l := by
  induction l with
  | nil => exact Or.inl (mem_singleton.mp member)
  | cons c l ih =>
    rw [upsert] at member
    split at member <;> rcases mem_cons.mp member with rfl | member
    · exact Or.inl rfl
    · exact Or.inr (mem_cons_of_mem c member)
    · exact Or.inr mem_cons_self
    · exact (ih member).imp_right (mem_cons_of_mem c)

theorem mem_of_mem_upserts {table writes : List α} {b : α} (member : b ∈ upserts key table writes) :
    b ∈ table ∨ b ∈ writes := by
  induction writes generalizing table with
  | nil => exact Or.inl member
  | cons a writes ih =>
    rcases ih member with inTable | later
    · rcases mem_of_mem_upsert key inTable with rfl | earlier
      · exact Or.inr mem_cons_self
      · exact Or.inl earlier
    · exact Or.inr (mem_cons_of_mem a later)

/-- Writes with new, distinct keys are appended. -/
theorem upserts_of_nodup {table writes : List α} (unique : ((table ++ writes).map key).Nodup) :
    upserts key table writes = table ++ writes := by
  induction writes generalizing table with
  | nil => rw [upserts_nil, append_nil]
  | cons a writes ih =>
    have fresh : key a ∉ table.map key := by
      intro present
      rw [map_append, nodup_append'] at unique
      exact unique.2.2 present (mem_map_of_mem mem_cons_self)
    rw [append_cons] at unique
    rw [upserts_cons, upsert_of_notMem key fresh, ih unique, append_assoc, singleton_append]

/-- A key filter commutes with any number of writes. -/
theorem filter_upserts (p : κ → Bool) (table writes : List α) :
    (upserts key table writes).filter (fun b => p (key b)) =
      upserts key (table.filter (fun b => p (key b))) (writes.filter (fun b => p (key b))) := by
  induction writes generalizing table with
  | nil => rfl
  | cons a writes ih =>
    rw [upserts_cons, ih, filter_upsert, filter_cons]
    split <;> rfl

section Change

variable {β κ' : Type*} [DecidableEq κ']

private theorem upsert_map (key : β → κ) (f : α → β) (a : α) (l : List α) :
    upsert key (f a) (l.map f) = (upsert (key ∘ f) a l).map f := by
  induction l with
  | nil => rfl
  | cons b l ih =>
    rw [map_cons, upsert, upsert, ih, Function.comp_apply, Function.comp_apply]
    split <;> rfl

/-- Writing images is writing the originals, keyed by their images. -/
theorem upserts_map (key : β → κ) (f : α → β) (table writes : List α) :
    upserts key (table.map f) (writes.map f) = (upserts (key ∘ f) table writes).map f := by
  induction writes generalizing table with
  | nil => rfl
  | cons a writes ih => rw [map_cons, upserts_cons, upsert_map, ih, upserts_cons]

private theorem upsert_congr {key : α → κ} {key' : α → κ'} (same : ∀ a b, key a = key b ↔ key' a = key' b)
    (a : α) (l : List α) : upsert key a l = upsert key' a l := by
  induction l with
  | nil => rfl
  | cons b l ih =>
    rw [upsert, upsert, ih]
    exact if_congr (same b a) rfl rfl

/-- Only which keys are equal matters to a table. -/
theorem upserts_congr {key : α → κ} {key' : α → κ'} (same : ∀ a b, key a = key b ↔ key' a = key' b)
    (table writes : List α) : upserts key table writes = upserts key' table writes := by
  induction writes generalizing table with
  | nil => rfl
  | cons a writes ih => rw [upserts_cons, upserts_cons, upsert_congr same, ih]

end Change

theorem lastWrite_some {k : κ} {writes : List α} {a : α} (found : lastWrite key k writes = some a) :
    a ∈ writes ∧ key a = k :=
  ⟨mem_reverse.mp (mem_of_find?_eq_some found), by simpa using find?_some found⟩

theorem lastWrite_eq_none_iff {k : κ} {writes : List α} :
    lastWrite key k writes = none ↔ k ∉ writes.map key := by
  rw [lastWrite, find?_eq_none]
  simp [eq_comm]

theorem lastWrite_append (k : κ) (writes more : List α) :
    lastWrite key k (writes ++ more) = (lastWrite key k more).or (lastWrite key k writes) := by
  rw [lastWrite, reverse_append, find?_append]
  rfl

/-- The elements of a written table: the last write of each key, else what was there before. -/
theorem mem_upserts_iff {table writes : List α} (unique : (table.map key).Nodup) {b : α} :
    b ∈ upserts key table writes ↔
      lastWrite key (key b) writes = some b ∨ b ∈ table ∧ key b ∉ writes.map key := by
  induction writes generalizing table with
  | nil => simp [lastWrite]
  | cons a writes ih =>
    rw [upserts_cons, ih (nodup_upsert key unique), mem_upsert_iff key unique]
    have split : lastWrite key (key b) (a :: writes) =
        (lastWrite key (key b) writes).or (if key a = key b then some a else none) := by
      rw [← singleton_append, lastWrite_append]
      congr 1
      by_cases same : key a = key b <;> simp [lastWrite, same]
    rw [split, map_cons, mem_cons, not_or]
    rcases later : lastWrite key (key b) writes with _ | c
    · have absent := (lastWrite_eq_none_iff key).mp later
      by_cases same : key a = key b
      · constructor
        · rintro (impossible | ⟨rfl | ⟨member, other⟩, _⟩)
          · cases impossible
          · exact Or.inl (by simp)
          · exact absurd same.symm other
        · rintro (found | ⟨_, other, _⟩)
          · obtain rfl : a = b := by simpa [same] using found
            exact Or.inr ⟨Or.inl rfl, absent⟩
          · exact absurd same.symm other
      · constructor
        · rintro (impossible | ⟨rfl | ⟨member, other⟩, _⟩)
          · cases impossible
          · exact absurd rfl same
          · exact Or.inr ⟨member, other, absent⟩
        · rintro (found | ⟨member, other, _⟩)
          · simp [same] at found
          · exact Or.inr ⟨Or.inr ⟨member, other⟩, absent⟩
    · have present : key b ∈ writes.map key := by
        obtain ⟨member, keyed⟩ := lastWrite_some key later
        exact mem_map.mpr ⟨c, member, keyed⟩
      simp [present]

/-- A written table holds what the writes leave alone, and what they do not touch. -/
theorem mem_upserts_iff_mem_upserts_nil {table writes : List α} (unique : (table.map key).Nodup) {b : α} :
    b ∈ upserts key table writes ↔ b ∈ upserts key [] writes ∨ b ∈ table ∧ key b ∉ writes.map key := by
  rw [mem_upserts_iff key unique, mem_upserts_iff key (by simp)]
  simp

end Upserts

section MergeInto

variable {E : Type*} (matched : α → E → Bool) (assign : α → E → E) (create : α → E)

/-- Reassign every matching entity, or create one. -/
def mergeInto (a : α) (entities : List E) : List E :=
  if entities.any (matched a) then
    entities.map (fun e => if matched a e then assign a e else e)
  else entities ++ [create a]

/-- A write matches what an earlier write created exactly on equal keys, and then makes it its own. -/
def CreatesKeyed (key : α → κ) (a b : α) : Prop :=
  matched a (create b) = decide (key b = key a) ∧ (key b = key a → assign a (create b) = create a)

variable {matched assign create} {key : α → κ} {a : α} {table : List α}

private theorem any_matched_map (keyed : ∀ b ∈ table, CreatesKeyed matched assign create key a b) :
    (table.map create).any (matched a) = decide (key a ∈ table.map key) := by
  induction table with
  | nil => rfl
  | cons b table ih =>
    rw [map_cons, any_cons, (keyed b mem_cons_self).1,
      ih (fun c member => keyed c (mem_cons_of_mem b member)), map_cons]
    by_cases same : key b = key a
    · simp [same]
    · simp [same, Ne.symm same]

/-- Over created entities, a merge is an upsert of the write itself. -/
theorem mergeInto_map_create (unique : (table.map key).Nodup)
    (keyed : ∀ b ∈ table, CreatesKeyed matched assign create key a b) :
    mergeInto matched assign create a (table.map create) = (upsert key a table).map create := by
  rw [mergeInto, any_matched_map keyed]
  by_cases present : key a ∈ table.map key
  · rw [if_pos (decide_eq_true present), upsert_eq_map key unique present, map_map, map_map]
    refine map_congr_left fun b member => ?_
    obtain ⟨matches', assigned⟩ := keyed b member
    simp only [Function.comp_apply, matches', decide_eq_true_eq]
    split
    · next same => exact assigned same
    · rfl
  · rw [if_neg (by simpa using present), upsert_of_notMem key present, map_append]
    rfl

/-- Entities no write matches stay where they are. -/
theorem mergeInto_append_left {others entities : List E} (untouched : ∀ e ∈ others, matched a e = false) :
    mergeInto matched assign create a (others ++ entities) =
      others ++ mergeInto matched assign create a entities := by
  have none : others.any (matched a) = false := any_eq_false.mpr (by simpa using untouched)
  have same : others.map (fun e => if matched a e then assign a e else e) = others := by
    refine (map_congr_left fun e member => ?_).trans (map_id others)
    rw [untouched e member]
    rfl
  rw [mergeInto, mergeInto, any_append, none, Bool.false_or, map_append, same]
  split
  · rfl
  · rw [append_assoc]

/-- A write acts within the entities a filter keeps. -/
theorem filter_mergeInto_of_kept {q : E → Bool}
    (matches' : ∀ e, matched a e = true → q e = true ∧ q (assign a e) = true)
    (created : q (create a) = true) (entities : List E) :
    (mergeInto matched assign create a entities).filter q =
      mergeInto matched assign create a (entities.filter q) := by
  have found : (entities.filter q).any (matched a) = entities.any (matched a) := by
    rw [any_filter]
    congr 1
    funext e
    rcases hit : matched a e with _ | _
    · rw [Bool.and_false]
    · rw [(matches' e hit).1, Bool.true_and]
  rw [mergeInto, mergeInto, found]
  split
  · rw [filter_map]
    congr 1
    refine filter_congr fun e _ => ?_
    rw [Function.comp_apply]
    split
    · next hit => rw [(matches' e hit).1, (matches' e hit).2]
    · rfl
  · rw [filter_append, filter_singleton, created, cond_true]

/-- A write leaves alone what a filter keeps. -/
theorem filter_mergeInto_of_dropped {q : E → Bool}
    (matches' : ∀ e, matched a e = true → q e = false ∧ q (assign a e) = false)
    (created : q (create a) = false)
    (entities : List E) : (mergeInto matched assign create a entities).filter q = entities.filter q := by
  rw [mergeInto]
  split
  · rw [filter_map]
    have same : (q ∘ fun e => if matched a e = true then assign a e else e) = q := by
      funext e
      rw [Function.comp_apply]
      split
      · next hit => rw [(matches' e hit).1, (matches' e hit).2]
      · rfl
    rw [same]
    refine (map_congr_left fun e member => ?_).trans (map_id _)
    rcases hit : matched a e with _ | _
    · rfl
    · have kept := (mem_filter.mp member).2
      rw [(matches' e hit).1] at kept
      cases kept
  · rw [filter_append, filter_singleton, created, cond_false, append_nil]

/-- At most one created entity matches a write. -/
theorem countP_matched_map (unique : (table.map key).Nodup)
    (keyed : ∀ b ∈ table, CreatesKeyed matched assign create key a b) :
    (table.map create).countP (matched a) ≤ 1 := by
  induction table with
  | nil => exact Nat.zero_le 1
  | cons b table ih =>
    rw [map_cons, nodup_cons] at unique
    have later := ih unique.2 (fun c member => keyed c (mem_cons_of_mem b member))
    by_cases same : key b = key a
    · have none : (table.map create).countP (matched a) = 0 := by
        apply countP_eq_zero.mpr
        intro e member
        obtain ⟨c, inTable, rfl⟩ := mem_map.mp member
        rw [(keyed c (mem_cons_of_mem b inTable)).1, decide_eq_true_eq]
        intro clash
        exact unique.1 (mem_map.mpr ⟨c, inTable, clash.trans same.symm⟩)
      rw [map_cons, countP_cons, none]
      split <;> omega
    · rw [map_cons, countP_cons, (keyed b mem_cons_self).1, if_neg (by simpa using same)]
      omega

end MergeInto

end List
