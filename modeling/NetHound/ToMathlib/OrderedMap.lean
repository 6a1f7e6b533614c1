import Mathlib.Data.List.Nodup
import Std.Data.HashMap.Lemmas
import Std.Data.TreeMap.Lemmas

/-! # Ordered maps filled by a loop

Two loops over an ordered map: one keeps the first value seen for each key, the other collects the
values of each key in encounter order. Each is known by its lookups, and the entry list of an ordered
map is determined by the lookups.
-/

namespace Std.TreeMap

variable {α β σ : Type} [Ord α] [TransOrd α] [LawfulEqOrd α]

theorem nodup_map_fst_toList (map : TreeMap α β) : (map.toList.map Prod.fst).Nodup := by
  rw [List.Nodup, List.pairwise_map]
  refine (distinct_keys_toList (t := map)).imp fun {a b} apart same => ?_
  rw [same] at apart
  exact apart ReflCmp.compare_self

theorem nodup_toList (map : TreeMap α β) : map.toList.Nodup := (nodup_map_fst_toList map).of_map _

/-- A filtered entry list is the entry list of the map with the filtered lookups. -/
theorem filter_toList_eq {map map' : TreeMap α β} (p : α → Bool)
    (lookups : ∀ k, map'[k]? = if p k then map[k]? else none) :
    map.toList.filter (fun entry => p entry.1) = map'.toList := by
  have members : (map.toList.filter fun entry => p entry.1).Perm map'.toList := by
    rw [List.perm_ext_iff_of_nodup ((nodup_toList map).filter _) (nodup_toList map')]
    rintro ⟨k, v⟩
    rw [List.mem_filter, mem_toList_iff_getElem?_eq_some, mem_toList_iff_getElem?_eq_some, lookups]
    by_cases kept : p k = true <;> simp [kept]
  refine members.eq_of_pairwise ?_ (ordered_keys_toList.filter _) ordered_keys_toList
  intro a b _ _ before after
  have after' : compare a.1 b.1 = .gt := OrientedCmp.gt_iff_lt.mpr after
  rw [before] at after'
  cases after'

section FirstSeen

variable [DecidableEq α] (key : σ → α) (make : σ → β)

/-- The loop keeps what the map had, else the first sighting of the key. -/
theorem getElem?_foldl_insertIfNew (sightings : List σ) (map : TreeMap α β) (k : α) :
    (sightings.foldl (fun map sighting => map.insertIfNew (key sighting) (make sighting)) map)[k]? =
      map[k]?.or ((sightings.find? fun sighting => key sighting = k).map make) := by
  induction sightings generalizing map with
  | nil => simp
  | cons sighting sightings ih =>
    rw [List.foldl_cons, ih, getElem?_insertIfNew, List.find?_cons]
    simp only [LawfulEqCmp.compare_eq_iff_eq]
    by_cases same : key sighting = k
    · rw [← same]
      rcases found : map[key sighting]? with _ | value
      · have absent : key sighting ∉ map := by
          rw [← isSome_getElem?_iff_mem, found]
          exact Bool.false_ne_true
        simp [absent]
      · have present : key sighting ∈ map := by
          rw [← isSome_getElem?_iff_mem, found]
          rfl
        simp [present]
    · simp [same]

/-- Values that carry their key are told apart by it. -/
theorem map_ident_values_foldl_insertIfNew {sightings : List σ} {ident : β → α}
    (carries : ∀ sighting, ident (make sighting) = key sighting) :
    ((sightings.foldl (fun map sighting => map.insertIfNew (key sighting) (make sighting))
      (∅ : TreeMap α β)).toList.map Prod.snd).map ident =
    (sightings.foldl (fun map sighting => map.insertIfNew (key sighting) (make sighting))
      (∅ : TreeMap α β)).toList.map Prod.fst := by
  rw [List.map_map]
  refine List.map_congr_left fun (k, v) member => ?_
  rw [mem_toList_iff_getElem?_eq_some, getElem?_foldl_insertIfNew, getElem?_emptyc, Option.none_or] at member
  obtain ⟨sighting, found, rfl⟩ := Option.map_eq_some_iff.mp member
  exact (carries sighting).trans (by simpa using List.find?_some found)

theorem nodup_values_foldl_insertIfNew {sightings : List σ} {ident : β → α}
    (carries : ∀ sighting, ident (make sighting) = key sighting) :
    (((sightings.foldl (fun map sighting => map.insertIfNew (key sighting) (make sighting))
      (∅ : TreeMap α β)).toList.map Prod.snd).map ident).Nodup := by
  rw [map_ident_values_foldl_insertIfNew key make carries]
  exact nodup_map_fst_toList _

/-- The loop holds one value for every key sighted and no other. -/
theorem mem_values_foldl_insertIfNew {sightings : List σ} {ident : β → α}
    (carries : ∀ sighting, ident (make sighting) = key sighting) {k : α} :
    k ∈ ((sightings.foldl (fun map sighting => map.insertIfNew (key sighting) (make sighting))
      (∅ : TreeMap α β)).toList.map Prod.snd).map ident ↔ k ∈ sightings.map key := by
  rw [map_ident_values_foldl_insertIfNew key make carries, List.mem_map, List.mem_map]
  constructor
  · rintro ⟨⟨k', v⟩, member, rfl⟩
    rw [mem_toList_iff_getElem?_eq_some, getElem?_foldl_insertIfNew, getElem?_emptyc,
      Option.none_or] at member
    obtain ⟨sighting, found, rfl⟩ := Option.map_eq_some_iff.mp member
    exact ⟨sighting, List.mem_of_find?_eq_some found, by simpa using List.find?_some found⟩
  · rintro ⟨sighting, member, rfl⟩
    obtain ⟨first, found⟩ : ∃ first, (sightings.find? fun other => key other = key sighting) = some first := by
      rw [← Option.isSome_iff_exists, List.find?_isSome]
      exact ⟨sighting, member, decide_eq_true rfl⟩
    refine ⟨(key sighting, make first), ?_, rfl⟩
    rw [mem_toList_iff_getElem?_eq_some, getElem?_foldl_insertIfNew, getElem?_emptyc, Option.none_or, found]
    rfl

end FirstSeen

section Grouped

variable {V : Type} [DecidableEq α]

/-- The loop appends each key's values to what the map had for it. -/
theorem getElem?_foldl_alter (pairs : List (α × V)) (map : TreeMap α (List V)) (k : α) :
    (pairs.foldl (fun grouped pair =>
      grouped.alter pair.1 fun values => some (values.getD [] ++ [pair.2])) map)[k]? =
      if k ∈ pairs.map Prod.fst then
        some (map[k]?.getD [] ++ (pairs.filter fun pair => pair.1 = k).map Prod.snd)
      else map[k]? := by
  induction pairs generalizing map with
  | nil => simp
  | cons pair pairs ih =>
    rw [List.foldl_cons, ih, getElem?_alter, List.map_cons]
    simp only [LawfulEqCmp.compare_eq_iff_eq]
    by_cases same : pair.1 = k
    · by_cases later : k ∈ pairs.map Prod.fst
      · rw [if_pos later, if_pos (List.mem_cons_of_mem _ later), if_pos same]
        simp [same]
      · have none : pairs.filter (fun pair => pair.1 = k) = [] := by
          rw [List.filter_eq_nil_iff]
          intro other member clash
          exact later (List.mem_map.mpr ⟨other, member, of_decide_eq_true clash⟩)
        have first : k ∈ pair.1 :: pairs.map Prod.fst := same ▸ List.mem_cons_self
        rw [if_neg later, if_pos first, if_pos same, List.filter_cons_of_pos (by simpa using same), none]
        simp [same]
    · have filtered : (pair :: pairs).filter (fun pair => pair.1 = k) =
          pairs.filter fun pair => pair.1 = k := List.filter_cons_of_neg (by simpa using same)
      rw [filtered, if_neg same]
      by_cases later : k ∈ pairs.map Prod.fst
      · rw [if_pos later, if_pos (List.mem_cons_of_mem _ later)]
      · rw [if_neg later, if_neg (List.not_mem_cons_of_ne_of_not_mem (Ne.symm same) later)]

/-- Each key has one entry. -/
theorem filter_key_toList (map : TreeMap α β) (k : α) :
    map.toList.filter (fun entry => entry.1 = k) = (map[k]?.map (k, ·)).toList := by
  cases found : map[k]? with
  | none =>
    refine List.filter_eq_nil_iff.mpr fun entry member keyed => ?_
    obtain ⟨k', v⟩ := entry
    obtain rfl : k' = k := of_decide_eq_true keyed
    rw [mem_toList_iff_getElem?_eq_some, found] at member
    cases member
  | some v =>
    refine List.perm_singleton.mp ((List.perm_ext_iff_of_nodup ((nodup_toList map).filter _)
      (List.nodup_singleton (k, v))).mpr fun entry => ?_)
    obtain ⟨k', v'⟩ := entry
    rw [List.mem_filter, decide_eq_true_eq, mem_toList_iff_getElem?_eq_some, List.mem_singleton, Prod.mk.injEq]
    constructor
    · rintro ⟨entryOf, rfl⟩
      rw [found] at entryOf
      exact ⟨rfl, (Option.some.inj entryOf).symm⟩
    · rintro ⟨rfl, rfl⟩
      exact ⟨found, rfl⟩

/-- A hash map filled by the same loop has the same lookups. -/
theorem getElem?_foldl_alter_hashMap [Hashable α] (pairs : List (α × V)) {map : TreeMap α (List V)}
    {hashMap : Std.HashMap α (List V)} (same : ∀ k : α, hashMap[k]? = map[k]?) (k : α) :
    (pairs.foldl (fun grouped pair =>
      grouped.alter pair.1 fun values => some (values.getD [] ++ [pair.2])) hashMap)[k]? =
    (pairs.foldl (fun grouped pair =>
      grouped.alter pair.1 fun values => some (values.getD [] ++ [pair.2])) map)[k]? := by
  induction pairs generalizing map hashMap with
  | nil => exact same k
  | cons pair pairs ih =>
    rw [List.foldl_cons, List.foldl_cons]
    apply ih
    intro k'
    rw [getElem?_alter, Std.HashMap.getElem?_alter, same, same]
    simp only [LawfulEqCmp.compare_eq_iff_eq, beq_iff_eq]

end Grouped

end Std.TreeMap
