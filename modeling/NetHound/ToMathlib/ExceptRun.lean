import Mathlib.Data.List.Forall2
import Mathlib.Data.List.Perm.Basic

/-! # Runs that may fail

What a successful run of `Except` says about its parts: of a bind, and of a list mapped element by
element.
-/

universe u v

namespace Except

variable {ε : Type u} {α β : Type v}

theorem bind_eq_ok_iff {x : Except ε α} {f : α → Except ε β} {b : β} :
    (x >>= f) = .ok b ↔ ∃ a, x = .ok a ∧ f a = .ok b := by
  rcases x with e | a
  · constructor
    · intro run
      cases run
    · rintro ⟨_, run, _⟩
      cases run
  · constructor
    · exact fun run => ⟨a, rfl, run⟩
    · rintro ⟨_, same, run⟩
      cases same
      exact run

/-- A run succeeds if its first step does and the rest does after it. -/
theorem exists_bind_ok {x : Except ε α} {f : α → Except ε β} {a : α} (first : x = .ok a)
    (rest : ∃ b, f a = .ok b) : ∃ b, (x >>= f) = .ok b := by
  obtain ⟨b, run⟩ := rest
  exact ⟨b, bind_eq_ok_iff.mpr ⟨a, first, run⟩⟩

theorem map_eq_ok_iff {x : Except ε α} {f : α → β} {b : β} :
    x.map f = .ok b ↔ ∃ a, x = .ok a ∧ f a = b := by
  rcases x with e | a
  · constructor
    · intro run
      cases run
    · rintro ⟨_, run, _⟩
      cases run
  · constructor
    · intro run
      exact ⟨a, rfl, Except.ok.inj run⟩
    · rintro ⟨_, same, rfl⟩
      cases same
      rfl

theorem mapError_eq_ok_iff {ε' : Type u} {x : Except ε α} {f : ε → ε'} {a : α} :
    x.mapError f = .ok a ↔ x = .ok a := by
  rcases x with e | b
  · exact ⟨fun run => (nomatch run), fun run => (nomatch run)⟩
  · exact ⟨fun run => congrArg Except.ok (Except.ok.inj run), fun run =>
      congrArg Except.ok (Except.ok.inj run)⟩

end Except

namespace List

variable {ε : Type u} {α β : Type v} {f : α → Except ε β}

/-- A list maps successfully when each element does, in order. -/
theorem mapM_eq_ok_iff {l : List α} {l' : List β} :
    l.mapM f = .ok l' ↔ Forall₂ (fun a b => f a = .ok b) l l' := by
  induction l generalizing l' with
  | nil =>
    rw [mapM_nil, forall₂_nil_left_iff]
    exact ⟨fun run => (Except.ok.inj run).symm, fun empty => by rw [empty]; rfl⟩
  | cons a l ih =>
    rw [mapM_cons, Except.bind_eq_ok_iff, forall₂_cons_left_iff]
    constructor
    · rintro ⟨b, first, run⟩
      obtain ⟨rest, tail, done⟩ := Except.bind_eq_ok_iff.mp run
      exact ⟨b, rest, first, ih.mp tail, (Except.ok.inj done).symm⟩
    · rintro ⟨b, rest, first, tail, rfl⟩
      exact ⟨b, first, Except.bind_eq_ok_iff.mpr ⟨rest, ih.mpr tail, rfl⟩⟩

/-- A map whose successes are known in advance. -/
theorem eq_map_of_mapM_ok {l : List α} {l' : List β} {g : α → β} (run : l.mapM f = .ok l')
    (each : ∀ a b, f a = .ok b → b = g a) : l' = l.map g := by
  have pointwise := mapM_eq_ok_iff.mp run
  clear run
  induction pointwise with
  | nil => rfl
  | cons head _ ih => rw [map_cons, ← ih, each _ _ head]

/-- What holds of every element of a list built piece by piece, source by source. -/
theorem forall_mem_flatten_iff {γ : Type v} {R : γ → List β → Prop} {l : List γ} {l' : List (List β)}
    {p : β → Prop} {q : γ → Prop} (pieces : Forall₂ R l l')
    (each : ∀ c bs, R c bs → ((∀ b ∈ bs, p b) ↔ q c)) : (∀ b ∈ l'.flatten, p b) ↔ ∀ c ∈ l, q c := by
  induction pieces with
  | nil => simp
  | cons head _ ih => rw [flatten_cons, forall_mem_append, forall_mem_cons, ih, each _ _ head]

/-- A reordered list maps to a reordered result. -/
theorem exists_perm_of_mapM_ok {l l₁ : List α} {l' : List β} (reordered : l.Perm l₁)
    (run : l.mapM f = .ok l') :
    ∃ l₁', l₁.mapM f = .ok l₁' ∧ l'.Perm l₁' := by
  obtain ⟨l₁', pointwise, perm⟩ := perm_comp_forall₂ reordered.symm (mapM_eq_ok_iff.mp run)
  exact ⟨l₁', mapM_eq_ok_iff.mpr pointwise, perm.symm⟩

/-- A reordered result of the elements a filter keeps is that of a reordered list. -/
theorem exists_perm_of_mapM_filter_ok {l : List α} {p : α → Bool} {l' l₁' : List β}
    (run : (l.filter p).mapM f = .ok l') (reordered : l'.Perm l₁') :
    ∃ l₁, l.Perm l₁ ∧ (l₁.filter p).mapM f = .ok l₁' := by
  obtain ⟨kept, pointwise, perm⟩ := perm_comp_forall₂ reordered.symm (mapM_eq_ok_iff.mp run).flip
  have all : kept.filter p = kept :=
    filter_eq_self.mpr fun a member => (mem_filter.mp (perm.mem_iff.mp member)).2
  have none : (l.filter fun a => !p a).filter p = [] := by
    rw [filter_filter, filter_eq_nil_iff]
    simp
  refine ⟨kept ++ l.filter fun a => !p a, ?_, ?_⟩
  · exact (filter_append_perm p l).symm.trans (perm.symm.append_right _)
  · rw [filter_append, all, none, append_nil]
    exact mapM_eq_ok_iff.mpr pointwise.flip

/-- Filtering what is mapped filters the result, where the filters agree. -/
theorem mapM_filter_ok {l : List α} {l' : List β} {p : α → Bool} {q : β → Bool} (run : l.mapM f = .ok l')
    (same : ∀ a b, f a = .ok b → q b = p a) : (l.filter p).mapM f = .ok (l'.filter q) := by
  rw [mapM_eq_ok_iff] at run ⊢
  induction run with
  | nil => exact .nil
  | cons head _ ih =>
    rw [filter_cons, filter_cons, same _ _ head]
    split
    · exact .cons head ih
    · exact ih

theorem Forall₂.exists_right {R : α → β → Prop} {l : List α} {l' : List β} (pointwise : Forall₂ R l l')
    {a : α} (member : a ∈ l) : ∃ b ∈ l', R a b := by
  induction pointwise with
  | nil => cases member
  | cons head _ ih =>
    rcases mem_cons.mp member with rfl | member
    · exact ⟨_, mem_cons_self, head⟩
    · obtain ⟨b, present, each⟩ := ih member
      exact ⟨b, mem_cons_of_mem _ present, each⟩

theorem exists_of_mapM_eq_ok {l : List α} {l' : List β} (run : l.mapM f = .ok l') {a : α}
    (member : a ∈ l) : ∃ b ∈ l', f a = .ok b :=
  (mapM_eq_ok_iff.mp run).exists_right member

/-- A run succeeds exactly when its steps all do. -/
theorem exists_mapM_ok_iff {l : List α} : (∃ l', l.mapM f = .ok l') ↔ ∀ a ∈ l, ∃ b, f a = .ok b := by
  constructor
  · rintro ⟨l', run⟩ a member
    obtain ⟨b, _, step⟩ := exists_of_mapM_eq_ok run member
    exact ⟨b, step⟩
  · intro each
    induction l with
    | nil => exact ⟨[], rfl⟩
    | cons a l ih =>
      obtain ⟨b, first⟩ := each a mem_cons_self
      obtain ⟨l', rest⟩ := ih fun a member => each a (mem_cons_of_mem _ member)
      exact ⟨b :: l', mapM_eq_ok_iff.mpr (.cons first (mapM_eq_ok_iff.mp rest))⟩

theorem exists_of_mem_mapM_ok {l : List α} {l' : List β} (run : l.mapM f = .ok l') {b : β}
    (member : b ∈ l') : ∃ a ∈ l, f a = .ok b :=
  (mapM_eq_ok_iff.mp run).flip.exists_right member

end List
