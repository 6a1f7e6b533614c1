import Mathlib.Data.List.Forall2
import Mathlib.Order.Basic
import Mathlib.Order.MinMax

/-! # Three-valued outcomes

`Kleene` is the strong Kleene truth value of a check that may lack information. Alternatives
combine by maximum, and requirements are met up to the first that is not. `Refines` is the
information order: an undecided value may settle either way and a decided one stays, and both ways of
combining preserve it.
`combine` also names the undecided requirements. `consulted` is the part of a list of requirements
that an evaluation stopping at the first unmet one looks at; `combine_consulted_iff` says exactly
when stopping there loses nothing.
-/

/-- Strong Kleene truth values. -/
inductive Kleene where
  | no
  | unknown
  | yes
deriving DecidableEq, Repr

namespace Kleene

variable {α β L : Type*}

private def rank : Kleene → ℕ
  | no => 0
  | unknown => 1
  | yes => 2

private theorem rank_injective : Function.Injective rank := by
  intro a b same
  cases a <;> cases b <;> first | rfl | cases same

instance : LinearOrder Kleene := LinearOrder.lift' rank rank_injective

/-- Alternatives: the strongest outcome. -/
def any : List Kleene → Kleene := List.foldr max no

@[simp] theorem any_nil : any [] = no := rfl

@[simp] theorem any_cons (k : Kleene) (l : List Kleene) : any (k :: l) = max k (any l) := rfl

@[simp] theorem ite_ne_unknown {p : Prop} [Decidable p] : (if p then yes else no) ≠ unknown := by
  split <;> simp

private theorem max_eq_yes (a b : Kleene) : max a b = yes ↔ a = yes ∨ b = yes := by
  cases a <;> cases b <;> decide

private theorem max_eq_no (a b : Kleene) : max a b = no ↔ a = no ∧ b = no := by
  cases a <;> cases b <;> decide

theorem any_eq_yes_iff {l : List Kleene} : any l = yes ↔ yes ∈ l := by
  induction l with
  | nil => simp
  | cons k l ih => rw [any_cons, max_eq_yes, ih, List.mem_cons, eq_comm]

theorem any_eq_no_iff {l : List Kleene} : any l = no ↔ ∀ k ∈ l, k = no := by
  induction l with
  | nil => simp
  | cons k l ih => rw [any_cons, max_eq_no, ih, List.forall_mem_cons]

theorem any_eq_unknown_iff {l : List Kleene} : any l = unknown ↔ yes ∉ l ∧ unknown ∈ l := by
  rw [← any_eq_yes_iff]
  constructor
  · intro undecided
    refine ⟨by simp [undecided], ?_⟩
    by_contra absent
    have allNo : ∀ k ∈ l, k = no := by
      intro k member
      cases k with
      | no => rfl
      | unknown => exact absurd member absent
      | yes => simp [any_eq_yes_iff.mpr member] at undecided
    simp [any_eq_no_iff.mpr allNo] at undecided
  · rintro ⟨notYes, present⟩
    cases value : any l with
    | no => cases any_eq_no_iff.mp value unknown present
    | unknown => rfl
    | yes => exact absurd value notYes

theorem le_any {k : Kleene} {l : List Kleene} (member : k ∈ l) : k ≤ any l := by
  induction l with
  | nil => cases member
  | cons first l ih =>
    rw [any_cons]
    rcases List.mem_cons.mp member with rfl | later
    · exact le_max_left k (any l)
    · exact (ih later).trans (le_max_right first (any l))

theorem any_le {k : Kleene} {l : List Kleene} (below : ∀ a ∈ l, a ≤ k) : any l ≤ k := by
  induction l with
  | nil => cases k <;> decide
  | cons first l ih =>
    obtain ⟨head, tail⟩ := List.forall_mem_cons.mp below
    exact max_le head (ih tail)

/-- More alternatives never weaken the strongest one. -/
theorem any_mono {l l' : List Kleene} (subset : l ⊆ l') : any l ≤ any l' :=
  any_le fun _ member => le_any (subset member)

/-- The information order: only an undecided value may change. -/
def Refines (k settled : Kleene) : Prop := k = unknown ∨ settled = k

instance (k settled : Kleene) : Decidable (k.Refines settled) :=
  inferInstanceAs (Decidable (_ ∨ _))

theorem Refines.refl (k : Kleene) : k.Refines k := .inr rfl

theorem Refines.yes {settled : Kleene} (refines : Refines yes settled) : settled = yes := by
  simpa [Refines] using refines

theorem Refines.no {settled : Kleene} (refines : Refines no settled) : settled = no := by
  simpa [Refines] using refines

private theorem max_refines : ∀ {a b a' b' : Kleene}, a.Refines a' → b.Refines b' →
    (max a b).Refines (max a' b') := by
  intro a b a' b'
  cases a <;> cases b <;> cases a' <;> cases b' <;> decide

/-- Settling alternatives one by one settles their union, and never reverses a decided one. -/
theorem any_refines {l l' : List Kleene} (pointwise : List.Forall₂ Refines l l') :
    (any l).Refines (any l') := by
  induction pointwise with
  | nil => exact .refl _
  | cons head _ ih => exact max_refines head ih

/-- The first requirement that is not met, or that all are. -/
def firstUnmet : List Kleene → Kleene
  | [] => yes
  | k :: l => if k = yes then firstUnmet l else k

theorem firstUnmet_eq_yes_iff {l : List Kleene} : firstUnmet l = yes ↔ ∀ k ∈ l, k = yes := by
  induction l with
  | nil => simp [firstUnmet]
  | cons k l ih =>
    by_cases met : k = yes
    · simp [firstUnmet, met, ih]
    · simp [firstUnmet, met]

/-- Settling requirements one by one never reverses where a sequential evaluation stops. -/
theorem firstUnmet_refines {l l' : List Kleene} (pointwise : List.Forall₂ Refines l l') :
    (firstUnmet l).Refines (firstUnmet l') := by
  induction pointwise with
  | nil => exact .refl _
  | @cons k k' l l' head _ ih =>
    cases k with
    | no => simp [firstUnmet, head.no, Refines]
    | unknown => exact .inl rfl
    | yes => simpa [firstUnmet, head.yes] using ih

/-- A combined requirement, naming what was left undecided. -/
inductive Combined (L : Type*) where
  | no
  | unknown (labels : List L)
  | yes
deriving DecidableEq, Repr

def Combined.kind : Combined L → Kleene
  | .no => .no
  | .unknown _ => .unknown
  | .yes => .yes

/-- The combination of a single requirement. -/
def Combined.single (label : L) : Kleene → Combined L
  | .no => .no
  | .unknown => .unknown [label]
  | .yes => .yes

/-- One unmet requirement decides; otherwise the undecided ones are listed in order. -/
def combine (kind : α → Kleene) (label : α → L) (l : List α) : Combined L :=
  if l.any (fun a => kind a = no) then .no
  else
    match (l.filter (fun a => kind a = unknown)).map label with
    | [] => .yes
    | labels => .unknown labels

/-- What an evaluation that stops at the first requirement not met looks at. -/
def consulted (kind : α → Kleene) : List α → List α
  | [] => []
  | a :: l => if kind a = yes then a :: consulted kind l else [a]

theorem consulted_prefix (kind : α → Kleene) (l : List α) : consulted kind l <+: l := by
  induction l with
  | nil => exact List.prefix_rfl
  | cons a l ih =>
    rw [consulted]
    split
    · exact List.cons_prefix_cons.mpr ⟨rfl, ih⟩
    · exact List.cons_prefix_cons.mpr ⟨rfl, List.nil_prefix⟩

theorem consulted_eq_nil_iff {kind : α → Kleene} {l : List α} : consulted kind l = [] ↔ l = [] := by
  cases l with
  | nil => simp [consulted]
  | cons a l =>
    rw [consulted]
    split <;> simp

/-- Every requirement consulted before the last one is met. -/
theorem kind_of_mem_dropLast_consulted {kind : α → Kleene} {l : List α} {a : α}
    (member : a ∈ (consulted kind l).dropLast) : kind a = yes := by
  induction l with
  | nil => cases member
  | cons b l ih =>
    rw [consulted] at member
    split at member
    · next met =>
      by_cases empty : consulted kind l = []
      · rw [empty] at member
        cases member
      · rw [List.dropLast_cons_of_ne_nil empty] at member
        rcases List.mem_cons.mp member with rfl | later
        · exact met
        · exact ih later
    · cases member

/-- An evaluation that stops short stops at a requirement that is not met. -/
theorem kind_getLast_consulted {kind : α → Kleene} {l : List α} {a : α}
    (last : (consulted kind l).getLast? = some a) (short : consulted kind l ≠ l) : kind a ≠ yes := by
  induction l with
  | nil => exact absurd rfl short
  | cons b l ih =>
    rw [consulted] at last short
    split at last
    · next met =>
      rw [if_pos met] at short
      have shorter : consulted kind l ≠ l := fun same => short (by rw [same])
      have nonempty : consulted kind l ≠ [] := fun empty => shorter (by
        rw [empty, consulted_eq_nil_iff.mp empty])
      rw [List.getLast?_cons_of_ne_nil nonempty] at last
      exact ih last shorter
    · next unmet =>
      cases last
      exact unmet

/-- Stopping early loses nothing: after the first undecided requirement all others are met. -/
def StoppingIsExact (kind : α → Kleene) : List α → Prop
  | [] => True
  | a :: l =>
      match kind a with
      | yes => StoppingIsExact kind l
      | no => True
      | unknown => ∀ b ∈ l, kind b = yes

/-- Stopping early reports the first requirement that is not met. -/
theorem combine_consulted_kind (kind : α → Kleene) (label : α → L) (l : List α) :
    (combine kind label (consulted kind l)).kind = firstUnmet (l.map kind) := by
  induction l with
  | nil => rfl
  | cons a l ih =>
    cases value : kind a with
    | yes =>
      simp only [consulted, value, ↓reduceIte, List.map_cons, firstUnmet, ← ih]
      simp [combine, value]
    | no => simp [consulted, combine, value, firstUnmet, Combined.kind]
    | unknown => simp [consulted, combine, value, firstUnmet, Combined.kind]

/-- An undecided sequential evaluation names the one requirement it stopped at. -/
theorem combine_consulted_unknown {kind : α → Kleene} {label : α → L} {l : List α} {labels : List L}
    (undecided : combine kind label (consulted kind l) = .unknown labels) :
    ∃ a ∈ l, kind a = unknown ∧ labels = [label a] := by
  induction l with
  | nil => cases undecided
  | cons a l ih =>
    cases value : kind a with
    | yes =>
      have tail : combine kind label (consulted kind l) = .unknown labels := by
        simpa [consulted, combine, value] using undecided
      obtain ⟨b, member, stopped, named⟩ := ih tail
      exact ⟨b, List.mem_cons_of_mem a member, stopped, named⟩
    | no => simp [consulted, combine, value] at undecided
    | unknown =>
      have named : [label a] = labels := by simpa [consulted, combine, value] using undecided
      exact ⟨a, List.mem_cons_self, value, named.symm⟩

private theorem combine_cons_yes (kind : α → Kleene) (label : α → L) {a : α} (l : List α)
    (met : kind a = yes) : combine kind label (a :: l) = combine kind label l := by
  simp [combine, met]

/-- A map of the requirements moves into their truth values and labels. -/
theorem consulted_map (kind : β → Kleene) (f : α → β) (l : List α) :
    consulted kind (l.map f) = (consulted (kind ∘ f) l).map f := by
  induction l with
  | nil => rfl
  | cons a l ih =>
    rw [List.map_cons, consulted, consulted, ih, Function.comp_apply]
    split <;> rfl

/-- Two evaluations look at the same exactly when each requirement the first one gets to is the same. -/
theorem consulted_map_eq_iff {kind : β → Kleene} {f g : α → β} {l : List α} :
    consulted kind (l.map f) = consulted kind (l.map g) ↔
      ∀ before a after, l = before ++ a :: after → (∀ b ∈ before, kind (f b) = yes) → f a = g a := by
  induction l with
  | nil => simp
  | cons a l ih =>
    have step : (∀ before b after, a :: l = before ++ b :: after →
        (∀ c ∈ before, kind (f c) = yes) → f b = g b) ↔
          f a = g a ∧ (kind (f a) = yes → ∀ before b after, l = before ++ b :: after →
            (∀ c ∈ before, kind (f c) = yes) → f b = g b) := by
      constructor
      · intro same
        refine ⟨same [] a l rfl (by simp), fun met before b after split earlier => ?_⟩
        exact same (a :: before) b after (by rw [split]; rfl) (List.forall_mem_cons.mpr ⟨met, earlier⟩)
      · rintro ⟨head, tail⟩ before b after split earlier
        cases before with
        | nil =>
          cases split
          exact head
        | cons c before =>
          obtain ⟨rfl, rest⟩ := List.cons.inj split
          obtain ⟨met, earlier⟩ := List.forall_mem_cons.mp earlier
          exact tail met before b after rest earlier
    rw [step, ← ih, List.map_cons, List.map_cons, consulted, consulted]
    by_cases head : f a = g a
    · rw [← head]
      by_cases met : kind (f a) = yes
      · simp [met]
      · simp [met]
    · refine iff_of_false (fun same => head ?_) fun both => head both.1
      split_ifs at same <;> exact (List.cons.inj same).1

theorem combine_map (kind : β → Kleene) (label : β → L) (f : α → β) (l : List α) :
    combine kind label (l.map f) = combine (kind ∘ f) (label ∘ f) l := by
  simp only [combine, List.any_map, List.filter_map, List.map_map]
  rfl

/-- Stopping early reports the requirement it stopped at. -/
theorem combine_consulted_getLast {kind : α → Kleene} (label : α → L) {l : List α} {a : α}
    (last : (consulted kind l).getLast? = some a) :
    combine kind label (consulted kind l) = .single (label a) (kind a) := by
  induction l with
  | nil => cases last
  | cons b l ih =>
    rw [consulted] at last ⊢
    by_cases met : kind b = yes
    · rw [if_pos met] at last ⊢
      rw [combine_cons_yes kind label _ met]
      by_cases empty : consulted kind l = []
      · rw [empty, List.getLast?_singleton, Option.some_inj] at last
        rw [empty, ← last, met]
        rfl
      · rw [List.getLast?_cons_of_ne_nil empty] at last
        exact ih last
    · rw [if_neg met] at last ⊢
      rw [List.getLast?_singleton, Option.some_inj] at last
      rw [← last]
      cases value : kind b with
      | no => simp [combine, value, Combined.single]
      | unknown => simp [combine, value, Combined.single]
      | yes => exact absurd value met

private theorem combine_cons_unknown_iff (kind : α → Kleene) (label : α → L) {a : α} (l : List α)
    (undecided : kind a = unknown) :
    combine kind label [a] = combine kind label (a :: l) ↔ ∀ b ∈ l, kind b = yes := by
  have single : combine kind label [a] = .unknown [label a] := by simp [combine, undecided]
  rw [single]
  by_cases unmet : ∃ b ∈ l, kind b = no
  · have denied : combine kind label (a :: l) = .no := by
      simp [combine, undecided, unmet]
    rw [denied]
    obtain ⟨b, member, isNo⟩ := unmet
    simp only [reduceCtorEq, false_iff, not_forall]
    exact ⟨b, member, by simp [isNo]⟩
  · have listed : combine kind label (a :: l) =
        .unknown (label a :: (l.filter (fun b => kind b = unknown)).map label) := by
      simp [combine, undecided, unmet]
    rw [listed, Combined.unknown.injEq, List.cons.injEq, eq_comm (a := ([] : List L)),
      List.map_eq_nil_iff, List.filter_eq_nil_iff]
    simp only [true_and, decide_eq_true_eq]
    push Not at unmet
    refine forall₂_congr fun b member => ?_
    have := unmet b member
    cases value : kind b <;> simp_all

/-- Stopping at the first requirement not met gives the combination of all of them exactly when
no later requirement falls short after an undecided one. -/
theorem combine_consulted_iff (kind : α → Kleene) (label : α → L) (l : List α) :
    combine kind label (consulted kind l) = combine kind label l ↔ StoppingIsExact kind l := by
  induction l with
  | nil => simp [consulted, StoppingIsExact]
  | cons a l ih =>
    cases value : kind a with
    | yes =>
      simp only [consulted, value, ↓reduceIte, StoppingIsExact]
      rw [combine_cons_yes kind label _ value, combine_cons_yes kind label _ value, ih]
    | no => simp [consulted, StoppingIsExact, value, combine]
    | unknown =>
      simp only [consulted, value, reduceCtorEq, ↓reduceIte, StoppingIsExact]
      exact combine_cons_unknown_iff kind label l value

end Kleene
