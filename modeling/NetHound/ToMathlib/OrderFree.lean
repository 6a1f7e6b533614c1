import Mathlib.Data.List.Perm.Basic
import NetHound.ToMathlib.FirstMatch
import NetHound.ToMathlib.ListPieces

/-! # Searches that do not depend on the order

A search through a list finds the same in every order of it exactly when all it could find is
alike: an index is the same when every element or no element satisfies the predicate, a value when
any two values are equal, and a match of least key when any two of them look the same.
-/

namespace List

variable {α β κ : Type*}

private theorem exists_perm_cons {l : List α} {a : α} (member : a ∈ l) : ∃ rest, l.Perm (a :: rest) := by
  obtain ⟨before, after, rfl⟩ := append_of_mem member
  exact ⟨before ++ after, perm_middle⟩

/-- The first match has the same index in every order when all elements match or none does. -/
theorem findIdx?_perm_iff {p : α → Bool} {l : List α} :
    (∀ l', l.Perm l' → l'.findIdx? p = l.findIdx? p) ↔
      (∀ a ∈ l, p a = true) ∨ ∀ a ∈ l, p a = false := by
  constructor
  · intro same
    by_contra mixed
    push Not at mixed
    obtain ⟨⟨a, member, unmatched⟩, b, member', matched⟩ := mixed
    obtain ⟨rest, perm⟩ := exists_perm_cons member
    obtain ⟨rest', perm'⟩ := exists_perm_cons member'
    have first : l.findIdx? p = some 0 := by
      rw [← same _ perm', findIdx?_cons, if_pos (by simpa using matched)]
    rw [← same _ perm, findIdx?_cons, if_neg unmatched, Option.map_eq_some_iff] at first
    obtain ⟨index, _, shifted⟩ := first
    omega
  · rintro (all | none) l' perm
    · cases l with
      | nil => rw [perm.nil_eq]
      | cons a l =>
        cases l' with
        | nil => cases perm.eq_nil
        | cons b l' =>
          rw [findIdx?_cons, findIdx?_cons, if_pos (all a mem_cons_self),
            if_pos (all b (perm.mem_iff.mpr mem_cons_self))]
    · rw [findIdx?_eq_none_iff.mpr none,
        findIdx?_eq_none_iff.mpr fun a member => none a (perm.mem_iff.mpr member)]

/-- The first value found is the same in every order when any two values that could be found are. -/
theorem findSome?_perm_iff {f : α → Option β} {l : List α} :
    (∀ l', l.Perm l' → l'.findSome? f = l.findSome? f) ↔
      ∀ a ∈ l, ∀ b ∈ l, ∀ c d, f a = some c → f b = some d → c = d := by
  constructor
  · intro same a member b member' c d found found'
    obtain ⟨rest, perm⟩ := exists_perm_cons member
    obtain ⟨rest', perm'⟩ := exists_perm_cons member'
    have alike := (same _ perm).trans (same _ perm').symm
    rw [findSome?_cons, findSome?_cons, found, found'] at alike
    exact Option.some.inj alike
  · intro alike l' perm
    cases found : l.findSome? f with
    | none =>
      rw [findSome?_eq_none_iff] at found ⊢
      exact fun a member => found a (perm.mem_iff.mpr member)
    | some c =>
      obtain ⟨a, member, value⟩ := exists_of_findSome?_eq_some found
      cases found' : l'.findSome? f with
      | none =>
        rw [findSome?_eq_none_iff.mp found' a (perm.mem_iff.mp member)] at value
        cases value
      | some d =>
        obtain ⟨b, member', value'⟩ := exists_of_findSome?_eq_some found'
        rw [alike a member b (perm.mem_iff.mpr member') c d value value']

variable [LinearOrder κ]

/-- A match of least key. -/
def LeastMatches (key : α → κ) (p : α → Bool) (l : List α) (a : α) : Prop :=
  a ∈ l ∧ p a = true ∧ ∀ b ∈ l, p b = true → key a ≤ key b

instance (key : α → κ) (p : α → Bool) (l : List α) (a : α) [DecidableEq α] :
    Decidable (LeastMatches key p l a) :=
  inferInstanceAs (Decidable (_ ∧ _ ∧ _))

theorem LeastMatches.perm {key : α → κ} {p : α → Bool} {l l' : List α} {a : α} (perm : l.Perm l')
    (least : LeastMatches key p l a) : LeastMatches key p l' a :=
  ⟨perm.mem_iff.mp least.1, least.2.1, fun b member => least.2.2 b (perm.mem_iff.mpr member)⟩

/-- A match of least key is selected when it comes first. -/
theorem LeastMatches.leastMatch_cons {key : α → κ} {p : α → Bool} {l : List α} {a : α}
    (least : LeastMatches key p (a :: l) a) : leastMatch key p (a :: l) = some a := by
  obtain ⟨_, matched, below⟩ := least
  rw [leastMatch, if_pos matched]
  cases rest : leastMatch key p l with
  | none => rfl
  | some b =>
    obtain ⟨member, matchedRest, _⟩ := leastMatch_some rest
    exact if_neg (not_lt.mpr (below b (mem_cons_of_mem a member) matchedRest))

/-- What is seen of the selected match is the same in every order when any two matches of least key
look the same. -/
theorem leastMatch_perm_iff {key : α → κ} {p : α → Bool} {view : α → β} {l : List α} :
    (∀ l', l.Perm l' → (leastMatch key p l').map view = (leastMatch key p l).map view) ↔
      ∀ a b, LeastMatches key p l a → LeastMatches key p l b → view a = view b := by
  constructor
  · intro same a b least least'
    obtain ⟨rest, perm⟩ := exists_perm_cons least.1
    obtain ⟨rest', perm'⟩ := exists_perm_cons least'.1
    have alike := (same _ perm).trans (same _ perm').symm
    rw [(least.perm perm).leastMatch_cons, (least'.perm perm').leastMatch_cons] at alike
    exact Option.some.inj alike
  · intro alike l' perm
    cases found : leastMatch key p l with
    | none =>
      have unmatched := leastMatch_eq_none_iff.mp found
      rw [leastMatch_eq_none_iff.mpr fun a member => unmatched a (perm.mem_iff.mpr member)]
    | some a =>
      cases found' : leastMatch key p l' with
      | none =>
        have matched := (leastMatch_some found).2.1
        rw [leastMatch_eq_none_iff.mp found' a (perm.mem_iff.mp (leastMatch_some found).1)] at matched
        cases matched
      | some b =>
        exact congrArg some (alike b a (LeastMatches.perm perm.symm (leastMatch_some found'))
          (leastMatch_some found))

/-! ## Elements that cannot be selected -/

/-- A selected match stays selected where the elements up to its key are the same. -/
theorem leastMatch_of_filter_eq {key : α → κ} {p q : α → Bool} {l l' : List α} {a : α}
    (found : leastMatch key p l = some a) (same : l'.filter q = l.filter q)
    (kept : ∀ b, p b = true → key b ≤ key a → q b = true) : leastMatch key p l' = some a := by
  obtain ⟨_, matched, _⟩ := leastMatch_some found
  have selected : leastMatch key (fun b => q b && p b) l' = some a := by
    rw [← leastMatch_filter, same, leastMatch_filter]
    exact leastMatch_and_of_some found (kept a matched le_rfl)
  have member : a ∈ l' := (leastMatch_some selected).1
  cases found' : leastMatch key p l' with
  | none =>
    rw [leastMatch_eq_none_iff.mp found' a member] at matched
    cases matched
  | some b =>
    obtain ⟨_, matched', least⟩ := leastMatch_some found'
    have selected' := leastMatch_and_of_some found' (kept b matched' (least a member matched))
    rw [← selected', selected]

/-- The matches of least key are those among the elements up to a selected match's key. -/
theorem LeastMatches.of_filter_eq {key : α → κ} {p q : α → Bool} {l l' : List α} {a b : α}
    (found : leastMatch key p l = some a) (same : l'.filter q = l.filter q)
    (kept : ∀ b, p b = true → key b ≤ key a → q b = true) (least : LeastMatches key p l' b) :
    LeastMatches key p l b := by
  obtain ⟨member, matched, below⟩ := leastMatch_some (leastMatch_of_filter_eq found same kept)
  have upTo : key b ≤ key a := least.2.2 a member matched
  have inBoth : b ∈ l.filter q := same ▸ mem_filter.mpr ⟨least.1, kept b least.2.1 upTo⟩
  exact ⟨(mem_filter.mp inBoth).1, least.2.1,
    fun c inList matchedC => upTo.trans ((leastMatch_some found).2.2 c inList matchedC)⟩

end List
