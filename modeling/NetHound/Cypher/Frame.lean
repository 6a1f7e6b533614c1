import NetHound.Cypher.PropertyGraph

/-! # What writes leave alone

Two graphs agree on a set of nodes when each has the same nodes of it and the same relationships that start at
them. Writes of other nodes, and of relationships that start at other nodes, keep a graph in agreement with the
one before them. A statement keeps what each of its rows keeps (`unwind_invariant`).
-/

namespace Cypher

variable {Label RelType Key Value : Type*} [DecidableEq Label] [DecidableEq Key]

/-- The same nodes of a set, and the same relationships out of it. -/
structure PropertyGraph.AgreeOn (own : NodeRef Label → Bool)
    (graph graph' : PropertyGraph Label RelType Key Value) : Prop where
  nodes : ∀ ref, own ref = true → graph.nodesAt ref = graph'.nodesAt ref
  relationships : (graph.restrict fun r => own r.source).relationships =
    (graph'.restrict fun r => own r.source).relationships

namespace PropertyGraph

variable {own : NodeRef Label → Bool} {graph graph' graph'' : PropertyGraph Label RelType Key Value}

omit [DecidableEq Key] in
theorem AgreeOn.refl (graph : PropertyGraph Label RelType Key Value) : AgreeOn own graph graph :=
  ⟨fun _ _ => rfl, rfl⟩

omit [DecidableEq Key] in
theorem AgreeOn.trans (first : AgreeOn own graph graph') (second : AgreeOn own graph' graph'') :
    AgreeOn own graph graph'' :=
  ⟨fun ref member => (first.nodes ref member).trans (second.nodes ref member),
    first.relationships.trans second.relationships⟩

/-- Node rows of other nodes. -/
theorem agreeOn_mergeNodes {rows : List (NodeMerge Label Key Value)} (foreign : ∀ row ∈ rows, own row.ref = false)
    (graph : PropertyGraph Label RelType Key Value) : AgreeOn own graph (graph.mergeNodes rows) where
  nodes := by
    intro ref member
    have none : rows.filter (fun row => row.ref = ref) = [] := by
      rw [List.filter_eq_nil_iff]
      intro row inRows same
      have apart := foreign row inRows
      rw [of_decide_eq_true same, member] at apart
      cases apart
    rw [nodesAt_mergeNodes, none]
    rfl
  relationships := by
    change graph.relationships.filter _ = (graph.mergeNodes rows).relationships.filter _
    rw [mergeNodes_relationships]

variable [DecidableEq RelType] [DecidableEq Value]

private theorem agreeOn_mergeRelationship {c : RelMerge Label RelType Key Value}
    (foreign : own c.source = false) (bound : c.Bound graph) : AgreeOn own graph (graph.mergeRelationship c bound) where
  nodes := fun _ _ => rfl
  relationships := by
    have dropped : (graph.mergeRelationship c bound).relationships.filter (fun r => own r.source) =
        graph.relationships.filter fun r => own r.source := by
      apply List.filter_mergeInto_of_dropped
      · intro r hit
        have source : r.source = c.source := by
          simp only [RelMerge.matched, Bool.and_eq_true, decide_eq_true_eq] at hit
          exact hit.2.1
        change own r.source = false ∧ own r.source = false
        rw [source]
        exact ⟨foreign, foreign⟩
      · exact foreign
    exact dropped.symm

/-- What every bound row with a complete pattern keeps, a statement keeps. -/
theorem unwind_invariant {inv : PropertyGraph Label RelType Key Value → Prop}
    {rows : List (RelMerge Label RelType Key Value)}
    (kept : ∀ c ∈ rows, c.Complete → ∀ graph (bound : c.Bound graph), inv graph →
      inv (graph.mergeRelationship c bound))
    {merged : ℕ} (unwound : graph.unwind rows = .ok (graph', merged)) (holds : inv graph) : inv graph' := by
  induction rows generalizing graph merged with
  | nil =>
    cases unwound
    exact holds
  | cons c rows ih =>
    obtain ⟨keptFirst, keptRest⟩ := List.forall_mem_cons.mp kept
    obtain ⟨middle, _, _, row, rest, _⟩ := unwind_cons_ok unwound
    apply ih keptRest rest
    rcases runRow_ok row with ⟨_, rfl, _⟩ | ⟨bound, complete, rfl, _⟩
    · exact holds
    · exact keptFirst complete graph bound holds

/-- Relationship rows that start at other nodes. -/
theorem agreeOn_unwind {rows : List (RelMerge Label RelType Key Value)}
    (foreign : ∀ c ∈ rows, own c.source = false) {merged : ℕ}
    (unwound : graph.unwind rows = .ok (graph', merged)) : AgreeOn own graph graph' := by
  have kept : ∀ c ∈ rows, c.Complete → ∀ middle (bound : c.Bound middle), AgreeOn own graph middle →
      AgreeOn own graph (middle.mergeRelationship c bound) :=
    fun c member _ _ bound agree => agree.trans (agreeOn_mergeRelationship (foreign c member) bound)
  exact unwind_invariant kept unwound (.refl graph)

end PropertyGraph

end Cypher
