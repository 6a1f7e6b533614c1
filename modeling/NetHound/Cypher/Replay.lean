import NetHound.Cypher.PropertyGraph
import NetHound.ToMathlib.MergeReplay

/-! # Statements run twice

Node merges are repeatable as they are. Relationship merges are repeatable when they are pairwise
compatible and no merge sets a key that another of its type matches on. A statement that ran has
merged its bound rows in order and counts, for each, the relationships that match it in the end
(`unwind_ok`), so the same statement over its own result counts the same.
-/

namespace Cypher

variable {Label RelType Key Value : Type*} [DecidableEq Label] [DecidableEq RelType] [DecidableEq Key]
  [DecidableEq Value]

/-! ## The laws -/

omit [DecidableEq RelType] [DecidableEq Value] in
/-- Node merges can be repeated. -/
theorem NodeMerge.repeatable : List.Repeatable (E := Node Label Key Value) NodeMerge.matched
    NodeMerge.assign NodeMerge.create fun _ => True where
  stable := fun _ _ _ => rfl
  owned := by
    intro row _
    refine ⟨decide_eq_true rfl, ?_⟩
    rw [NodeMerge.assign, NodeMerge.create, Node.mk.injEq]
    refine ⟨rfl, funext fun key => ?_⟩
    change (row.props.lookup key).getD ((row.props.lookup key).getD none) = _
    rcases row.props.lookup key with _ | value <;> rfl
  shared := by
    intro a b _ _ hit e
    rw [NodeMerge.matched, NodeMerge.matched, ← show b.ref = a.ref from of_decide_eq_true hit]
  idem := by
    intro row e _ _
    simp only [NodeMerge.assign, Node.mk.injEq, true_and]
    funext key
    rcases row.props.lookup key with _ | value <;> rfl
  absorbs := by
    intro a b e _ _ _ _
    simp only [NodeMerge.assign, Node.mk.injEq, true_and]
    funext key
    rcases a.props.lookup key with _ | value <;> rfl

/-- No merge of one type sets what another matches on. -/
def RelMerge.Separate (c d : RelMerge Label RelType Key Value) : Prop :=
  c.relType = d.relType → ∀ key ∈ c.mergeKeys, key ∉ d.setKeys

omit [DecidableEq Key] in
/-- Which relationships a merge matches depends on its key. -/
theorem RelMerge.matched_eq (c : RelMerge Label RelType Key Value) :
    c.matched = fun r => decide (r.relType = c.key.relType) && (decide (r.source = c.key.source) &&
      (decide (r.target = c.key.target) &&
        c.key.pattern.all fun entry => r.props entry.1 = entry.2)) := by
  funext r
  rw [RelMerge.matched, RelMerge.key, List.all_map]
  rfl

/-- Compatible, separate merges can be repeated. -/
theorem RelMerge.repeatable {p : RelMerge Label RelType Key Value → Prop}
    (compatible : ∀ c d, p c → p d → c.Compatible d) (separate : ∀ c d, p c → p d → c.Separate d) :
    List.Repeatable RelMerge.matched RelMerge.assign RelMerge.create p where
  stable := by
    intro c d r ofC ofD hit
    rw [RelMerge.matched, Bool.and_eq_true, decide_eq_true_eq] at hit
    by_cases sameType : r.relType = c.relType
    · have free := separate c d ofC ofD (sameType.symm.trans hit.1)
      have props : (c.mergeKeys.all fun key => (d.assign r).props key = c.row key) =
          c.mergeKeys.all fun key => r.props key = c.row key := by
        rw [Bool.eq_iff_iff, List.all_eq_true, List.all_eq_true]
        exact forall₂_congr fun key member => by
          simp only [RelMerge.assign, if_neg (free key member)]
      rw [RelMerge.matched, props]
      rfl
    · simp [RelMerge.matched, RelMerge.assign, sameType]
  owned := by
    intro c ofC
    obtain ⟨hit, assigned⟩ := RelMerge.createsKeyed (compatible c c ofC ofC)
    exact ⟨hit.trans (decide_eq_true rfl), assigned rfl⟩
  shared := by
    intro c d ofC ofD hit r
    have keyed := (RelMerge.createsKeyed (compatible c d ofC ofD)).1
    rw [hit] at keyed
    rw [RelMerge.matched_eq, RelMerge.matched_eq, of_decide_eq_true keyed.symm]
  idem := by
    intro c r _ _
    simp only [RelMerge.assign, Relationship.mk.injEq, true_and]
    funext key
    split <;> rfl
  absorbs := by
    intro c d r _ _ _ _
    simp only [RelMerge.assign, Relationship.mk.injEq, true_and]
    funext key
    split <;> rfl

/-! ## Node statements -/

omit [DecidableEq RelType] [DecidableEq Value] in
theorem PropertyGraph.mergeNodes_nodes (graph : PropertyGraph Label RelType Key Value)
    (rows : List (NodeMerge Label Key Value)) :
    (graph.mergeNodes rows).nodes =
      List.mergeAll NodeMerge.matched NodeMerge.assign NodeMerge.create rows graph.nodes := by
  induction rows generalizing graph with
  | nil => rfl
  | cons row rows ih => exact ih (graph.mergeNode row)

omit [DecidableEq Label] [DecidableEq RelType] [DecidableEq Key] [DecidableEq Value] in
theorem PropertyGraph.eq_of_parts {graph graph' : PropertyGraph Label RelType Key Value}
    (nodes : graph.nodes = graph'.nodes) (relationships : graph.relationships = graph'.relationships) :
    graph = graph' := by
  cases graph
  cases graph'
  cases nodes
  cases relationships
  rfl

omit [DecidableEq RelType] [DecidableEq Value] in
/-- Node rows change nothing in a graph whose nodes they have been merged into. -/
theorem PropertyGraph.mergeNodes_of_nodes {graph written : PropertyGraph Label RelType Key Value}
    {rows : List (NodeMerge Label Key Value)} (merged : written.nodes = (graph.mergeNodes rows).nodes) :
    written.mergeNodes rows = written := by
  apply eq_of_parts
  · rw [mergeNodes_nodes, merged, mergeNodes_nodes]
    exact NodeMerge.repeatable.mergeAll_mergeAll (by simp) graph.nodes
  · exact mergeNodes_relationships written rows

omit [DecidableEq RelType] [DecidableEq Value] in
/-- Node rows of which some had been merged before leave what they would have left anyway. -/
theorem PropertyGraph.mergeNodes_resumed (graph : PropertyGraph Label RelType Key Value)
    (rows later : List (NodeMerge Label Key Value)) :
    (graph.mergeNodes rows).mergeNodes (rows ++ later) = graph.mergeNodes (rows ++ later) := by
  apply eq_of_parts
  · rw [mergeNodes_nodes, mergeNodes_nodes, mergeNodes_nodes]
    exact NodeMerge.repeatable.mergeAll_resumed (by simp) later graph.nodes
  · rw [mergeNodes_relationships, mergeNodes_relationships, mergeNodes_relationships]

/-! ## Relationship statements -/

/-- How many relationships a statement's rows match in a graph, all told. -/
def PropertyGraph.tally (graph : PropertyGraph Label RelType Key Value)
    (rows : List (RelMerge Label RelType Key Value)) : ℕ :=
  (rows.map fun c => graph.relationships.countP c.matched).foldr (· + ·) 0

section Statements

variable {p : RelMerge Label RelType Key Value → Prop}
  (laws : List.Repeatable RelMerge.matched RelMerge.assign RelMerge.create p)
  {graph graph' : PropertyGraph Label RelType Key Value}
  {rows : List (RelMerge Label RelType Key Value)} {merged : ℕ}

include laws in
/-- What a statement that ran has done: its bound rows were complete and were merged in order, and
it counted, for each, what matches it in the end. -/
theorem PropertyGraph.unwind_ok (all : ∀ c ∈ rows, p c) (ran : graph.unwind rows = .ok (graph', merged)) :
    (∀ c ∈ graph.boundRows rows, c.Complete) ∧
      graph'.relationships = List.mergeAll RelMerge.matched RelMerge.assign RelMerge.create
        (graph.boundRows rows) graph.relationships ∧
      merged = graph'.tally (graph.boundRows rows) := by
  induction rows generalizing graph merged with
  | nil =>
    cases ran
    exact ⟨by simp [boundRows], rfl, rfl⟩
  | cons c rows ih =>
    obtain ⟨ofC, all⟩ := List.forall_mem_cons.mp all
    obtain ⟨middle, first, more, row, rest, rfl⟩ := unwind_cons_ok ran
    obtain ⟨complete, relationships, counted⟩ := ih all rest
    have sameRefs : middle.refs = graph.refs := by rw [refs, refs, runRow_nodes row]
    have sameRows : middle.boundRows rows = graph.boundRows rows := by
      simp only [boundRows, RelMerge.Bound, sameRefs]
    rw [sameRows] at complete relationships counted
    rcases runRow_ok row with ⟨unbound, rfl, rfl⟩ | ⟨bound, completeC, rfl, rfl⟩
    · have skipped : middle.boundRows (c :: rows) = middle.boundRows rows :=
        List.filter_cons_of_neg (by simpa using unbound)
      rw [skipped, Nat.zero_add]
      exact ⟨complete, relationships, counted⟩
    · have kept : graph.boundRows (c :: rows) = c :: graph.boundRows rows :=
        List.filter_cons_of_pos (by simpa using bound)
      have allBound : ∀ d ∈ graph.boundRows rows, p d := fun d member => all d (List.mem_of_mem_filter member)
      have own : graph'.relationships.countP c.matched = max 1 (graph.relationships.countP c.matched) := by
        rw [relationships]
        exact (laws.countP_mergeAll ofC allBound (laws.any_mergeInto_self ofC _)).trans
          (laws.countP_mergeInto_self ofC graph.relationships)
      rw [kept]
      refine ⟨List.forall_mem_cons.mpr ⟨completeC, complete⟩, relationships, ?_⟩
      rw [counted, tally, tally, List.map_cons, List.foldr_cons, own]

include laws in
/-- Over a graph that has something for each bound row to match, a statement counts that. -/
theorem PropertyGraph.exists_unwind_of_present (all : ∀ c ∈ rows, p c)
    (complete : ∀ c ∈ graph.boundRows rows, c.Complete)
    (present : ∀ c ∈ graph.boundRows rows, graph.relationships.any c.matched = true) :
    ∃ graph', graph.unwind rows = .ok (graph', graph.tally (graph.boundRows rows)) := by
  obtain ⟨graph', merged, ran⟩ := unwind_of_complete graph fun c member bound =>
    complete c (List.mem_filter.mpr ⟨member, decide_eq_true bound⟩)
  obtain ⟨_, relationships, counted⟩ := unwind_ok laws all ran
  refine ⟨graph', ?_⟩
  rw [ran, counted, tally, tally, relationships]
  congr 3
  refine List.map_congr_left fun c member => ?_
  have allBound : ∀ d ∈ graph.boundRows rows, p d := fun d inRows => all d (List.mem_of_mem_filter inRows)
  exact laws.countP_mergeAll (allBound c member) allBound (present c member)

end Statements

end Cypher
