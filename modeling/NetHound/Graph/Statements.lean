import NetHound.Graph.Upserts

/-! # Sequences of edge statements

The rule and route upserts send their rows to several queries. A `Statement` is a query with its
rows, `runStatements` runs them in order, and each of these upserts is such a run. Over a graph that
only ever held what merges wrote, a run succeeds exactly when every row of every statement names
existing endpoints and supplies its whole merge pattern (`runStatements_iff`), and then it has
upserted all of them in order (`runStatements_ok`).
-/

namespace NetHound.Graph

open Domain Cypher

abbrev Statement := EdgeQuery × List Row

def runStatements : List Statement → Write
  | [], graph => .ok graph
  | statement :: statements, graph => do
      let graph ← runEdgeUpsert statement.1 statement.2 graph
      runStatements statements graph

theorem runStatements_append (statements more : List Statement) (graph : Neo4jGraph) :
    runStatements (statements ++ more) graph =
      (runStatements statements graph >>= fun graph => runStatements more graph) := by
  induction statements generalizing graph with
  | nil => rfl
  | cons statement statements ih =>
    rw [List.cons_append, runStatements, runStatements]
    rcases runEdgeUpsert statement.1 statement.2 graph with failure | middle
    · rfl
    · exact ih middle

/-- Edge statements never touch nodes. -/
theorem runStatements_nodes {statements : List Statement} {graph graph' : Neo4jGraph}
    (ran : runStatements statements graph = .ok graph') : graph'.nodes = graph.nodes := by
  induction statements generalizing graph with
  | nil =>
    cases ran
    rfl
  | cons statement statements ih =>
    obtain ⟨middle, first, rest⟩ := Except.bind_eq_ok_iff.mp ran
    exact (ih rest).trans (runEdgeUpsert_nodes first)

/-- The statements the rules of a direction are sent in. -/
def sgRuleStatements (direction : Direction) (batches : List SgRuleBatch) : List Statement :=
  let rows := splitSgRuleRows batches
  match direction with
  | .egress =>
      [(allowsEgressCidrUpsert, rows.cidrRows),
        (allowsEgressSgRefResolvedUpsert, rows.sgRefResolvedRows),
        (allowsEgressSgRefUnresolvedUpsert, rows.sgRefUnresolvedRows)]
  | .ingress =>
      [(allowsIngressCidrUpsert, rows.cidrRows),
        (allowsIngressSgRefResolvedUpsert, rows.sgRefResolvedRows),
        (allowsIngressSgRefUnresolvedUpsert, rows.sgRefUnresolvedRows)]

/-- The statements routes are sent in. -/
def routeStatements (edges : List RoutesToEdge) : List Statement :=
  let rows := splitRouteRows edges
  [(routesToResolvedUpsert, rows.resolvedRows), (routesToUnresolvedUpsert, rows.unresolvedRows)]

private theorem bind_ok {ε α : Type} (x : Except ε α) : (x >>= fun a => .ok a) = x := by
  cases x <;> rfl

theorem runStatements_singleton (query : EdgeQuery) (rows : List Row) :
    runStatements [(query, rows)] = runEdgeUpsert query rows := by
  funext graph
  exact bind_ok _

theorem upsertAllowsEgressRules_eq (batches : List SgRuleBatch) :
    upsertAllowsEgressRules batches = runStatements (sgRuleStatements .egress batches) := by
  funext graph
  simp only [upsertAllowsEgressRules, sgRuleStatements, runStatements]
  congr 1
  funext graph
  congr 1
  funext graph
  exact (bind_ok _).symm

theorem upsertAllowsIngressRules_eq (batches : List SgRuleBatch) :
    upsertAllowsIngressRules batches = runStatements (sgRuleStatements .ingress batches) := by
  funext graph
  simp only [upsertAllowsIngressRules, sgRuleStatements, runStatements]
  congr 1
  funext graph
  congr 1
  funext graph
  exact (bind_ok _).symm

theorem upsertRoutesToEdges_eq {edges : List RoutesToEdge} (consistent : ∀ edge ∈ edges, edge.Consistent) :
    upsertRoutesToEdges edges = runStatements (routeStatements edges) := by
  funext graph
  simp only [upsertRoutesToEdges, routeStatements, splitRouteRows_eq consistent, runStatements]
  congr 1
  funext graph
  exact (bind_ok _).symm

/-- A call that succeeds was given consistent routes. -/
theorem consistent_of_upsertRoutesToEdges {edges : List RoutesToEdge} {graph graph' : Neo4jGraph}
    (wrote : upsertRoutesToEdges edges graph = .ok graph') : ∀ edge ∈ edges, edge.Consistent := by
  apply consistent_of_splitRouteRows
  rcases found : (splitRouteRows edges).inconsistency with _ | edge
  · rfl
  · simp only [upsertRoutesToEdges, found] at wrote
    cases wrote

/-! ## Runs over written graphs -/

/-- A graph that holds only what the writer's own edge upserts created. -/
structure Stored (graph : Neo4jGraph) (table : List Merge) : Prop where
  written : graph.Written [] table
  emitted : ∀ d ∈ table, Emitted d

theorem Stored.empty : Stored PropertyGraph.empty [] where
  written := PropertyGraph.Written.empty
  emitted := by simp

theorem Stored.mergeNodes {graph : Neo4jGraph} {table : List Merge} (stored : Stored graph table)
    (rows : List (NodeMerge Label Field BoltType)) : Stored (graph.mergeNodes rows) table where
  written := stored.written.mergeNodes rows
  emitted := stored.emitted

/-- A filter on what merges create is one on their keys. -/
theorem Stored.restrict_relationships {graph : Neo4jGraph} {table : List Merge} (stored : Stored graph table)
    {p : Relationship Label RelType Field BoltType → Bool} {q : MergeKey Label RelType Field BoltType → Bool}
    (same : ∀ c, Emitted c → p c.create = q c.key) :
    (graph.restrict p).relationships = (table.filter fun c => q c.key).map RelMerge.create := by
  change graph.relationships.filter p = _
  rw [stored.written.relationships, List.nil_append, List.filter_map]
  congr 1
  exact List.filter_congr fun c member => same c (stored.emitted c member)

/-- The merges of some statements' rows, in order. -/
def merges (statements : List Statement) : List Merge :=
  statements.flatMap fun statement => statement.2.filterMap statement.1.merge

def AllSent (statements : List Statement) : Prop :=
  ∀ statement ∈ statements, ∀ row ∈ statement.2, Sent statement.1 row

/-- A row whose endpoints exist and whose merge pattern is complete. -/
def Lands (graph : Neo4jGraph) (query : EdgeQuery) (row : Row) : Prop :=
  ∃ c, query.merge row = some c ∧ c.Bound graph ∧ c.Complete

section Runs

variable {statements : List Statement} {graph graph' : Neo4jGraph} {table : List Merge}

theorem emitted_merges (sent : AllSent statements) : ∀ c ∈ merges statements, Emitted c := by
  intro c member
  obtain ⟨statement, inStatements, inRows⟩ := List.mem_flatMap.mp member
  obtain ⟨row, inRow, merged⟩ := List.mem_filterMap.mp inRows
  exact ⟨statement.1, row, sent statement inStatements row inRow, merged⟩

private theorem emitted_upserts_merges {writes : List Merge} (emitted : ∀ d ∈ table, Emitted d)
    (emittedWrites : ∀ c ∈ writes, Emitted c) : ∀ d ∈ table.upserts RelMerge.key writes, Emitted d := by
  intro d member
  rcases List.mem_of_mem_upserts RelMerge.key member with inTable | inWrites
  · exact emitted d inTable
  · exact emittedWrites d inWrites

private theorem lands_congr {query : EdgeQuery} {row : Row} (sameNodes : graph'.nodes = graph.nodes) :
    Lands graph' query row ↔ Lands graph query row := by
  have sameRefs : graph'.refs = graph.refs := congrArg (List.map Node.ref) sameNodes
  unfold Lands RelMerge.Bound
  rw [sameRefs]

/-- A run that succeeds has landed every row and upserted their merges in order, beside whatever no
merge of it matches. -/
theorem runStatements_written {others : List (Relationship Label RelType Field BoltType)}
    (written : graph.Written others table) (emitted : ∀ d ∈ table, Emitted d) (sent : AllSent statements)
    (untouched : ∀ c ∈ merges statements, ∀ r ∈ others, c.matched r = false)
    (ran : runStatements statements graph = .ok graph') :
    (∀ statement ∈ statements, ∀ row ∈ statement.2, Lands graph statement.1 row) ∧
      graph'.Written others (table.upserts RelMerge.key (merges statements)) := by
  induction statements generalizing graph table with
  | nil =>
    cases ran
    exact ⟨by simp, written⟩
  | cons statement statements ih =>
    obtain ⟨middle, first, rest⟩ := Except.bind_eq_ok_iff.mp ran
    rw [merges, List.flatMap_cons] at untouched
    have sentFirst := sent statement List.mem_cons_self
    obtain ⟨sameNodes, lands, writtenMiddle⟩ := runEdgeUpsert_ok written
      (fun d member => (emitted d member).formed) (formedRows_of_sent sentFirst)
      (fun c inRows => untouched c (List.mem_append_left _ inRows)) first
    have emittedMiddle := emitted_upserts_merges emitted (emitted_merges fun later member => by
      obtain rfl := List.mem_singleton.mp member
      exact sentFirst)
    rw [merges, List.flatMap_cons, List.flatMap_nil, List.append_nil] at emittedMiddle
    obtain ⟨lands', written'⟩ := ih writtenMiddle emittedMiddle
      (fun later member => sent later (List.mem_cons_of_mem _ member))
      (fun c member => untouched c (List.mem_append_right _ member)) rest
    constructor
    · intro later member row inRow
      rcases List.mem_cons.mp member with rfl | member
      · exact lands row inRow
      · exact (lands_congr sameNodes).mp (lands' later member row inRow)
    · rw [merges, List.flatMap_cons, List.upserts_append]
      exact written'

/-- A run over a stored graph stores the merges of its rows. -/
theorem runStatements_ok (stored : Stored graph table) (sent : AllSent statements)
    (ran : runStatements statements graph = .ok graph') :
    graph'.nodes = graph.nodes ∧
      (∀ statement ∈ statements, ∀ row ∈ statement.2, Lands graph statement.1 row) ∧
      Stored graph' (table.upserts RelMerge.key (merges statements)) := by
  obtain ⟨lands, written⟩ := runStatements_written stored.written stored.emitted sent (by simp) ran
  exact ⟨runStatements_nodes ran, lands, written, emitted_upserts_merges stored.emitted (emitted_merges sent)⟩

private theorem stored_upserts (stored : Stored graph table) {query : EdgeQuery} {rows : List Row}
    (sent : ∀ row ∈ rows, Sent query row) (ran : runEdgeUpsert query rows graph = .ok graph') :
    graph'.nodes = graph.nodes ∧ ∃ table', Stored graph' table' := by
  rw [← runStatements_singleton] at ran
  obtain ⟨sameNodes, _, stored'⟩ := runStatements_ok stored (fun statement member => by
    obtain rfl := List.mem_singleton.mp member
    exact sent) ran
  exact ⟨sameNodes, _, stored'⟩

/-- A run succeeds exactly when every row lands. -/
theorem runStatements_iff (stored : Stored graph table) (sent : AllSent statements) :
    (∃ graph', runStatements statements graph = .ok graph') ↔
      ∀ statement ∈ statements, ∀ row ∈ statement.2, Lands graph statement.1 row := by
  constructor
  · rintro ⟨graph', ran⟩
    exact (runStatements_ok stored sent ran).2.1
  · intro lands
    induction statements generalizing graph table with
    | nil => exact ⟨graph, rfl⟩
    | cons statement statements ih =>
      have sentFirst := sent statement List.mem_cons_self
      obtain ⟨middle, first⟩ := runEdgeUpsert_of_complete stored.written
        (fun d member => (stored.emitted d member).formed) (formedRows_of_sent sentFirst) (by simp)
        (lands statement List.mem_cons_self)
      obtain ⟨sameNodes, _, storedMiddle⟩ := stored_upserts stored sentFirst first
      obtain ⟨last, rest⟩ := ih storedMiddle (fun later member => sent later (List.mem_cons_of_mem _ member))
        fun later member row inRow =>
          (lands_congr sameNodes).mpr (lands later (List.mem_cons_of_mem _ member) row inRow)
      exact ⟨last, Except.bind_eq_ok_iff.mpr ⟨middle, first, rest⟩⟩

/-- A run whose rows all name existing endpoints never reports one missing. -/
theorem runStatements_error {failure : WriteFailure}
    (bound : ∀ statement ∈ statements, ∀ row ∈ statement.2,
      ∃ c, statement.1.merge row = some c ∧ c.Bound graph)
    (failed : runStatements statements graph = .error failure) (edgeType : RelType) (missing total : ℕ) :
    failure.error ≠ .unresolvedEndpoint edgeType missing total := by
  induction statements generalizing graph with
  | nil => cases failed
  | cons statement statements ih =>
    rcases first : runEdgeUpsert statement.1 statement.2 graph with stopped | middle
    · rw [runStatements, first] at failed
      cases failed
      exact runEdgeUpsert_error (bound statement List.mem_cons_self) first edgeType missing total
    · rw [runStatements, first] at failed
      have sameRefs : middle.refs = graph.refs := congrArg (List.map Node.ref) (runEdgeUpsert_nodes first)
      refine ih (fun later member row inRow => ?_) failed
      obtain ⟨c, merged, holds⟩ := bound later (List.mem_cons_of_mem _ member) row inRow
      rw [RelMerge.Bound, ← sameRefs] at holds
      exact ⟨c, merged, holds⟩

end Runs

/-! ## Rows the writer sends -/

theorem allSent_of_kind_none {query : EdgeQuery} (known : query ∈ edgeQueries) (free : query.kind = none)
    (rows : List Row) : AllSent [(query, rows)] := by
  intro statement member row _
  obtain rfl := List.mem_singleton.mp member
  refine ⟨known, fun kind ofKind => ?_⟩
  rw [free] at ofKind
  cases ofKind

theorem AllSent.append {statements more : List Statement} (sent : AllSent statements) (later : AllSent more) :
    AllSent (statements ++ more) := by
  intro statement member
  rcases List.mem_append.mp member with inFirst | inLater
  · exact sent statement inFirst
  · exact later statement inLater

theorem allSent_routeStatements (edges : List RoutesToEdge) : AllSent (routeStatements edges) :=
  (allSent_of_kind_none (by decide) (by decide) _).append (allSent_of_kind_none (by decide) (by decide) _)

private theorem cidrRow_kind {owned : String × SgRule} {row : Row} (built : cidrRow owned = some row) :
    row.value .targetKind = stringProp "cidr" := by
  rw [cidrRow] at built
  split at built
  · cases built
    rfl
  · cases built

private theorem sgRefRow_kind {resolved : Bool} {owned : String × SgRule} {row : Row}
    (built : sgRefRow resolved owned = some row) :
    row.value .targetKind = stringProp "security_group_ref" := by
  rw [sgRefRow] at built
  split at built
  · cases built
  · split_ifs at built
    cases built
    rfl

theorem allSent_sgRuleStatements (direction : Direction) (batches : List SgRuleBatch) :
    AllSent (sgRuleStatements direction batches) := by
  have rows {query : EdgeQuery} {kind : String} {f : String × SgRule → Option Row}
      (known : query ∈ edgeQueries) (kinded : query.kind = some kind)
      (each : ∀ owned row, f owned = some row → row.value .targetKind = stringProp kind) :
      ∀ row ∈ (ownedRules batches).filterMap f, Sent query row := by
    intro row member
    obtain ⟨owned, _, built⟩ := List.mem_filterMap.mp member
    refine ⟨known, fun kind' ofKind => ?_⟩
    rw [kinded] at ofKind
    cases ofKind
    exact each owned row built
  cases direction <;>
    simp only [sgRuleStatements, splitSgRuleRows_eq, AllSent, List.forall_mem_cons, List.not_mem_nil,
      false_implies, implies_true, and_true] <;>
    exact ⟨rows (by decide) (by decide) fun _ _ => cidrRow_kind,
      rows (by decide) (by decide) fun _ _ => sgRefRow_kind,
      rows (by decide) (by decide) fun _ _ => sgRefRow_kind⟩

/-! ## Rows that supply their merge pattern -/

/-- The row has a value for every property of the query's merge pattern. -/
def Supplies (query : EdgeQuery) (row : Row) : Prop := ∀ key ∈ query.mergeKeys, row.value key ≠ none

private def cidrPattern : List Field := [.protocol, .fromPort, .toPort, .targetKind, .cidr]

private def sgRefPattern : List Field :=
  [.protocol, .fromPort, .toPort, .targetKind, .targetSecurityGroupId]

/-- A row with every other property of its pattern lacks only the bounds of an unbounded rule. -/
private theorem supplied_iff_ranged {pattern : List Field} {row : Row} {rule : SgRule}
    (bounds : .fromPort ∈ pattern)
    (fromPort : row.value .fromPort = (portRangeProps rule.portRange).1)
    (toPort : row.value .toPort = (portRangeProps rule.portRange).2)
    (others : ∀ key ∈ pattern, key ≠ .fromPort → key ≠ .toPort → row.value key ≠ none) :
    (∀ key ∈ pattern, row.value key ≠ none) ↔ rule.portRange.isSome = true := by
  rcases portRange : rule.portRange with _ | range
  · refine iff_of_false (fun supplied => supplied .fromPort bounds ?_) Bool.false_ne_true
    rw [fromPort, portRange]
    rfl
  · refine iff_of_true (fun key member => ?_) rfl
    rw [portRange] at fromPort toPort
    by_cases isFrom : key = .fromPort
    · rw [isFrom, fromPort]
      exact Option.some_ne_none _
    · by_cases isTo : key = .toPort
      · rw [isTo, toPort]
        exact Option.some_ne_none _
      · exact others key member isFrom isTo

private theorem value_sgRuleCidrRow (securityGroupId : String) (rule : SgRule) (cidr : String) :
    (∀ key ∈ cidrPattern, (sgRuleCidrRow securityGroupId rule cidr).value key ≠ none) ↔
      rule.portRange.isSome = true := by
  apply supplied_iff_ranged (by decide) rfl rfl
  intro key member notFrom notTo
  simp only [cidrPattern, List.mem_cons, List.not_mem_nil, or_false, notFrom, notTo, false_or] at member
  rcases member with rfl | rfl | rfl <;> exact Option.some_ne_none _

private theorem value_sgRuleSgRefRow (securityGroupId : String) (rule : SgRule) (refId : String) :
    (∀ key ∈ sgRefPattern, (sgRuleSgRefRow securityGroupId rule refId).value key ≠ none) ↔
      rule.portRange.isSome = true := by
  apply supplied_iff_ranged (by decide) rfl rfl
  intro key member notFrom notTo
  simp only [sgRefPattern, List.mem_cons, List.not_mem_nil, or_false, notFrom, notTo, false_or] at member
  rcases member with rfl | rfl | rfl <;> exact Option.some_ne_none _

/-- The rows of a direction supply their patterns exactly when every rule has a port range. -/
theorem sgRuleStatements_supplied_iff (direction : Direction) (batches : List SgRuleBatch) :
    (∀ statement ∈ sgRuleStatements direction batches, ∀ row ∈ statement.2, Supplies statement.1 row) ↔
      ∀ owned ∈ ownedRules batches, owned.2.portRange.isSome = true := by
  have rows : (∀ statement ∈ sgRuleStatements direction batches,
        ∀ row ∈ statement.2, Supplies statement.1 row) ↔
      (∀ row ∈ (ownedRules batches).filterMap cidrRow,
        ∀ key ∈ cidrPattern, row.value key ≠ none) ∧
      ∀ resolved, ∀ row ∈ (ownedRules batches).filterMap (sgRefRow resolved),
        ∀ key ∈ sgRefPattern, row.value key ≠ none := by
    rw [Bool.forall_bool, and_comm (a := ∀ row ∈ (ownedRules batches).filterMap (sgRefRow false), _)]
    cases direction <;>
      simp only [sgRuleStatements, splitSgRuleRows_eq, List.forall_mem_cons, List.not_mem_nil,
        false_implies, implies_true, and_true] <;> rfl
  rw [rows]
  constructor
  · rintro ⟨cidrs, references⟩ ⟨owner, rule⟩ member
    rcases target : rule.target with cidr | refId
    · refine (value_sgRuleCidrRow owner rule cidr).mp (cidrs _ ?_)
      exact List.mem_filterMap.mpr ⟨_, member, by simp only [cidrRow, target]⟩
    · refine (value_sgRuleSgRefRow owner rule refId).mp (references rule.resolved _ ?_)
      exact List.mem_filterMap.mpr ⟨_, member, by simp only [sgRefRow, target, if_true]⟩
  · intro ranged
    refine ⟨fun row member => ?_, fun resolved row member => ?_⟩
    · obtain ⟨⟨owner, rule⟩, inRules, built⟩ := List.mem_filterMap.mp member
      simp only [cidrRow] at built
      split at built
      · cases built
        exact (value_sgRuleCidrRow owner rule _).mpr (ranged _ inRules)
      · cases built
    · obtain ⟨⟨owner, rule⟩, inRules, built⟩ := List.mem_filterMap.mp member
      simp only [sgRefRow] at built
      split at built
      · cases built
      · split_ifs at built
        cases built
        exact (value_sgRuleSgRefRow owner rule _).mpr (ranged _ inRules)

end NetHound.Graph
