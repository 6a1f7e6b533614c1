import NetHound.Graph.Replay
import NetHound.Ingest.Port

/-! # An edge upsert succeeds exactly when every endpoint exists

Whatever upserts led to a graph, its relationships are a table of merges: one for each key, whichever
query wrote it. So a row whose nodes exist binds one relationship, a chunk counts those rows, and the
comparison with the chunk's length catches exactly the missing endpoints.
-/

namespace NetHound.Soundness

open Cypher Domain Graph Ingest

/-- The graphs that sequences of the writer's upserts lead to. A call that is cut short leaves what its
chunks so far left. -/
inductive Reachable : Neo4jGraph → Prop
  | empty : Reachable .empty
  | call {graph : Neo4jGraph} (reached : Reachable graph) (call : Upsert) :
      Reachable (leftBy (neo4jGraphWriter call graph))
  | boundaries {graph : Neo4jGraph} (reached : Reachable graph) (records : List RegulatedBoundaryRecord) :
      Reachable (leftBy (upsertRegulatedBoundaries records graph))
  | chunk {graph : Neo4jGraph} (reached : Reachable graph) {query : EdgeQuery} (known : query ∈ edgeQueries)
      (rows : List Row) : Reachable (leftBy (runEdgeChunk query rows graph))

/-- `run_edge_upsert` at any batch size. -/
def runEdgeUpsertBy (size : ℕ) (query : EdgeQuery) (rows : List Row) : Write :=
  runEdgeChunks query (chunkRows rows size)

/-- The rows of a chunk whose endpoints exist. -/
def existing (graph : Neo4jGraph) (query : EdgeQuery) (rows : List Row) : ℕ :=
  rows.countP fun row => EndpointsExist graph query row

/-- An edge upsert does what its endpoint check is for. -/
structure ChecksEndpoints (graph : Neo4jGraph) (query : EdgeQuery) (rows : List Row) : Prop where
  /-- At its turn a row binds one relationship if its nodes exist, and none otherwise. -/
  binds : ∀ before row after, rows = before ++ row :: after → ∀ c, query.merge row = some c →
    ∃ middle graph', graph.unwind (before.filterMap query.merge) = .ok (middle, existing graph query before) ∧
      middle.runRow c = .ok (graph', if EndpointsExist graph query row then 1 else 0)
  merged : ∃ graph', graph.unwind (rows.filterMap query.merge) = .ok (graph', existing graph query rows)
  mergedLe : existing graph query rows ≤ rows.length
  succeeds_iff : ∀ size, 0 < size →
    ((∃ graph', runEdgeUpsertBy size query rows graph = .ok graph') ↔
      ∀ row ∈ rows, EndpointsExist graph query row)
  /-- The error counts the missing rows of the chunk it stopped at. -/
  fails : ∀ size, 0 < size → ∀ failure, runEdgeUpsertBy size query rows graph = .error failure →
    ∃ chunk ∈ chunkRows rows size, existing graph query chunk < chunk.length ∧ failure.error =
      .unresolvedEndpoint query.relType (chunk.length - existing graph query chunk) chunk.length
  oneByOne : ∀ size, 0 < size → ∀ graph', runEdgeUpsertBy size query rows graph = .ok graph' →
    rows.foldlM (fun graph row => runEdgeUpsert query [row] graph) graph = .ok graph'

/-! ## The invariant -/

/-- The relationships are a table of the writer's merges, by key. -/
def Tabulated (graph : Neo4jGraph) : Prop := ∃ table, graph.Written [] table ∧ ∀ d ∈ table, Formed d

/-- Whatever comes of the write, it leaves a table. -/
def KeepsTable (write : Write) : Prop := ∀ graph, Tabulated graph → Tabulated (leftBy (write graph))

theorem keepsTable_ok : KeepsTable .ok := fun _ tabulated => tabulated

theorem KeepsTable.bind {write more : Write} (first : KeepsTable write) (second : KeepsTable more) :
    KeepsTable fun graph => write graph >>= more := by
  intro graph tabulated
  have middle := first graph tabulated
  rcases ran : write graph with failure | graph'
  · rw [ran] at middle
    change Tabulated (leftBy (write graph >>= more))
    rw [ran]
    exact middle
  · rw [ran] at middle
    change Tabulated (leftBy (write graph >>= more))
    rw [ran]
    exact second graph' middle

theorem keepsTable_runNodeUpsert (label : Label) (rows : List NodeRow) :
    KeepsTable (runNodeUpsert label rows) := by
  rintro graph ⟨table, written, formed⟩
  rw [runNodeUpsert_eq]
  exact ⟨table, written.mergeNodes _, formed⟩

private theorem tabulated_of_unwind {graph graph' : Neo4jGraph} {query : EdgeQuery} {chunk : List Row}
    {merged : ℕ} (tabulated : Tabulated graph) (known : query ∈ edgeQueries)
    (ran : graph.unwind (chunk.filterMap query.merge) = .ok (graph', merged)) :
    merged = existing graph query chunk ∧ Tabulated graph' := by
  obtain ⟨table, written, formed⟩ := tabulated
  have formedRows := formedRows_of_known known chunk
  obtain ⟨_, counted, written'⟩ := unwind_chunk written formed formedRows (by simp) ran
  refine ⟨counted, _, written', fun d member => ?_⟩
  rcases List.mem_of_mem_upserts RelMerge.key member with inTable | inChunk
  · exact formed d inTable
  · exact formedRows d (List.mem_of_mem_filter inChunk)

theorem keepsTable_runEdgeChunk {query : EdgeQuery} (known : query ∈ edgeQueries) (chunk : List Row) :
    KeepsTable (runEdgeChunk query chunk) := by
  intro graph tabulated
  unfold runEdgeChunk
  split
  · exact tabulated
  · next unwound =>
    have tabulated' := (tabulated_of_unwind tabulated known unwound).2
    split_ifs <;> exact tabulated'

theorem keepsTable_runEdgeUpsert {query : EdgeQuery} (known : query ∈ edgeQueries) (rows : List Row) :
    KeepsTable (runEdgeUpsert query rows) := by
  change KeepsTable (runEdgeChunks query (chunkRows rows batchSize))
  induction chunkRows rows batchSize with
  | nil => exact keepsTable_ok
  | cons chunk chunks ih => exact (keepsTable_runEdgeChunk known chunk).bind ih

theorem keepsTable_runStatements {statements : List Statement}
    (known : ∀ statement ∈ statements, statement.1 ∈ edgeQueries) : KeepsTable (runStatements statements) := by
  induction statements with
  | nil => exact keepsTable_ok
  | cons statement statements ih =>
    apply (keepsTable_runEdgeUpsert (known statement List.mem_cons_self) statement.2).bind
    exact ih fun later member => known later (List.mem_cons_of_mem _ member)

private theorem sgRuleStatements_known (direction : Direction) (batches : List SgRuleBatch) :
    ∀ statement ∈ sgRuleStatements direction batches, statement.1 ∈ edgeQueries := by
  cases direction <;>
    simp only [sgRuleStatements, List.forall_mem_cons, List.not_mem_nil, false_implies, implies_true,
      and_true] <;>
    decide

private theorem keepsTable_upsertRoutesToEdges (edges : List RoutesToEdge) :
    KeepsTable (upsertRoutesToEdges edges) := by
  intro graph tabulated
  unfold upsertRoutesToEdges
  dsimp only
  split
  · exact tabulated
  · exact (keepsTable_runEdgeUpsert (by decide) _).bind (keepsTable_runEdgeUpsert (by decide) _) graph tabulated

/-- Every call of the writer keeps the table, whatever it was given. -/
theorem keepsTable_neo4jGraphWriter (call : Upsert) : KeepsTable (neo4jGraphWriter call) := by
  cases call with
  | upsertEnis | upsertSecurityGroups | upsertNetworkAcls | upsertSubnets | upsertVpcs | upsertRouteTables =>
    exact keepsTable_runNodeUpsert _ _
  | upsertHasSgEdges | upsertInSubnetEdges | upsertProtectedByEdges | upsertUsesRouteTableEdges
  | upsertHasRules => exact keepsTable_runEdgeUpsert (by decide) _
  | upsertRoutesToEdges edges => exact keepsTable_upsertRoutesToEdges edges
  | upsertAllowsEgressRules batches =>
    rw [neo4jGraphWriter, upsertAllowsEgressRules_eq]
    exact keepsTable_runStatements (sgRuleStatements_known .egress batches)
  | upsertAllowsIngressRules batches =>
    rw [neo4jGraphWriter, upsertAllowsIngressRules_eq]
    exact keepsTable_runStatements (sgRuleStatements_known .ingress batches)

/-- Every reachable graph holds a table. -/
theorem Reachable.tabulated {graph : Neo4jGraph} (reached : Reachable graph) : Tabulated graph := by
  induction reached with
  | empty => exact ⟨[], PropertyGraph.Written.empty, by simp⟩
  | call _ call ih => exact keepsTable_neo4jGraphWriter call _ ih
  | boundaries _ records ih => exact keepsTable_runNodeUpsert _ _ _ ih
  | chunk _ known rows ih => exact keepsTable_runEdgeChunk known rows _ ih

/-! ## Rows that supply their merge pattern -/

section Supplied

variable {graph : Neo4jGraph} {query : EdgeQuery} {rows : List Row}

private theorem complete_of_supplies {row : Row} {c : Merge} (supplied : Supplies query row)
    (merged : query.merge row = some c) : c.Complete := by
  obtain ⟨_, mergeKeys, _, values⟩ := EdgeQuery.merge_shape merged
  intro key member
  rw [mergeKeys] at member
  rw [values]
  exact supplied key member

private theorem unwind_supplied (tabulated : Tabulated graph) (known : query ∈ edgeQueries)
    (supplied : ∀ row ∈ rows, Supplies query row) :
    ∃ graph', graph.unwind (rows.filterMap query.merge) = .ok (graph', existing graph query rows) ∧
      Tabulated graph' ∧ graph'.nodes = graph.nodes := by
  have complete : ∀ c ∈ rows.filterMap query.merge, c.Bound graph → c.Complete := by
    intro c member _
    obtain ⟨row, inRows, merged⟩ := List.mem_filterMap.mp member
    exact complete_of_supplies (supplied row inRows) merged
  obtain ⟨graph', merged, ran⟩ := PropertyGraph.unwind_of_complete graph complete
  obtain ⟨counted, tabulated'⟩ := tabulated_of_unwind tabulated known ran
  rw [counted] at ran
  exact ⟨graph', ran, tabulated', PropertyGraph.unwind_nodes ran⟩

/-- One row over a table binds one relationship, or none. -/
private theorem runRow_supplied (tabulated : Tabulated graph) (known : query ∈ edgeQueries) {row : Row}
    (supplied : Supplies query row) {c : Merge} (merged : query.merge row = some c) :
    ∃ graph', graph.runRow c = .ok (graph', if EndpointsExist graph query row then 1 else 0) := by
  have only : ∀ row' ∈ [row], Supplies query row' := by simpa using supplied
  obtain ⟨graph', ran, _⟩ := unwind_supplied tabulated known only
  rw [List.filterMap_cons_some merged, List.filterMap_nil] at ran
  obtain ⟨middle, first, more, ranRow, rest, counted⟩ := PropertyGraph.unwind_cons_ok ran
  cases rest
  rw [Nat.add_zero] at counted
  refine ⟨graph', ?_⟩
  rw [ranRow, ← counted, existing, List.countP_singleton]
  simp only [decide_eq_true_eq]

private theorem existing_congr {graph' : Neo4jGraph} (sameNodes : graph'.nodes = graph.nodes)
    (rows : List Row) : existing graph' query rows = existing graph query rows := by
  apply List.countP_congr
  intro row _
  simp only [decide_eq_true_eq]
  exact endpointsExist_congr sameNodes

/-- The check of one chunk. -/
private theorem runEdgeChunk_supplied (tabulated : Tabulated graph) (known : query ∈ edgeQueries)
    (supplied : ∀ row ∈ rows, Supplies query row) :
    ∃ graph', Tabulated graph' ∧ graph'.nodes = graph.nodes ∧ runEdgeChunk query rows graph =
      if existing graph query rows = rows.length then .ok graph'
      else .error ⟨.unresolvedEndpoint query.relType (rows.length - existing graph query rows) rows.length,
        graph'⟩ := by
  obtain ⟨graph', ran, tabulated', sameNodes⟩ := unwind_supplied tabulated known supplied
  have atMost : ¬ rows.length < existing graph query rows := Nat.not_lt.mpr List.countP_le_length
  refine ⟨graph', tabulated', sameNodes, ?_⟩
  rw [runEdgeChunk, ran]
  simp only [ne_eq, ite_not, if_neg atMost]

/-- Chunks that fail stop at one with missing endpoints and count them. -/
private theorem runEdgeChunks_error {chunks : List (List Row)} {failure : WriteFailure}
    (tabulated : Tabulated graph) (known : query ∈ edgeQueries)
    (supplied : ∀ row ∈ chunks.flatten, Supplies query row)
    (failed : runEdgeChunks query chunks graph = .error failure) :
    ∃ chunk ∈ chunks, existing graph query chunk < chunk.length ∧ failure.error =
      .unresolvedEndpoint query.relType (chunk.length - existing graph query chunk) chunk.length := by
  induction chunks generalizing graph with
  | nil => cases failed
  | cons chunk chunks ih =>
    rw [List.flatten_cons] at supplied
    obtain ⟨middle, tabulated', sameNodes, first⟩ := runEdgeChunk_supplied tabulated known
      fun row member => supplied row (List.mem_append_left _ member)
    rw [runEdgeChunks, first] at failed
    split at failed
    · obtain ⟨stopped, member, missing, same⟩ := ih tabulated'
        (fun row member => supplied row (List.mem_append_right _ member)) failed
      rw [existing_congr sameNodes] at missing same
      exact ⟨stopped, List.mem_cons_of_mem _ member, missing, same⟩
    · next differs =>
      cases failed
      have atMost : existing graph query chunk ≤ chunk.length := List.countP_le_length
      exact ⟨chunk, List.mem_cons_self, Nat.lt_of_le_of_ne atMost differs, rfl⟩

/-- Chunks succeed exactly when every row's endpoints exist. -/
private theorem exists_runEdgeChunks_iff {chunks : List (List Row)} (tabulated : Tabulated graph)
    (known : query ∈ edgeQueries) (supplied : ∀ row ∈ chunks.flatten, Supplies query row) :
    (∃ graph', runEdgeChunks query chunks graph = .ok graph') ↔
      ∀ row ∈ chunks.flatten, EndpointsExist graph query row := by
  obtain ⟨table, written, formed⟩ := tabulated
  have formedRows := formedRows_of_known known chunks.flatten
  constructor
  · rintro ⟨graph', ran⟩ row member
    obtain ⟨c, merged, bound, _⟩ := (runEdgeChunks_written written formed formedRows (by simp) ran).2.1
      row member
    exact ⟨c, merged, bound⟩
  · intro exist
    refine exists_runEdgeChunks written formed formedRows (by simp) fun row member => ?_
    obtain ⟨c, merged, bound⟩ := exist row member
    exact ⟨c, merged, bound, complete_of_supplies (supplied row member) merged⟩

/-- What chunks leave when they succeed depends on their rows only. -/
private theorem runEdgeChunks_congr {chunks chunks' : List (List Row)} {graph' : Neo4jGraph}
    (tabulated : Tabulated graph) (known : query ∈ edgeQueries) (same : chunks.flatten = chunks'.flatten)
    (ran : runEdgeChunks query chunks graph = .ok graph') : runEdgeChunks query chunks' graph = .ok graph' := by
  obtain ⟨table, written, formed⟩ := tabulated
  have formedRows := formedRows_of_known known chunks.flatten
  obtain ⟨nodes, done, written'⟩ := runEdgeChunks_written written formed formedRows (by simp) ran
  rw [same] at formedRows done written'
  obtain ⟨last, again⟩ := exists_runEdgeChunks written formed formedRows (by simp) done
  obtain ⟨sameNodes, _, rewritten⟩ := runEdgeChunks_written written formed formedRows (by simp) again
  rw [again]
  apply congrArg Except.ok
  apply PropertyGraph.eq_of_parts (sameNodes.trans nodes.symm)
  rw [rewritten.relationships, written'.relationships]

private theorem foldlM_singletons (rows : List Row) (graph : Neo4jGraph) :
    rows.foldlM (fun graph row => runEdgeUpsert query [row] graph) graph =
      runEdgeChunks query (rows.map fun row => [row]) graph := by
  induction rows generalizing graph with
  | nil => rfl
  | cons row rows ih =>
    have single : runEdgeUpsert query [row] graph = runEdgeChunk query [row] graph := by
      change (runEdgeChunk query [row] graph >>= fun graph => .ok graph) = _
      cases runEdgeChunk query [row] graph <;> rfl
    rw [List.foldlM_cons, single, List.map_cons, runEdgeChunks]
    exact congrArg _ (funext ih)

end Supplied

/-- Over any graph the writer's upserts lead to, an edge upsert of rows with non-null keys succeeds
exactly when every endpoint exists, and is then the upsert of its rows one at a time. -/
theorem edgeUpsert_checksEndpoints {graph : Neo4jGraph} (reached : Reachable graph) {query : EdgeQuery}
    (known : query ∈ edgeQueries) {rows : List Row} (supplied : ∀ row ∈ rows, Supplies query row) :
    ChecksEndpoints graph query rows := by
  have tabulated := reached.tabulated
  have flat {size : ℕ} (positive : 0 < size) := flatten_chunkRows_of_pos positive rows
  constructor
  case binds =>
    rintro before row after rfl c merged
    obtain ⟨middle, ran, tabulated', sameNodes⟩ := unwind_supplied tabulated known
      fun row member => supplied row (List.mem_append_left _ member)
    have suppliedRow := supplied row (List.mem_append_right _ List.mem_cons_self)
    obtain ⟨graph', ranRow⟩ := runRow_supplied tabulated' known suppliedRow merged
    simp only [endpointsExist_congr sameNodes] at ranRow
    exact ⟨middle, graph', ran, ranRow⟩
  case merged =>
    obtain ⟨graph', ran, _⟩ := unwind_supplied tabulated known supplied
    exact ⟨graph', ran⟩
  case mergedLe => exact List.countP_le_length
  case succeeds_iff =>
    intro size positive
    have suppliedChunks : ∀ row ∈ (chunkRows rows size).flatten, Supplies query row := by
      rwa [flat positive]
    have whole := exists_runEdgeChunks_iff tabulated known suppliedChunks
    rw [flat positive] at whole
    exact whole
  case fails =>
    intro size positive failure failed
    exact runEdgeChunks_error tabulated known (by rwa [flat positive]) failed
  case oneByOne =>
    intro size positive graph' ran
    rw [foldlM_singletons]
    refine runEdgeChunks_congr tabulated known ?_ ran
    rw [flat positive, ← List.flatMap_def, List.flatMap_singleton']

/-- A route table and its VPC, written one after the other. -/
def routedNodes : Neo4jGraph :=
  leftBy (neo4jGraphWriter (.upsertRouteTables [⟨"rtb-1", "123456789012", "vpc-1", true⟩])
    (leftBy (neo4jGraphWriter (.upsertVpcs [⟨"vpc-1", "123456789012", ""⟩]) .empty)))

theorem routedNodes_reachable : Reachable routedNodes := .call (.call .empty _) _

def localRouteRow : Row := routesToResolvedRow ⟨"rtb-1", "10.0.0.0/16", some "vpc-1", true⟩ "vpc-1"

def peeredRouteRow : Row := routesToResolvedRow ⟨"rtb-1", "10.1.0.0/16", some "vpc-2", true⟩ "vpc-2"

/-- The second of two routes leads to a VPC that is not there. -/
theorem edgeUpsert_checksEndpoints_peered :
    ¬ ∃ graph', runEdgeUpsert routesToResolvedUpsert [localRouteRow, peeredRouteRow] routedNodes = .ok graph' := by
  have supplied : ∀ row ∈ [localRouteRow, peeredRouteRow], ∀ key ∈ routesToResolvedUpsert.mergeKeys,
      row.value key ≠ none := by decide
  have checked := edgeUpsert_checksEndpoints routedNodes_reachable (by decide) supplied
  refine fun wrote => absurd ((checked.succeeds_iff batchSize (by decide)).mp wrote) ?_
  decide

end NetHound.Soundness
