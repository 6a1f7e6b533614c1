import NetHound.Graph.Session
import NetHound.Ingest.Closure
import NetHound.Ingest.Port

/-! # Ingestion over a connection

`write_batch` and the run around it with the writer whose calls may fail. Written out, a batch is a list of
steps: its node chunks, then the chunks of its edge statements. An ingestion that returns has done what the
undisturbed one does, and one that is interrupted has taken the first of these steps.
-/

namespace NetHound.Ingest.Session

open Domain Graph Graph.Session Cypher Interruptible Interruptible.Program

def writeBatch (batch : GraphBatch) : Client Unit := do
  upsertEnis batch.enis
  upsertSecurityGroups batch.securityGroups
  upsertNetworkAcls batch.networkAcls
  upsertSubnets batch.subnets
  upsertVpcs batch.vpcs
  upsertRouteTables batch.routeTables
  let sorted := sortEdges batch.edges
  upsertHasSgEdges sorted.hasSgEdges
  upsertInSubnetEdges sorted.inSubnetEdges
  upsertProtectedByEdges sorted.protectedByEdges
  upsertUsesRouteTableEdges sorted.usesRouteTableEdges
  upsertRoutesToEdges sorted.routesToEdges
  upsertAllowsIngressRules (sgRuleBatches sorted.ingressPairs)
  upsertAllowsEgressRules (sgRuleBatches sorted.egressPairs)
  upsertHasRules (naclRuleBatches sorted.naclPairs)

inductive IngestError where
  | mapping (source : MappingError)
  | write (source : WriteError)
deriving DecidableEq, Repr

/-- The report of a batch that was written. -/
def reportOf (collections : Sdk.Collections) (nodeMappingErrors : List MappingError) (batch : GraphBatch) :
    IngestReport where
  counts := [(.eni, batch.enis.length), (.securityGroup, batch.securityGroups.length),
    (.networkAcl, batch.networkAcls.length), (.routeTable, batch.routeTables.length),
    (.vpcPeeringConnection, collections.vpcPeeringConnections.length)]
  unresolvedReferences := countUnresolved batch
  nonFatal := nodeMappingErrors.map .from

def runFullIngestWithClient (accountId : String) (collections : Sdk.Collections) :
    Program Neo4jGraph IngestError IngestReport :=
  let (nodeMappingErrors, built) := Topology.buildGraphBatch accountId collections
  match built with
  | .error source => fail (.mapping source)
  | .ok batch => do
      (writeBatch batch).on .whole .write
      pure (reportOf collections nodeMappingErrors batch)

/-! ## A batch in steps -/

/-- The node chunks of a batch, in writing order. -/
def batchNodes (batch : GraphBatch) : List (Label × List NodeRow) :=
  (chunkRows (batch.enis.map eniRow) batchSize).map (.eni, ·) ++
    (chunkRows (batch.securityGroups.map securityGroupRow) batchSize).map (.securityGroup, ·) ++
    (chunkRows (batch.networkAcls.map networkAclRow) batchSize).map (.networkAcl, ·) ++
    (chunkRows (batch.subnets.map subnetRow) batchSize).map (.subnet, ·) ++
    (chunkRows (batch.vpcs.map vpcRow) batchSize).map (.vpc, ·) ++
    (chunkRows (batch.routeTables.map routeTableRow) batchSize).map (.routeTable, ·)

def batchSteps (batch : GraphBatch) : List Step :=
  stepsOf (batchNodes batch) (chunksOf (edgeStatements batch.edges))

private theorem rowsOf_chunks (label : Label) (rows : List NodeRow) :
    rowsOf ((chunkRows rows batchSize).map (label, ·)) = rows.map (nodeUpsert label) := by
  have chunked := congrArg (List.map (nodeUpsert label)) (flatten_chunkRows rows)
  rw [List.map_flatten] at chunked
  rw [← chunked, rowsOf, List.flatMap_map]
  rfl

theorem rowsOf_batchNodes (batch : GraphBatch) : rowsOf (batchNodes batch) = nodeRows batch := by
  have split (first rest : List (Label × List NodeRow)) : rowsOf (first ++ rest) = rowsOf first ++ rowsOf rest :=
    List.flatMap_append
  simp only [batchNodes, split, rowsOf_chunks]
  rfl

/-- The rows of a step of a batch are rows of the batch. -/
theorem mem_batchSteps {batch : GraphBatch} {step : Step} (member : step ∈ batchSteps batch) :
    (∃ label chunk, step = .nodes label chunk ∧ ∀ row ∈ chunk.map (nodeUpsert label), row ∈ nodeRows batch) ∨
      ∃ chunk, step = .edges chunk ∧ ∀ c ∈ chunk.merges, c ∈ merges (edgeStatements batch.edges) := by
  rcases List.mem_append.mp member with inNodes | inEdges
  · obtain ⟨chunk, inBatch, rfl⟩ := List.mem_map.mp inNodes
    refine Or.inl ⟨chunk.1, chunk.2, rfl, fun row inChunk => ?_⟩
    rw [← rowsOf_batchNodes]
    exact List.mem_flatMap.mpr ⟨chunk, inBatch, inChunk⟩
  · obtain ⟨chunk, inChunks, rfl⟩ := List.mem_map.mp inEdges
    refine Or.inr ⟨chunk, rfl, fun c inChunk => ?_⟩
    obtain ⟨statement, inStatements, inChunk'⟩ := List.mem_flatMap.mp inChunks
    obtain ⟨rows, chunked, rfl⟩ := List.mem_map.mp inChunk'
    obtain ⟨row, inRows, merged⟩ := List.mem_filterMap.mp inChunk
    refine List.mem_flatMap.mpr ⟨statement, inStatements, List.mem_filterMap.mpr ⟨row, ?_, merged⟩⟩
    rw [← flatten_chunkRows statement.2]
    exact List.mem_flatten.mpr ⟨rows, chunked, inRows⟩

/-- Undisturbed, the steps of a batch write it. -/
theorem runSteps_batchSteps {batch : GraphBatch}
    (consistent : ∀ edge ∈ batch.edges.filterMap asRoutesTo, edge.Consistent) (graph : Neo4jGraph) :
    runSteps (batchSteps batch) graph = Ingest.writeBatch batch graph := by
  rw [batchSteps, runSteps_stepsOf, rowsOf_batchNodes, writeBatch_eq consistent, runStatements_eq_runChunks]

private theorem nodeSteps_eq (label : Label) (rows : List NodeRow) :
    nodeSteps label rows =
      ((chunkRows rows batchSize).map (label, ·)).map fun chunk => Step.nodes chunk.1 chunk.2 := by
  rw [List.map_map]
  rfl

/-- Writing a batch is taking its steps. -/
theorem writeBatch_eq_forM {batch : GraphBatch}
    (consistent : ∀ edge ∈ batch.edges.filterMap asRoutesTo, edge.Consistent) :
    writeBatch batch = forM (batchSteps batch) Step.run := by
  have statements (first rest : List Statement) :
      statementSteps (first ++ rest) = statementSteps first ++ statementSteps rest := List.flatMap_append
  have single (query : EdgeQuery) (rows : List Row) : statementSteps [(query, rows)] = edgeSteps query rows :=
    List.flatMap_singleton _ _
  have steps : batchSteps batch = (batchNodes batch).map (fun chunk => .nodes chunk.1 chunk.2) ++
      statementSteps (edgeStatements batch.edges) := by rw [statementSteps_eq]; rfl
  rw [steps, batchNodes, edgeStatements]
  simp only [List.map_append, ← nodeSteps_eq, statements, single, List.forM_append, bind_assoc,
    ← runNodeUpsert_eq_forM, ← runEdgeUpsert_eq_forM, ← upsertRoutesToEdges_eq_forM consistent,
    ← upsertAllowsEgressRules_eq_forM, ← upsertAllowsIngressRules_eq_forM]
  simp only [writeBatch, sortEdges_eq]
  rfl

/-! ## What an ingestion leaves -/

theorem leads_writeBatch {batch : GraphBatch}
    (consistent : ∀ edge ∈ batch.edges.filterMap asRoutesTo, edge.Consistent) (graph₀ : Neo4jGraph) :
    Leads (· = graph₀) (writeBatch batch) (fun _ graph => Ingest.writeBatch batch graph₀ = .ok graph)
      (FailedWith (batchSteps batch) graph₀) (LeftAfter (batchSteps batch) graph₀) := by
  rw [writeBatch_eq_forM consistent]
  refine (leads_runSteps _ graph₀).imp (fun _ same => same) ?_ (fun _ _ failed => failed) fun _ left => left
  intro _ graph written
  rwa [← runSteps_batchSteps consistent]

theorem completes_writeBatch {batch : GraphBatch}
    (consistent : ∀ edge ∈ batch.edges.filterMap asRoutesTo, edge.Consistent) {graph graph' : Neo4jGraph}
    (written : Ingest.writeBatch batch graph = .ok graph') : Completes (writeBatch batch) graph ⟨⟩ graph' := by
  rw [writeBatch_eq_forM consistent]
  rw [← runSteps_batchSteps consistent] at written
  exact completes_runSteps written

/-- What is emitted for a batch. -/
theorem emitted_batch (batch : GraphBatch) :
    ∀ chunk ∈ chunksOf (edgeStatements batch.edges), ∀ c ∈ chunk.merges, Emitted c :=
  emitted_chunksOf (allSent_edgeStatements batch.edges)

/-- A batch that was written in part ends as it would have without that. -/
theorem writeBatch_resumed {batch : GraphBatch}
    (consistent : ∀ edge ∈ batch.edges.filterMap asRoutesTo, edge.Consistent) {graph left : Neo4jGraph}
    (leftAfter : LeftAfter (batchSteps batch) graph left) (graph' : Neo4jGraph) :
    Ingest.writeBatch batch left = .ok graph' ↔ Ingest.writeBatch batch graph = .ok graph' := by
  obtain ⟨landed, later, all, rfl⟩ := leftAfter
  rw [← runSteps_batchSteps consistent, ← runSteps_batchSteps consistent]
  exact runSteps_resumed (emitted_batch batch) all graph graph'

/-- A batch that was written is one that was written in part. -/
theorem leftAfter_of_written {batch : GraphBatch}
    (consistent : ∀ edge ∈ batch.edges.filterMap asRoutesTo, edge.Consistent) {graph graph' : Neo4jGraph}
    (written : Ingest.writeBatch batch graph = .ok graph') : LeftAfter (batchSteps batch) graph graph' := by
  refine ⟨batchSteps batch, [], (List.append_nil _).symm, ?_⟩
  rw [runSteps_batchSteps consistent, written]
  rfl

/-- An ingestion that finishes has a batch. -/
theorem exists_built {accountId : String} {collections : Sdk.Collections} {graph : Neo4jGraph} {ingested : Ingested}
    (finishes : Ingest.runFullIngestWithClient accountId collections graph = .ok ingested) :
    ∃ batch, (Topology.buildGraphBatch accountId collections).2 = .ok batch := by
  rcases built : (Topology.buildGraphBatch accountId collections).2 with source | batch
  · rw [Ingest.runFullIngestWithClient] at finishes
    simp only [built] at finishes
    cases finishes
  · exact ⟨batch, rfl⟩

section Run

variable {accountId : String} {collections : Sdk.Collections} {batch : GraphBatch}
  (built : (Topology.buildGraphBatch accountId collections).2 = .ok batch)

include built

theorem runFullIngestWithClient_of_built : runFullIngestWithClient accountId collections = (do
    (writeBatch batch).on .whole .write
    pure (reportOf collections (Topology.buildGraphBatch accountId collections).1 batch)) := by
  rcases mapped : Topology.buildGraphBatch accountId collections with ⟨errors, result⟩
  obtain rfl : result = .ok batch := by rw [← built, mapped]
  rw [runFullIngestWithClient, mapped]

/-- The undisturbed ingestion finishes when its batch is written. -/
theorem finishes_iff {graph : Neo4jGraph} {ingested : Ingested} :
    Ingest.runFullIngestWithClient accountId collections graph = .ok ingested ↔
      Ingest.writeBatch batch graph = .ok ingested.graph ∧
        ingested.report = reportOf collections (Topology.buildGraphBatch accountId collections).1 batch := by
  rcases mapped : Topology.buildGraphBatch accountId collections with ⟨errors, result⟩
  obtain rfl : result = .ok batch := by rw [← built, mapped]
  rw [Ingest.runFullIngestWithClient, mapped]
  dsimp only
  rcases Ingest.writeBatch batch graph with failure | written
  · exact iff_of_false nofun fun ⟨same, _⟩ => nomatch same
  · constructor
    · intro same
      cases same
      exact ⟨rfl, rfl⟩
    · rintro ⟨same, reported⟩
      cases ingested
      cases same
      cases reported
      rfl

/-- How an ingestion of the batch fails: only its write can. -/
def FailsWriting (batch : GraphBatch) (graph₀ : Neo4jGraph) (error : IngestError) (graph : Neo4jGraph) : Prop :=
  ∃ source, error = .write source ∧ FailedWith (batchSteps batch) graph₀ source graph

theorem leads_of_built (graph₀ : Neo4jGraph) :
    Leads (· = graph₀) (runFullIngestWithClient accountId collections)
      (fun report graph => Ingest.runFullIngestWithClient accountId collections graph₀ = .ok ⟨report, graph⟩)
      (FailsWriting batch graph₀) (LeftAfter (batchSteps batch) graph₀) := by
  rw [runFullIngestWithClient_of_built built]
  have consistent := (buildGraphBatch_ok built).consistent
  refine ((leads_writeBatch consistent graph₀).on_whole IngestError.write).bind fun _ => ?_
  exact leads_pure fun graph written => (finishes_iff built).mpr ⟨written, rfl⟩

theorem completes_of_built {graph : Neo4jGraph} {ingested : Ingested}
    (finishes : Ingest.runFullIngestWithClient accountId collections graph = .ok ingested) :
    Completes (runFullIngestWithClient accountId collections) graph ingested.report ingested.graph := by
  obtain ⟨written, reported⟩ := (finishes_iff built).mp finishes
  rw [runFullIngestWithClient_of_built built, reported]
  have consistent := (buildGraphBatch_ok built).consistent
  exact ((completes_writeBatch consistent written).on_whole IngestError.write).bind (completes_pure _ _)

end Run

/-- What does not map is found before the first call. -/
theorem runFullIngestWithClient_of_error {accountId : String} {collections : Sdk.Collections}
    {source : MappingError} (failed : (Topology.buildGraphBatch accountId collections).2 = .error source) :
    runFullIngestWithClient accountId collections = fail (.mapping source) := by
  rcases mapped : Topology.buildGraphBatch accountId collections with ⟨errors, result⟩
  obtain rfl : result = .error source := by rw [← failed, mapped]
  rw [runFullIngestWithClient, mapped]

end NetHound.Ingest.Session
