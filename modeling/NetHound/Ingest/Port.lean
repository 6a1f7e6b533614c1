import NetHound.Ingest.Writing

/-! # The writer as a port

`write_batch` is generic in its `GraphWriter`. An `Upsert` is one call of a writer's method with its
slice, a writer answers calls, and `writeBatchWith` is the source's body: the loop that sorts the edges
by kind, the grouping by owner and the fourteen calls in order. With the Neo4j writer it is
`writeBatch`.
-/

namespace NetHound.Ingest

open Domain Graph

/-- One call of a `GraphWriter` method. -/
inductive Upsert where
  | upsertEnis (enis : List EniRecord)
  | upsertSecurityGroups (securityGroups : List SecurityGroupRecord)
  | upsertNetworkAcls (networkAcls : List NetworkAclRecord)
  | upsertSubnets (subnets : List SubnetRecord)
  | upsertVpcs (vpcs : List VpcRecord)
  | upsertRouteTables (routeTables : List RouteTableRecord)
  | upsertHasSgEdges (edges : List HasSgEdge)
  | upsertInSubnetEdges (edges : List InSubnetEdge)
  | upsertProtectedByEdges (edges : List ProtectedByEdge)
  | upsertUsesRouteTableEdges (edges : List UsesRouteTableEdge)
  | upsertRoutesToEdges (edges : List RoutesToEdge)
  | upsertAllowsEgressRules (batches : List SgRuleBatch)
  | upsertAllowsIngressRules (batches : List SgRuleBatch)
  | upsertHasRules (batches : List NaclRuleBatch)
deriving DecidableEq, Repr

/-- How a writer answers each call. -/
abbrev GraphWriter (σ ε : Type) := Upsert → σ → Except ε σ

def neo4jGraphWriter : GraphWriter Neo4jGraph WriteFailure
  | .upsertEnis enis => upsertEnis enis
  | .upsertSecurityGroups securityGroups => upsertSecurityGroups securityGroups
  | .upsertNetworkAcls networkAcls => upsertNetworkAcls networkAcls
  | .upsertSubnets subnets => upsertSubnets subnets
  | .upsertVpcs vpcs => upsertVpcs vpcs
  | .upsertRouteTables routeTables => upsertRouteTables routeTables
  | .upsertHasSgEdges edges => upsertHasSgEdges edges
  | .upsertInSubnetEdges edges => upsertInSubnetEdges edges
  | .upsertProtectedByEdges edges => upsertProtectedByEdges edges
  | .upsertUsesRouteTableEdges edges => upsertUsesRouteTableEdges edges
  | .upsertRoutesToEdges edges => upsertRoutesToEdges edges
  | .upsertAllowsEgressRules batches => upsertAllowsEgressRules batches
  | .upsertAllowsIngressRules batches => upsertAllowsIngressRules batches
  | .upsertHasRules batches => upsertHasRules batches

/-- The vectors the loop over the edges fills. -/
structure SortedEdges where
  hasSgEdges : List HasSgEdge
  inSubnetEdges : List InSubnetEdge
  protectedByEdges : List ProtectedByEdge
  usesRouteTableEdges : List UsesRouteTableEdge
  routesToEdges : List RoutesToEdge
  ingressPairs : List (String × SgRule)
  egressPairs : List (String × SgRule)
  naclPairs : List (String × NaclRule)
deriving DecidableEq

/-- The loop's match on one edge. -/
def SortedEdges.push (sorted : SortedEdges) : Edge → SortedEdges
  | .hasSg edge => { sorted with hasSgEdges := sorted.hasSgEdges ++ [edge] }
  | .inSubnet edge => { sorted with inSubnetEdges := sorted.inSubnetEdges ++ [edge] }
  | .protectedBy edge => { sorted with protectedByEdges := sorted.protectedByEdges ++ [edge] }
  | .usesRouteTable edge => { sorted with usesRouteTableEdges := sorted.usesRouteTableEdges ++ [edge] }
  | .routesTo edge => { sorted with routesToEdges := sorted.routesToEdges ++ [edge] }
  | .allowsIngress securityGroupId rule =>
      { sorted with ingressPairs := sorted.ingressPairs ++ [(securityGroupId, rule)] }
  | .allowsEgress securityGroupId rule =>
      { sorted with egressPairs := sorted.egressPairs ++ [(securityGroupId, rule)] }
  | .hasRule networkAclId rule => { sorted with naclPairs := sorted.naclPairs ++ [(networkAclId, rule)] }

def sortEdges (edges : List Edge) : SortedEdges :=
  edges.foldl SortedEdges.push ⟨[], [], [], [], [], [], [], []⟩

def writeBatchWith {σ ε : Type} (writer : GraphWriter σ ε) (batch : GraphBatch) (state : σ) :
    Except ε σ := do
  let state ← writer (.upsertEnis batch.enis) state
  let state ← writer (.upsertSecurityGroups batch.securityGroups) state
  let state ← writer (.upsertNetworkAcls batch.networkAcls) state
  let state ← writer (.upsertSubnets batch.subnets) state
  let state ← writer (.upsertVpcs batch.vpcs) state
  let state ← writer (.upsertRouteTables batch.routeTables) state
  let sorted := sortEdges batch.edges
  let state ← writer (.upsertHasSgEdges sorted.hasSgEdges) state
  let state ← writer (.upsertInSubnetEdges sorted.inSubnetEdges) state
  let state ← writer (.upsertProtectedByEdges sorted.protectedByEdges) state
  let state ← writer (.upsertUsesRouteTableEdges sorted.usesRouteTableEdges) state
  let state ← writer (.upsertRoutesToEdges sorted.routesToEdges) state
  let state ← writer (.upsertAllowsIngressRules (sgRuleBatches sorted.ingressPairs)) state
  let state ← writer (.upsertAllowsEgressRules (sgRuleBatches sorted.egressPairs)) state
  writer (.upsertHasRules (naclRuleBatches sorted.naclPairs)) state

/-- The run over any writer. -/
def runFullIngestWith {σ ε : Type} (writer : GraphWriter σ ε) (accountId : String)
    (collections : Sdk.Collections) (state : σ) : Except (MappingError ⊕ ε) (IngestReport × σ) :=
  let (nodeMappingErrors, built) := Topology.buildGraphBatch accountId collections
  match built with
  | .error source => .error (.inl source)
  | .ok batch =>
      match writeBatchWith writer batch state with
      | .error source => .error (.inr source)
      | .ok state =>
          .ok ({
            counts := [(.eni, batch.enis.length), (.securityGroup, batch.securityGroups.length),
              (.networkAcl, batch.networkAcls.length), (.routeTable, batch.routeTables.length),
              (.vpcPeeringConnection, collections.vpcPeeringConnections.length)]
            unresolvedReferences := countUnresolved batch
            nonFatal := nodeMappingErrors.map .from }, state)

/-! ## Sorting -/

private theorem foldl_sorted_push (edges : List Edge) (sorted : SortedEdges) :
    edges.foldl SortedEdges.push sorted =
      ⟨sorted.hasSgEdges ++ edges.filterMap asHasSg, sorted.inSubnetEdges ++ edges.filterMap asInSubnet,
        sorted.protectedByEdges ++ edges.filterMap asProtectedBy,
        sorted.usesRouteTableEdges ++ edges.filterMap asUsesRouteTable,
        sorted.routesToEdges ++ edges.filterMap asRoutesTo,
        sorted.ingressPairs ++ edges.filterMap asAllowsIngress,
        sorted.egressPairs ++ edges.filterMap asAllowsEgress,
        sorted.naclPairs ++ edges.filterMap asHasRule⟩ := by
  induction edges generalizing sorted with
  | nil => simp
  | cons edge edges ih =>
    rw [List.foldl_cons, ih]
    cases edge <;>
      simp [List.filterMap_cons, SortedEdges.push, asHasSg, asInSubnet, asProtectedBy, asUsesRouteTable,
        asRoutesTo, asAllowsIngress, asAllowsEgress, asHasRule]

/-- The loop keeps each kind's edges in batch order. -/
theorem sortEdges_eq (edges : List Edge) :
    sortEdges edges =
      ⟨edges.filterMap asHasSg, edges.filterMap asInSubnet, edges.filterMap asProtectedBy,
        edges.filterMap asUsesRouteTable, edges.filterMap asRoutesTo, edges.filterMap asAllowsIngress,
        edges.filterMap asAllowsEgress, edges.filterMap asHasRule⟩ := by
  rw [sortEdges, foldl_sorted_push]
  simp only [List.nil_append]

/-- The pipeline's own writer is the Neo4j one. -/
theorem writeBatch_eq_writeBatchWith (batch : GraphBatch) (graph : Neo4jGraph) :
    writeBatch batch graph = writeBatchWith neo4jGraphWriter batch graph := by
  rw [writeBatchWith, sortEdges_eq]
  rfl

/-- And its run is the one over that writer. -/
theorem runFullIngestWithClient_eq (accountId : String) (collections : Sdk.Collections) (graph : Neo4jGraph) :
    runFullIngestWithClient accountId collections graph =
      match runFullIngestWith neo4jGraphWriter accountId collections graph with
      | .error (.inl source) => .error (.mapping source)
      | .error (.inr failure) => .error (.write failure.error)
      | .ok (report, graph) => .ok ⟨report, graph⟩ := by
  unfold runFullIngestWithClient runFullIngestWith
  rcases built : Topology.buildGraphBatch accountId collections with ⟨errors, source | batch⟩
  · rfl
  · simp only [writeBatch_eq_writeBatchWith]
    rcases writeBatchWith neo4jGraphWriter batch graph with failure | written <;> rfl

/-! ## Calls -/

/-- Every call a batch makes, in order. -/
def upserts (batch : GraphBatch) : List Upsert :=
  let sorted := sortEdges batch.edges
  [.upsertEnis batch.enis, .upsertSecurityGroups batch.securityGroups,
    .upsertNetworkAcls batch.networkAcls, .upsertSubnets batch.subnets, .upsertVpcs batch.vpcs,
    .upsertRouteTables batch.routeTables, .upsertHasSgEdges sorted.hasSgEdges,
    .upsertInSubnetEdges sorted.inSubnetEdges, .upsertProtectedByEdges sorted.protectedByEdges,
    .upsertUsesRouteTableEdges sorted.usesRouteTableEdges, .upsertRoutesToEdges sorted.routesToEdges,
    .upsertAllowsIngressRules (sgRuleBatches sorted.ingressPairs),
    .upsertAllowsEgressRules (sgRuleBatches sorted.egressPairs),
    .upsertHasRules (naclRuleBatches sorted.naclPairs)]

/-- A writer that also logs the calls it answered. -/
def GraphWriter.recording {σ ε : Type} (writer : GraphWriter σ ε) : GraphWriter (σ × List Upsert) ε :=
  fun call (state, log) => (writer call state).map fun state => (state, log ++ [call])

section Calls

variable {σ ε : Type} (writer : GraphWriter σ ε)

theorem writeBatchWith_eq (batch : GraphBatch) (state : σ) :
    writeBatchWith writer batch state =
      (upserts batch).foldlM (fun state call => writer call state) state := by
  simp only [writeBatchWith, upserts, List.foldlM_cons, List.foldlM_nil, bind_pure]

private theorem foldlM_recording (calls : List Upsert) (state : σ) (log : List Upsert) :
    calls.foldlM (fun state call => writer.recording call state) (state, log) =
      (calls.foldlM (fun state call => writer call state) state).map fun state => (state, log ++ calls) := by
  induction calls generalizing state log with
  | nil => simp [Except.map, pure, Except.pure]
  | cons call calls ih =>
    rw [List.foldlM_cons, List.foldlM_cons, GraphWriter.recording]
    cases answered : writer call state with
    | error failure => rfl
    | ok state' =>
      have rest := ih state' (log ++ [call])
      rw [List.append_assoc, List.singleton_append] at rest
      exact rest

/-- Whatever the writer, the calls it has answered when a batch is written are the batch's. -/
theorem writeBatchWith_recording (batch : GraphBatch) (state : σ) :
    writeBatchWith writer.recording batch (state, []) =
      (writeBatchWith writer batch state).map fun state => (state, upserts batch) := by
  rw [writeBatchWith_eq, writeBatchWith_eq, foldlM_recording, List.nil_append]

end Calls

end NetHound.Ingest
