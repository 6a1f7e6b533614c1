import NetHound.Ingest.Closure

/-! # Ingestion over a written store

A finished ingestion has merged its batch's nodes and upserted its batch's relationship merges into
the table the store held (`finished_of_ok`). It would have finished over any larger store as well,
with the same report.
-/

namespace NetHound.Ingest

open Domain Graph Cypher Topology

/-- The relationship merges a batch is written by, in order. -/
def batchMerges (batch : GraphBatch) : List Merge := merges (edgeStatements batch.edges)

/-- The interface rows of a batch are those of its interface records. -/
theorem filter_nodeRows_eni (batch : GraphBatch) (id : String) :
    (nodeRows batch).filter (fun row => row.ref = ⟨.eni, id⟩) =
      (batch.enis.filter fun record => record.id = id).map fun record => nodeUpsert .eni (eniRow record) := by
  simp [nodeRows, List.filter_append, List.filter_map, Function.comp_def, nodeUpsert, eniRow]

/-- What a finished ingestion leaves over a store whose relationships are those of `table`. -/
structure Finished (accountId : String) (collections : Sdk.Collections) (graph : Neo4jGraph)
    (table : List Merge) (batch : GraphBatch) (ingested : Ingested) : Prop where
  built : Built accountId collections batch
  nodes : ingested.graph.nodes = (graph.mergeNodes (nodeRows batch)).nodes
  stored : Stored ingested.graph (table.upserts RelMerge.key (batchMerges batch))
  lands : ∀ statement ∈ edgeStatements batch.edges, ∀ row ∈ statement.2,
    Lands (graph.mergeNodes (nodeRows batch)) statement.1 row

section Run

variable {accountId : String} {collections : Sdk.Collections} {graph : Neo4jGraph} {table : List Merge}
  {ingested : Ingested}

private theorem run_eq {batch : GraphBatch} (built : (buildGraphBatch accountId collections).2 = .ok batch)
    (graph : Neo4jGraph) : runFullIngestWithClient accountId collections graph =
      match runStatements (edgeStatements batch.edges) (graph.mergeNodes (nodeRows batch)) with
      | .error failure => .error (.write failure.error)
      | .ok graph =>
          .ok {
            report := {
              counts := [(.eni, batch.enis.length), (.securityGroup, batch.securityGroups.length),
                (.networkAcl, batch.networkAcls.length), (.routeTable, batch.routeTables.length),
                (.vpcPeeringConnection, collections.vpcPeeringConnections.length)]
              unresolvedReferences := countUnresolved batch
              nonFatal := (buildGraphBatch accountId collections).1.map .from }
            graph } := by
  rw [← writeBatch_eq (buildGraphBatch_ok built).consistent, runFullIngestWithClient]
  rcases mapped : buildGraphBatch accountId collections with ⟨errors, result⟩
  obtain rfl : result = .ok batch := by rw [← built, mapped]
  rfl

theorem built_of_ok (ran : runFullIngestWithClient accountId collections graph = .ok ingested) :
    ∃ batch, (buildGraphBatch accountId collections).2 = .ok batch := by
  rcases mapped : buildGraphBatch accountId collections with ⟨errors, error | batch⟩
  · rw [runFullIngestWithClient, mapped] at ran
    cases ran
  · exact ⟨batch, rfl⟩

/-- A finished ingestion has written its batch. -/
theorem finished_of_ok (stored : Stored graph table) {batch : GraphBatch}
    (built : (buildGraphBatch accountId collections).2 = .ok batch)
    (ran : runFullIngestWithClient accountId collections graph = .ok ingested) :
    Finished accountId collections graph table batch ingested := by
  rw [run_eq built] at ran
  split at ran
  · cases ran
  · next written =>
    cases ran
    obtain ⟨nodes, lands, stored'⟩ :=
      runStatements_ok (stored.mergeNodes (nodeRows batch)) (allSent_edgeStatements batch.edges) written
    exact ⟨buildGraphBatch_ok built, nodes, stored', lands⟩

/-- An interface's node is what its own records make of the node that was there. -/
theorem Finished.nodesAt_eni {batch : GraphBatch}
    (finished : Finished accountId collections graph table batch ingested)
    (id : String) : ingested.graph.nodesAt ⟨.eni, id⟩ =
      ((batch.enis.filter fun record => record.id = id).map fun record =>
        nodeUpsert .eni (eniRow record)).foldl
        (fun nodes row => nodes.mergeInto NodeMerge.matched NodeMerge.assign NodeMerge.create row)
        (graph.nodesAt ⟨.eni, id⟩) := by
  rw [← filter_nodeRows_eni, ← PropertyGraph.nodesAt_mergeNodes, PropertyGraph.nodesAt, finished.nodes]
  rfl

/-- An interface's node carries what its last record says. -/
theorem Finished.eniNode {batch : GraphBatch}
    (finished : Finished accountId collections graph table batch ingested)
    {id : String} {record : EniRecord}
    (last : (batch.enis.filter fun record => record.id = id).getLast? = some record) :
    ∃ node ∈ ingested.graph.nodesAt ⟨.eni, id⟩, node.props .vpcId = stringProp record.vpcId ∧
      node.props .subnetId = stringProp record.subnetId ∧
        node.props .privateIp = stringProp record.privateIp := by
  have sameNodes : ingested.graph.nodesAt ⟨.eni, id⟩ =
      (graph.mergeNodes (nodeRows batch)).nodesAt ⟨.eni, id⟩ := by
    rw [PropertyGraph.nodesAt, finished.nodes]
    rfl
  have lastRow : ((nodeRows batch).filter fun row => row.ref = ⟨.eni, id⟩).getLast? =
      some (nodeUpsert .eni (eniRow record)) := by
    rw [filter_nodeRows_eni, List.getLast?_map, last]
    rfl
  have written : ⟨.eni, id⟩ ∈ (graph.mergeNodes (nodeRows batch)).refs := by
    obtain ⟨member, ref⟩ := List.mem_filter.mp (List.mem_of_getLast? lastRow)
    rw [← of_decide_eq_true ref]
    exact PropertyGraph.mem_refs_mergeNodes.mpr (Or.inr (List.mem_map_of_mem member))
  obtain ⟨node, inNodes, ref⟩ := List.mem_map.mp written
  have atRef := PropertyGraph.mem_nodesAt.mpr ⟨inNodes, ref⟩
  refine ⟨node, by rw [sameNodes]; exact atRef, ?_, ?_, ?_⟩ <;>
    exact PropertyGraph.props_mergeNodes lastRow rfl atRef

/-- What finishes over a store finishes over any store with its nodes, and reports the same. -/
theorem runFullIngestWithClient_mono {graph' : Neo4jGraph} {table' : List Merge} (stored : Stored graph table)
    (stored' : Stored graph' table') (more : ∀ ref ∈ graph.refs, ref ∈ graph'.refs)
    (ran : runFullIngestWithClient accountId collections graph = .ok ingested) :
    ∃ ingested', runFullIngestWithClient accountId collections graph' = .ok ingested' ∧
      ingested'.report = ingested.report := by
  obtain ⟨batch, built⟩ := built_of_ok ran
  have finished := finished_of_ok stored built ran
  have grown (ref : NodeRef Label) (present : ref ∈ (graph.mergeNodes (nodeRows batch)).refs) :
      ref ∈ (graph'.mergeNodes (nodeRows batch)).refs := by
    rw [PropertyGraph.mem_refs_mergeNodes] at present ⊢
    exact present.imp_left (more ref)
  obtain ⟨last, written⟩ := (runStatements_iff (stored'.mergeNodes (nodeRows batch))
    (allSent_edgeStatements batch.edges)).mpr fun statement member row inRows => by
      obtain ⟨c, merged, ⟨source, target⟩, complete⟩ := finished.lands statement member row inRows
      exact ⟨c, merged, ⟨grown c.source source, grown c.target target⟩, complete⟩
  rw [run_eq built] at ran ⊢
  rw [written]
  refine ⟨_, rfl, ?_⟩
  split at ran
  · cases ran
  · cases ran
    rfl

end Run

end NetHound.Ingest
