import NetHound.Graph.Replay
import NetHound.Ingest.Writing

/-! # Writing a batch twice

A batch that was written is node merges and edge statements, and both give back their own result when
they are run over it again. So a second write of the batch succeeds and leaves the graph as it was.
-/

namespace NetHound.Soundness

open Domain Graph Ingest Cypher

private theorem consistent_of_writeBatch {batch : GraphBatch} {graph graph' : Neo4jGraph}
    (wrote : writeBatch batch graph = .ok graph') :
    ∀ edge ∈ batch.edges.filterMap asRoutesTo, edge.Consistent := by
  simp only [writeBatch, Except.bind_eq_ok_iff] at wrote
  obtain ⟨_, _, _, _, _, _, _, _, _, _, _, _, _, _, _, _, _, _, _, _, _, routes, _⟩ := wrote
  exact consistent_of_upsertRoutesToEdges routes

/-- Writing a batch again changes nothing, whatever the graph held before. -/
theorem writeBatch_again {batch : GraphBatch} {graph graph' : Neo4jGraph}
    (wrote : writeBatch batch graph = .ok graph') : writeBatch batch graph' = .ok graph' := by
  have consistent := consistent_of_writeBatch wrote
  rw [writeBatch_eq consistent] at wrote ⊢
  have sent := allSent_edgeStatements batch.edges
  rw [PropertyGraph.mergeNodes_of_nodes (runStatements_nodes wrote)]
  exact runStatements_again sent wrote

private def web (resolved : Bool) : SgRule :=
  ⟨.ingress, "tcp", some (.single 443), .securityGroupRef "sg-2", resolved⟩

/-- Rows of one key that disagree, a null property, and a reference both known and unknown. -/
private def repeatedBatch : GraphBatch :=
  { enis := []
    securityGroups := [⟨"sg-1", "111122223333", "vpc-1", "web", some "front"⟩,
      ⟨"sg-1", "111122223333", "vpc-1", "web", none⟩, ⟨"sg-2", "111122223333", "vpc-1", "db", none⟩]
    networkAcls := [⟨"acl-1", "111122223333", "vpc-1", true⟩]
    subnets := []
    vpcs := [⟨"vpc-1", "111122223333", "10.0.0.0/16"⟩]
    routeTables := [⟨"rtb-1", "111122223333", "vpc-1", true⟩]
    edges := [.allowsIngress "sg-1" (web true), .allowsIngress "sg-1" (web false),
      .allowsIngress "sg-2" (web true), .allowsIngress "sg-2" (web false),
      .routesTo ⟨"rtb-1", "10.1.0.0/16", some "vpc-1", true⟩,
      .routesTo ⟨"rtb-1", "10.1.0.0/16", none, false⟩,
      .hasRule "acl-1" ⟨100, .ingress, "-1", none, "0.0.0.0/0", .allow⟩,
      .hasRule "acl-1" ⟨100, .egress, "-1", none, "0.0.0.0/0", .deny⟩] }

theorem writeBatch_again_repeated :
    ∃ graph', writeBatch repeatedBatch PropertyGraph.empty = .ok graph' ∧
      writeBatch repeatedBatch graph' = .ok graph' := by
  have written : (writeBatch repeatedBatch PropertyGraph.empty).isOk = true := by decide
  rcases wrote : writeBatch repeatedBatch PropertyGraph.empty with failure | graph'
  · rw [wrote] at written
    cases written
  · exact ⟨graph', rfl, writeBatch_again wrote⟩

end NetHound.Soundness
