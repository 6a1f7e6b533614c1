import NetHound.Ingest.Session

/-! # Ingestion after interruptions

An ingestion may fail or stop at any call, with the last statement committed or not, and be started again
any number of times. While the account is unchanged none of this is seen in the end: from every graph such a
history leads to, an ingestion that returns leaves the very graph, and the report, of one that was never
interrupted.
-/

namespace NetHound.Soundness

open Domain Graph Graph.Session Ingest Cypher Interruptible Interruptible.Program

/-- Whatever was left behind, writing the batch comes to the same. -/
def SameFinish (batch : GraphBatch) (graph left : Neo4jGraph) : Prop :=
  ∀ graph', writeBatch batch left = .ok graph' ↔ writeBatch batch graph = .ok graph'

variable {accountId : String} {collections : Sdk.Collections} {graph left : Neo4jGraph}

private theorem ensures_sameFinish {batch : GraphBatch}
    (built : (Topology.buildGraphBatch accountId collections).2 = .ok batch) :
    Ensures (SameFinish batch graph) (Ingest.Session.runFullIngestWithClient accountId collections)
      (fun _ => SameFinish batch graph) (SameFinish batch graph) := by
  constructor
  rintro ⟨left, replies⟩ same
  have consistent := (buildGraphBatch_ok built).consistent
  have resumed (after : Neo4jGraph) (leftAfter : LeftAfter (Ingest.Session.batchSteps batch) left after) :
      SameFinish batch graph after :=
    fun graph' => (Ingest.Session.writeBatch_resumed consistent leftAfter graph').trans (same graph')
  have leads : Leads (· = left) (Ingest.Session.runFullIngestWithClient accountId collections)
      (fun _ => SameFinish batch graph) (fun _ => SameFinish batch graph) (SameFinish batch graph) := by
    refine (Ingest.Session.leads_of_built built left).imp (fun _ same => same) ?_ ?_ resumed
    · intro report after finished
      obtain ⟨written, _⟩ := (Ingest.Session.finishes_iff built).mp finished
      exact resumed after (Ingest.Session.leftAfter_of_written consistent written)
    · rintro _ after ⟨source, rfl, failed⟩
      exact resumed after failed.leftAfter
  exact (leads.ensures (fun _ _ kept => kept) fun _ kept => kept).ends ⟨left, replies⟩ rfl

/-- Whatever ingestions of an unchanged account have been interrupted before, and wherever, one that returns
leaves the graph and the report of an ingestion that was never interrupted; and where that one finishes, so
does every later one that is left undisturbed. -/
theorem ingestion_recovers
    (reaches : Reaches (· = Ingest.Session.runFullIngestWithClient accountId collections) graph left) :
    (∀ replies report session,
      Ingest.Session.runFullIngestWithClient accountId collections ⟨left, replies⟩ = (.ok report, session) →
        runFullIngestWithClient accountId collections graph = .ok ⟨report, session.store⟩) ∧
      ∀ ingested, runFullIngestWithClient accountId collections graph = .ok ingested →
        Completes (Ingest.Session.runFullIngestWithClient accountId collections) left ingested.report
          ingested.graph := by
  rcases built : (Topology.buildGraphBatch accountId collections).2 with source | batch
  · have fails := Ingest.Session.runFullIngestWithClient_of_error built
    constructor
    · intro replies report session returned
      rw [fails] at returned
      cases returned
    · intro ingested finished
      rw [runFullIngestWithClient] at finished
      simp only [built] at finished
      cases finished
  · have same : SameFinish batch graph left :=
      reaches.invariant (fun _ => Iff.rfl) fun x run => by
        subst run
        exact ensures_sameFinish built
    constructor
    · intro replies report session returned
      have ends := (Ingest.Session.leads_of_built built left).ends ⟨left, replies⟩ rfl
      rw [returned] at ends
      obtain ⟨written, reported⟩ := (Ingest.Session.finishes_iff built).mp ends
      exact (Ingest.Session.finishes_iff built).mpr ⟨(same _).mp written, reported⟩
    · intro ingested finished
      obtain ⟨written, reported⟩ := (Ingest.Session.finishes_iff built).mp finished
      exact Ingest.Session.completes_of_built built
        ((Ingest.Session.finishes_iff built).mpr ⟨(same _).mpr written, reported⟩)

/-! ## An ingestion started three times -/

private def oneInterface : Sdk.Collections :=
  { networkInterfaces := [{
      networkInterfaceId := some "eni-1"
      vpcId := some "vpc-1"
      subnetId := some "subnet-1"
      privateIpAddress := some "10.0.0.1"
      groups := [⟨some "sg-1"⟩] }]
    securityGroups := [{ groupId := some "sg-1", vpcId := some "vpc-1", groupName := some "web" }] }

private def attempt : Program Neo4jGraph Ingest.Session.IngestError IngestReport :=
  Ingest.Session.runFullIngestWithClient "111122223333" oneInterface

/-- The second statement commits but is reported as failed; then the process stops in the third edge call,
whose statement has not committed. -/
private def leftover : Neo4jGraph :=
  (attempt ⟨(attempt ⟨PropertyGraph.empty, [.done, .fails true]⟩).2.store,
    List.replicate 6 .done ++ [.stops false]⟩).2.store

private def oneInterfaceReport : IngestReport :=
  ⟨[(.eni, 1), (.securityGroup, 1), (.networkAcl, 0), (.routeTable, 0), (.vpcPeeringConnection, 0)], 0, []⟩

theorem ingestion_recovers_twice_interrupted :
    ∃ session, attempt ⟨leftover, List.replicate 8 .done⟩ = (.ok oneInterfaceReport, session) ∧
      runFullIngestWithClient "111122223333" oneInterface PropertyGraph.empty =
        .ok ⟨oneInterfaceReport, session.store⟩ := by
  have again {graph : Neo4jGraph} (reaches : Reaches (· = attempt) PropertyGraph.empty graph)
      (replies : List Reply) : Reaches (· = attempt) PropertyGraph.empty (attempt ⟨graph, replies⟩).2.store :=
    @Reaches.run _ _ _ (· = attempt) _ _ attempt rfl replies reaches
  have reaches : Reaches (· = attempt) PropertyGraph.empty leftover := again (again .start _) _
  have returned : (attempt ⟨leftover, List.replicate 8 .done⟩).1 = .ok oneInterfaceReport := by decide
  rcases ran : attempt ⟨leftover, List.replicate 8 .done⟩ with ⟨outcome, session⟩
  rw [ran] at returned
  obtain rfl : outcome = .ok oneInterfaceReport := returned
  exact ⟨session, rfl, (ingestion_recovers reaches).1 _ _ _ ran⟩

end NetHound.Soundness
