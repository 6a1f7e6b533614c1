import NetHound.Ingest.Runs
import NetHound.Soundness.AuditRuns

/-! # The table of a database

Over any history of processes on an empty database the graph is a table of merges that the writer has emitted
for batches of some accounts. What holds of every complete merge of a batch holds of the whole table.
-/

namespace NetHound.Soundness

open Audit Audit.Session Domain Graph Graph.Session Cypher Ingest Ingest.Aws Interruptible Interruptible.Program

variable {p : Merge → Prop}

/-- The complete merges of every batch have a property. -/
def BatchesWrite (p : Merge → Prop) : Prop :=
  ∀ accountId collections batch, Built accountId collections batch → ∀ c ∈ batchMerges batch, c.Complete → p c

private theorem writes_batchSteps (batches : BatchesWrite p) {accountId : String} {collections : Sdk.Collections}
    {batch : GraphBatch} (built : Built accountId collections batch) :
    ∀ step ∈ Ingest.Session.batchSteps batch, step.Writes p := by
  intro step member
  rcases Ingest.Session.mem_batchSteps member with ⟨label, chunk, rfl, _⟩ | ⟨chunk, rfl, written⟩
  · trivial
  · intro c inChunk
    exact ⟨emitted_merges (allSent_edgeStatements batch.edges) c (written c inChunk),
      batches accountId collections batch built c (written c inChunk)⟩

/-- Wherever a write of the batch ends. -/
theorem storesOnly_of_leftAfter (batches : BatchesWrite p) {accountId : String} {collections : Sdk.Collections}
    {batch : GraphBatch} (built : Built accountId collections batch) {graph left : Neo4jGraph}
    (holds : StoresOnly p graph) (leftAfter : LeftAfter (Ingest.Session.batchSteps batch) graph left) :
    StoresOnly p left :=
  leftAfter.invariant (fun step member _ holds => holds.step (writes_batchSteps batches built step member)) holds

theorem storesOnly_of_stopsAudit (batches : BatchesWrite p) {environment : Environment} {client : Ec2Client}
    {accountId : String} {graph left : Neo4jGraph} (holds : StoresOnly p graph)
    (stops : StopsAudit environment client accountId graph left) : StoresOnly p left := by
  rcases stops with rfl | rfl | ⟨batch, ⟨collections, _, built⟩, leftAfter⟩
  · exact holds
  · exact holds.mergeNodes _
  · exact storesOnly_of_leftAfter batches (buildGraphBatch_ok built) (holds.mergeNodes _) leftAfter

/-- From an empty database on, the graph is such a table, whatever has been run and wherever it ended. -/
theorem storesOnly_of_reaches (batches : BatchesWrite p) {Schema : Type} {execute : String → Schema → Option Schema}
    {files : List (String × String)} {isUppercase : Char → Bool} {initial : Schema} {store : Store Schema}
    (reaches : Reaches (AnyProcess execute files isUppercase) ⟨.empty initial, PropertyGraph.empty⟩ store) :
    StoresOnly p store.graph := by
  have kept : ∀ process, AnyProcess execute files isUppercase process →
      Ensures (fun store : Store Schema => StoresOnly p store.graph) process
        (fun _ store => StoresOnly p store.graph) fun store => StoresOnly p store.graph := by
    rintro _ ⟨account, environment, command, rfl⟩
    refine ensures_dispatch (fun config => ensures_run_graph config ?_) command
    exact fun accountId graph left _ holds stops => storesOnly_of_stopsAudit batches holds stops
  exact reaches.invariant ⟨[], Stored.empty, by simp⟩ kept

/-! ## Two audits -/

/-- An audit of an empty database, with some replies. -/
def auditedFresh (account : Account) (vpcId : String) (replies : List Reply) : Store (List String) :=
  (dispatch executed oneMigration Char.isUpper account (readyWith Collector.all) (.run (.ok (selecting vpcId)))
    ⟨⟨.empty [], PropertyGraph.empty⟩, replies⟩).2.store

theorem reaches_auditedFresh (account : Account) (vpcId : String) (replies : List Reply) :
    Reaches (AnyProcess executed oneMigration Char.isUpper) ⟨.empty [], PropertyGraph.empty⟩
      (auditedFresh account vpcId replies) :=
  .run ⟨_, _, _, rfl⟩ _ .start

/-- An audit of a database with enough replies. -/
def audited (account : Account) (vpcId : String) (store : Store (List String)) :
    Interruptible.Outcome Session.RunError Audit.Outcome × Interruptible.Session (Store (List String)) :=
  Session.run executed oneMigration account (readyWith Collector.all) (validatedSelecting vpcId)
    ⟨store, List.replicate 80 .done⟩

end NetHound.Soundness
