import NetHound.Audit.Stages

/-! # Audits after interruptions

An audit may fail or stop anywhere and be started again, under another schedule, configuration file or
database state, any number of times. While the answers of the account are the same none of this is seen in
the end: from every database such a history leads to, a run that returns has the outcome, and leaves the
graph, of an audit that was never interrupted.
-/

namespace NetHound.Soundness

open Audit Audit.Session Domain Graph Graph.Session Cypher Evaluate Ingest Ingest.Aws Migrations Interruptible
  Interruptible.Program

section Steps

variable {accountId : String} {batch : GraphBatch} {collections : Sdk.Collections}
  {environment : Environment} {client : Ec2Client} {graph left after : Neo4jGraph}

/-- All the steps that an audit writes in. -/
def auditSteps (accountId : String) (batch : GraphBatch) : List Step :=
  stepsOf ((.regulatedBoundary, [regulatedBoundaryRow (boundaryRecord accountId)]) :: Ingest.Session.batchNodes batch)
    (chunksOf (edgeStatements batch.edges))

theorem runSteps_auditSteps (built : (Topology.buildGraphBatch accountId collections).2 = .ok batch)
    (graph : Neo4jGraph) :
    runSteps (auditSteps accountId batch) graph = Ingest.writeBatch batch (withBoundary accountId graph) :=
  Ingest.Session.runSteps_batchSteps (buildGraphBatch_ok built).consistent (withBoundary accountId graph)

/-- Where an audit stops, it has taken the first of these steps. -/
theorem leftAfter_of_stopsAudit (snapshot : Snapshot client collections)
    (built : (Topology.buildGraphBatch accountId collections).2 = .ok batch)
    (stops : StopsAudit environment client accountId graph after) :
    LeftAfter (auditSteps accountId batch) graph after := by
  rcases stops with rfl | rfl | ⟨batch', ⟨collections', collected, built'⟩, landed, later, all, left⟩
  · exact ⟨[], _, rfl, rfl⟩
  · exact ⟨[.nodes .regulatedBoundary [regulatedBoundaryRow (boundaryRecord accountId)]], _, rfl, rfl⟩
  · obtain rfl : collections' = collections := (collect_of_collect collected).unique snapshot
    obtain rfl : batch' = batch := Except.ok.inj (built'.symm.trans built)
    refine ⟨.nodes .regulatedBoundary [regulatedBoundaryRow (boundaryRecord accountId)] :: landed, later, ?_, left⟩
    rw [List.cons_append, ← all]
    rfl

/-- Writing the account from the one graph comes to the same as from the other. -/
def SameWrite (accountId : String) (batch : GraphBatch) (graph left : Neo4jGraph) : Prop :=
  ∀ graph', Ingest.writeBatch batch (withBoundary accountId left) = .ok graph' ↔
    Ingest.writeBatch batch (withBoundary accountId graph) = .ok graph'

theorem SameWrite.resumed (built : (Topology.buildGraphBatch accountId collections).2 = .ok batch)
    (same : SameWrite accountId batch graph left) (leftAfter : LeftAfter (auditSteps accountId batch) left after) :
    SameWrite accountId batch graph after := by
  intro graph'
  obtain ⟨landed, later, all, rfl⟩ := leftAfter
  rw [← same graph', ← runSteps_auditSteps built, ← runSteps_auditSteps built]
  exact runSteps_resumed (Ingest.Session.emitted_batch batch) all left graph'

/-- A finished audit from the one graph is one from the other. -/
theorem SameWrite.runWithEc2Client (built : (Topology.buildGraphBatch accountId collections).2 = .ok batch)
    (same : SameWrite accountId batch graph left) {clock : ℕ → String} {selectors : BoundarySelectors} {run : AuditRun} :
    Audit.runWithEc2Client clock selectors accountId collections left = .ok run ↔
      Audit.runWithEc2Client clock selectors accountId collections graph = .ok run := by
  have carried {first second : Neo4jGraph}
      (carries : ∀ graph', Ingest.writeBatch batch (withBoundary accountId first) = .ok graph' →
        Ingest.writeBatch batch (withBoundary accountId second) = .ok graph')
      (ran : Audit.runWithEc2Client clock selectors accountId collections first = .ok run) :
      Audit.runWithEc2Client clock selectors accountId collections second = .ok run := by
    obtain ⟨finished, assembled, evaluated⟩ := runWithEc2Client_ok ran
    obtain ⟨written, reported⟩ := (Ingest.Session.finishes_iff built).mp finished
    exact runWithEc2Client_of_stages accountId second
      ((Ingest.Session.finishes_iff built).mpr ⟨carries _ written, reported⟩) assembled evaluated
  exact ⟨carried fun graph' => (same graph').mp, carried fun graph' => (same graph').mpr⟩

end Steps

section Recovery

variable {Schema : Type} {execute : String → Schema → Option Schema} {files : List (String × String)}
  {isUppercase : Char → Bool} {account : Account} {region : String} {database : Database Schema}
  {graph : Neo4jGraph} {store : Store Schema}

/-- A run on the account, under any configuration for the region and in any environment. -/
def OnAccount (execute : String → Schema → Option Schema) (files : List (String × String))
    (isUppercase : Char → Bool) (account : Account) (region : String)
    (run : Program (Store Schema) Session.RunError Audit.Outcome) : Prop :=
  ∃ (environment : Environment) (config : ValidatedConfig isUppercase), config.region = region ∧
    run = Session.run execute files account environment config

/-- Whatever the account is mapped to, writing it comes to the same. -/
def SameAudit (account : Account) (region : String) (graph : Neo4jGraph) (store : Store Schema) : Prop :=
  ∀ accountId collections batch, account.identity ⟨region⟩ = .ok (some accountId) →
    Snapshot (account.client ⟨region⟩) collections →
      (Topology.buildGraphBatch accountId collections).2 = .ok batch → SameWrite accountId batch graph store.graph

private theorem ensures_sameAudit (environment : Environment) (config : ValidatedConfig isUppercase) :
    Ensures (SameAudit account config.region graph) (Session.run execute files account environment config)
      (fun _ => SameAudit account config.region graph) (SameAudit account config.region graph) := by
  refine @ensures_run_graph isUppercase Schema execute files account environment
    (fun left => ∀ accountId collections batch, account.identity ⟨config.region⟩ = .ok (some accountId) →
      Snapshot (account.client ⟨config.region⟩) collections →
        (Topology.buildGraphBatch accountId collections).2 = .ok batch → SameWrite accountId batch graph left)
    config ?_
  -- what is left of an audit is what some of its steps leave
  intro accountId left after identified same stops accountId' collections batch identified' snapshot built
  obtain rfl : accountId = accountId' :=
    Option.some.inj (Except.ok.inj (identified.symm.trans identified'))
  exact (same accountId collections batch identified snapshot built).resumed built
    (leftAfter_of_stopsAudit snapshot built stops)

private theorem sameAudit_of_reaches
    (reaches : Reaches (OnAccount execute files isUppercase account region) ⟨database, graph⟩ store) :
    SameAudit account region graph store := by
  refine reaches.invariant (fun _ _ _ _ _ _ _ => Iff.rfl) ?_
  rintro _ ⟨environment, config, rfl, rfl⟩
  exact ensures_sameAudit environment config

/-- The audit of the whole account from a graph, as it is without interruptions. -/
structure WholeAudit (account : Account) (config : ValidatedConfig isUppercase) (clock : ℕ → String)
    (graph : Neo4jGraph) (accountId : String) (collections : Sdk.Collections) (audited : AuditRun) : Prop where
  identified : Identified account config accountId
  snapshot : Snapshot (account.client ⟨config.region⟩) collections
  ran : Audit.runWithEc2Client clock config.selectors accountId collections graph = .ok audited

/-- What a run returns after such a history. -/
private theorem wholeAudit_of_returned {environment : Environment} {config : ValidatedConfig isUppercase}
    (reaches : Reaches (OnAccount execute files isUppercase account config.region) ⟨database, graph⟩ store)
    {replies : List Reply} {outcome : Audit.Outcome} {session : Interruptible.Session (Store Schema)}
    (returned : Session.run execute files account environment config ⟨store, replies⟩ = (.ok outcome, session)) :
    ∃ accountId collections audited, WholeAudit account config environment.clock graph accountId collections audited ∧
      outcome = audited.outcome ∧ session.store.graph = audited.ingested.graph := by
  have ends := (leads_run execute files account environment config store leads_trivial).ends ⟨store, replies⟩ rfl
  rw [returned] at ends
  obtain ⟨accountId, identified, _, collections, audited, collected, ran, rfl, written⟩ := ends
  have snapshot := collect_of_collect collected
  obtain ⟨batch, built⟩ := Ingest.Session.exists_built (runWithEc2Client_ok ran).1
  have same := sameAudit_of_reaches reaches accountId collections batch identified snapshot built
  exact ⟨accountId, collections, audited, ⟨identified, snapshot, (same.runWithEc2Client built).mp ran⟩, rfl,
    written.symm⟩

/-- Whatever runs on an unchanged account have been interrupted before, and wherever, one that returns has
the outcome, and leaves the graph, of an audit of the whole account that was never interrupted; and where
that one finishes, so does every later one that is left undisturbed once its migrations are through. -/
theorem audit_recovers {config : ValidatedConfig isUppercase}
    (reaches : Reaches (OnAccount execute files isUppercase account config.region) ⟨database, graph⟩ store)
    (environment : Environment) :
    (∀ replies outcome session,
      Session.run execute files account environment config ⟨store, replies⟩ = (.ok outcome, session) →
        ∃ accountId collections audited,
          WholeAudit account config environment.clock graph accountId collections audited ∧
            outcome = audited.outcome ∧ session.store.graph = audited.ingested.graph) ∧
      ∀ accountId collections audited summary database',
        WholeAudit account config environment.clock graph accountId collections audited →
          Undisturbed account environment config accountId collections →
            Completes (Migrations.run execute files) store.database summary database' →
              Completes (Session.run execute files account environment config) store audited.outcome
                ⟨database', audited.ingested.graph⟩ := by
  refine ⟨fun replies outcome session => wholeAudit_of_returned reaches, ?_⟩
  intro accountId collections audited summary database' whole undisturbed migrated
  obtain ⟨batch, built⟩ := Ingest.Session.exists_built (runWithEc2Client_ok whole.ran).1
  have same := sameAudit_of_reaches reaches accountId collections batch whole.identified whole.snapshot built
  exact completes_run undisturbed migrated ((same.runWithEc2Client built).mpr whole.ran)

end Recovery

/-! ## Exit codes -/

section Exit

variable {Schema : Type} (execute : String → Schema → Option Schema) (files : List (String × String))
  (isUppercase : Char → Bool) (account : Account) (environment : Environment) (graph : Neo4jGraph)
  (session : Interruptible.Session (Store Schema)) (cli : Except ℤ Command)

variable {execute files isUppercase account environment graph session cli}

end Exit

/-! ## An audit that is stopped in its writes -/

private def twoVpcs : Account where
  identity _ := .ok (some "111122223333")
  client _ := ⟨fun
    | .networkInterfaces => [
        .ok ⟨some [{
          networkInterfaceId := some "eni-1"
          vpcId := some "vpc-1"
          subnetId := some "subnet-1"
          privateIpAddress := some "10.0.0.1"
          groups := [⟨some "sg-1"⟩] }]⟩,
        .ok ⟨some [{
          networkInterfaceId := some "eni-2"
          vpcId := some "vpc-2"
          subnetId := some "subnet-2"
          privateIpAddress := some "10.1.0.1" }]⟩]
    | .securityGroups =>
        [.ok ⟨some [{ groupId := some "sg-1", vpcId := some "vpc-1", groupName := some "web" }]⟩]
    | _ => [.ok ⟨none⟩]⟩

private def inOrder : Environment := readyWith (Collector.all ++ [.networkInterfaces])

private def reversed : Environment := readyWith (.networkInterfaces :: Collector.all.reverse)

private def attemptOn (environment : Environment) (store : Store (List String)) (replies : List Reply) :
    Interruptible.Outcome Session.RunError Audit.Outcome × Interruptible.Session (Store (List String)) :=
  Session.run executed oneMigration twoVpcs environment (validatedSelecting "vpc-1") ⟨store, replies⟩

private def noStore : Store (List String) := ⟨.empty [], PropertyGraph.empty⟩

/-- The last statement of the first attempt has committed. -/
private def stoppedOnce : Store (List String) :=
  (Session.run executed oneMigration twoVpcs inOrder (validatedSelecting "vpc-1")
    ⟨noStore, List.replicate 17 .done ++ [.stops true]⟩).2.store

private theorem reaches_stoppedOnce :
    Reaches (OnAccount executed oneMigration Char.isUpper twoVpcs "eu-west-1") noStore stoppedOnce :=
  .run ⟨inOrder, validatedSelecting "vpc-1", rfl, rfl⟩ _ .start

theorem audit_recovers_reversed : ∃ session accountId collections audited,
    attemptOn reversed stoppedOnce (List.replicate 40 .done) = (.ok .clean, session) ∧
      WholeAudit twoVpcs (validatedSelecting "vpc-1") (fun _ => "") PropertyGraph.empty accountId collections audited ∧
        session.store.graph = audited.ingested.graph := by
  have finished : (attemptOn reversed stoppedOnce (List.replicate 40 .done)).1 = .ok .clean := by decide +kernel
  have reaches := reaches_stoppedOnce
  -- from here on the store is any that a history leads to
  generalize stoppedOnce = store at finished reaches ⊢
  rcases ran : attemptOn reversed store (List.replicate 40 .done) with ⟨outcome, session⟩
  rw [ran] at finished
  obtain rfl : outcome = _ := finished
  obtain ⟨accountId, collections, audited, whole, _, written⟩ :=
    (audit_recovers reaches reversed).1 _ _ _ ran
  exact ⟨session, accountId, collections, audited, rfl, whole, written⟩

private def process (store : Store (List String)) : Option ℤ :=
  (main executed oneMigration Char.isUpper twoVpcs reversed (.ok (.run (.ok (selecting "vpc-1"))))
    ⟨store, List.replicate 40 .done⟩).1

end NetHound.Soundness
