import NetHound.Audit.Session

/-! # What each stage of an audit leaves

A triple for each part of a run, from a known store. The boundary is the first thing written and the
resources come after it, in the steps of the whole batch; candidates are read and evaluated from the graph
those steps ended with. What the migrations leave of their part of the database is a parameter.
-/

namespace NetHound.Audit.Session

open Domain Graph Graph.Session Cypher Evaluate Ingest Ingest.Aws Migrations Interruptible Interruptible.Program

variable {isUppercase : Char → Bool}

/-! ## The graph -/

section Audit

variable (environment : Environment) (config : ValidatedConfig isUppercase) (client : Ec2Client)
  (accountId : String) (graph₀ : Neo4jGraph)

/-- The audit of a finished run, as it is without interruptions. -/
def Audited (outcome : Outcome) (graph : Neo4jGraph) : Prop :=
  ∃ collections run, collect environment.schedule client = some (.ok collections) ∧
    Audit.runWithEc2Client environment.clock config.selectors accountId collections graph₀ = .ok run ∧
      run.outcome = outcome ∧ run.ingested.graph = graph

/-- How an audit fails, and the graph it leaves. -/
inductive FailsAudit : RunError → Neo4jGraph → Prop
  | boundary {graph : Neo4jGraph} (left : graph = graph₀ ∨ graph = withBoundary accountId graph₀) :
      FailsAudit (.boundary .driver) graph
  | ingest {error : Aws.IngestError} {graph : Neo4jGraph}
      (fails : FailsIngesting environment.schedule client accountId (withBoundary accountId graph₀) error graph) :
      FailsAudit (.ingest (classifyIngest environment error)) graph
  | assembly {source : Evaluate.Session.CandidateAssemblyError} {collections : Sdk.Collections}
      {ingested : Ingested} (collected : collect environment.schedule client = some (.ok collections))
      (finished : Ingest.runFullIngestWithClient accountId collections (withBoundary accountId graph₀) =
        .ok ingested) :
      FailsAudit (.assembly source) ingested.graph

/-- What a stopped audit leaves: nothing, or the boundary and the first steps of the whole batch. -/
def StopsAudit (graph : Neo4jGraph) : Prop :=
  graph = graph₀ ∨
    WrittenUpTo environment.schedule client accountId (withBoundary accountId graph₀) graph

/-- A failed audit leaves what a stopped one may leave. -/
theorem FailsAudit.stopsAudit {error : RunError} {graph : Neo4jGraph}
    (fails : FailsAudit environment client accountId graph₀ error graph) :
    StopsAudit environment client accountId graph₀ graph := by
  cases fails with
  | boundary left => exact left.imp id Or.inl
  | ingest fails => exact Or.inr fails.writtenUpTo
  | assembly collected finished => exact Or.inr (writtenUpTo_of_finished collected finished)

/-- Upserting the boundary is one call. -/
theorem upsertBoundary_eq : Graph.Session.upsertRegulatedBoundaries [boundaryRecord accountId] =
    (request .driver fun graph => some ((), withBoundary accountId graph) : Graph.Session.Client Unit) := by
  have chunks : chunkRows [regulatedBoundaryRow (boundaryRecord accountId)] batchSize =
      [[regulatedBoundaryRow (boundaryRecord accountId)]] := rfl
  rw [Graph.Session.upsertRegulatedBoundaries, List.map_singleton, Graph.Session.runNodeUpsert, chunks,
    List.forM_cons]
  exact bind_pure_unit

theorem leads_upsertBoundary :
    Leads (· = graph₀) (Graph.Session.upsertRegulatedBoundaries [boundaryRecord accountId])
      (fun _ graph => graph = withBoundary accountId graph₀)
      (fun error graph => error = .driver ∧ (graph = graph₀ ∨ graph = withBoundary accountId graph₀))
      (fun graph => graph = graph₀ ∨ graph = withBoundary accountId graph₀) := by
  rw [upsertBoundary_eq]
  apply leads_request
  · rintro _ _ _ rfl applied
    cases applied
    rfl
  · rintro _ rfl
    exact ⟨rfl, Or.inl rfl⟩
  · rintro _ _ _ rfl applied
    cases applied
    exact ⟨rfl, Or.inr rfl⟩
  · exact fun _ same => Or.inl same
  · rintro _ _ _ rfl applied
    cases applied
    exact Or.inr rfl

/-- A run that ingested, assembled and evaluated is finished. -/
theorem runWithEc2Client_of_stages {clock : ℕ → String} {selectors : BoundarySelectors}
    {collections : Sdk.Collections} {run : AuditRun}
    (finished : Ingest.runFullIngestWithClient accountId collections (withBoundary accountId graph₀) =
      .ok run.ingested)
    (assembled : Evaluate.assembleCandidates run.ingested.graph (boundaryRecord accountId).id selectors =
      .ok run.candidates)
    (evaluated : run.findings = run.candidates.mapIdx fun index candidate =>
      evaluateCandidate (clock index) candidate) :
    Audit.runWithEc2Client clock selectors accountId collections graph₀ = .ok run := by
  have bounded : Graph.upsertRegulatedBoundaries [boundaryRecord accountId] graph₀ =
      .ok (withBoundary accountId graph₀) :=
    runNodeUpsert_eq _ _ graph₀
  rw [Audit.runWithEc2Client]
  simp only [bounded]
  refine Except.bind_eq_ok_iff.mpr ⟨_, rfl, ?_⟩
  refine Except.bind_eq_ok_iff.mpr ⟨_, Except.mapError_eq_ok_iff.mpr finished, ?_⟩
  refine Except.bind_eq_ok_iff.mpr ⟨_, Except.mapError_eq_ok_iff.mpr assembled, ?_⟩
  rw [← evaluated]
  rfl

theorem leads_audit :
    Leads (· = graph₀) (audit environment config client accountId)
      (Audited environment config client accountId graph₀)
      (FailsAudit environment client accountId graph₀)
      (StopsAudit environment client accountId graph₀) := by
  rw [audit]
  have bounded : Leads (· = graph₀)
      ((Graph.Session.upsertRegulatedBoundaries [boundaryRecord accountId]).on .whole RunError.boundary)
      (fun _ graph => graph = withBoundary accountId graph₀) (FailsAudit environment client accountId graph₀)
      (StopsAudit environment client accountId graph₀) := by
    refine ((leads_upsertBoundary accountId graph₀).on_whole RunError.boundary).imp (fun _ same => same)
      (fun _ _ same => same) ?_ ?_
    · rintro _ _ ⟨_, rfl, rfl, left⟩
      exact .boundary left
    · rintro _ (same | same)
      · exact Or.inl same
      · exact Or.inr (Or.inl same)
  refine bounded.bind fun _ => ?_
  have ingests := leads_runFullIngestWithClient environment.schedule client accountId (withBoundary accountId graph₀)
  refine ((ingests.on_whole fun source => RunError.ingest (classifyIngest environment source)).imp
    (fun _ same => same) (fun _ _ finished => finished) ?_ fun _ left => Or.inr left).bind fun report => ?_
  · rintro _ _ ⟨_, rfl, fails⟩
    exact .ingest fails
  refine leads_of_each fun graph ⟨collections, collected, finished⟩ => ?_
  have stopped (after : Neo4jGraph) (same : after = graph) : StopsAudit environment client accountId graph₀ after := by
    rw [same]
    exact Or.inr (writtenUpTo_of_finished collected finished)
  have assembles := Evaluate.Session.leads_assembleCandidates graph (boundaryRecord accountId).id config.selectors
  refine ((assembles.on_whole RunError.assembly).imp (fun _ same => same) (fun _ _ read => read) ?_
    stopped).bind fun candidates => leads_pure fun after ⟨same, assembled⟩ => ?_
  · rintro _ _ ⟨_, rfl, rfl⟩
    exact .assembly collected finished
  · rw [same]
    have ran := @runWithEc2Client_of_stages accountId graph₀ environment.clock config.selectors collections
      ⟨⟨report, graph⟩, candidates, candidates.mapIdx fun index candidate =>
        evaluateCandidate (environment.clock index) candidate⟩ finished assembled rfl
    exact ⟨collections, _, collected, ran, rfl, rfl⟩

/-- An audit that would finish completes. -/
theorem completes_audit {collections : Sdk.Collections} {run : AuditRun}
    (collected : collect environment.schedule client = some (.ok collections))
    (ran : Audit.runWithEc2Client environment.clock config.selectors accountId collections graph₀ = .ok run) :
    Completes (audit environment config client accountId) graph₀ run.outcome run.ingested.graph := by
  obtain ⟨finished, assembled, evaluated⟩ := runWithEc2Client_ok ran
  have bounded : Completes (Graph.Session.upsertRegulatedBoundaries [boundaryRecord accountId]) graph₀ ()
      (withBoundary accountId graph₀) := by
    rw [upsertBoundary_eq]
    exact completes_request rfl
  rw [audit, AuditRun.outcome, evaluated]
  refine (bounded.on_whole _).bind ?_
  refine ((completes_runFullIngestWithClient collected finished).on_whole _).bind ?_
  refine ((Evaluate.Session.completes_assembleCandidates assembled).on_whole _).bind ?_
  exact completes_pure _ _

end Audit

/-! ## The run -/

section Run

variable {Schema : Type} (execute : String → Schema → Option Schema) (files : List (String × String))
  (account : Account) (environment : Environment) (config : ValidatedConfig isUppercase) (store : Store Schema)
  (landed crashed : Database Schema → Prop)

/-- STS names the account that is asked for in the configured region. -/
def Identified (accountId : String) : Prop := account.identity ⟨config.region⟩ = .ok (some accountId)

/-- What a finished run has done. -/
def Finishes (outcome : Outcome) (after : Store Schema) : Prop :=
  ∃ accountId, Identified account config accountId ∧ landed after.database ∧
    Audited environment config (account.client ⟨config.region⟩) accountId store.graph outcome after.graph

/-- How a run fails, and what it leaves. -/
inductive FailsRun : RunError → Store Schema → Prop
  | preflight {source : Preflight.PreflightError} (failed : Preflight.run environment.docker = some (.error source)) :
      FailsRun (.preflight source) store
  | identity {source : Aws.IngestError} (failed : resolveAccountId account.identity ⟨config.region⟩ = .error source) :
      FailsRun (.ingest (classify "GetCallerIdentity" environment.awsProfile source)) store
  | connect {source : ConnectError} (failed : connect environment config.neo4j = .error source) :
      FailsRun (.connect source) store
  | migrate {source : MigrationError} {database : Database Schema} (left : crashed database) :
      FailsRun (.migrate source) ⟨database, store.graph⟩
  | audit {error : RunError} {accountId : String} {database : Database Schema} {graph : Neo4jGraph}
      (identified : Identified account config accountId) (left : landed database)
      (fails : FailsAudit environment (account.client ⟨config.region⟩) accountId store.graph error graph) :
      FailsRun error ⟨database, graph⟩

/-- What a stopped run leaves. -/
inductive StopsRun : Store Schema → Prop
  | waiting : StopsRun store
  | migrating {database : Database Schema} (left : crashed database) : StopsRun ⟨database, store.graph⟩
  | auditing {accountId : String} {database : Database Schema} {graph : Neo4jGraph}
      (identified : Identified account config accountId) (left : landed database)
      (stops : StopsAudit environment (account.client ⟨config.region⟩) accountId store.graph graph) :
      StopsRun ⟨database, graph⟩

variable {landed crashed}
  (migrates : Leads (· = store.database) (Migrations.run execute files) (fun _ => landed) (fun _ => crashed) crashed)

include migrates

theorem leads_runWithEc2Client {accountId : String} (identified : Identified account config accountId) :
    Leads (· = store)
      (runWithEc2Client execute files environment config (account.client ⟨config.region⟩) accountId)
      (Finishes account environment config store landed)
      (FailsRun account environment config store landed crashed)
      (StopsRun account environment config store landed crashed) := by
  rw [runWithEc2Client]
  rcases connected : connect environment config.neo4j with source | _
  · refine leads_fail ?_
    rintro _ rfl
    exact .connect connected
  · have migrated : Leads (· = store) ((Migrations.run execute files).on Store.databasePart RunError.migrate)
        (fun _ after => ∃ database, after = ⟨database, store.graph⟩ ∧ landed database)
        (FailsRun account environment config store landed crashed)
        (StopsRun account environment config store landed crashed) := by
      refine (Leads.on migrates).imp (fun _ same => same) (fun _ _ left => left) ?_ ?_
      · rintro _ _ ⟨source, database, rfl, rfl, left⟩
        exact .migrate left
      · rintro _ ⟨database, rfl, left⟩
        exact .migrating left
    refine migrated.bind fun summary => leads_of_each fun middle ⟨database, same, left⟩ => ?_
    subst same
    have audits := leads_audit environment config (account.client ⟨config.region⟩) accountId store.graph
    have framed : Leads (· = (⟨database, store.graph⟩ : Store Schema)) ((audit environment config
        (account.client ⟨config.region⟩) accountId).on Store.graphPart id) _ _ _ := Leads.on audits
    refine framed.imp (fun _ same => same) ?_ ?_ ?_
    · rintro outcome _ ⟨graph, rfl, audited⟩
      exact ⟨accountId, identified, left, audited⟩
    · rintro _ _ ⟨error, graph, rfl, rfl, fails⟩
      exact .audit identified left fails
    · rintro _ ⟨graph, rfl, stops⟩
      exact .auditing identified left stops

theorem leads_run :
    Leads (· = store) (run execute files account environment config)
      (Finishes account environment config store landed)
      (FailsRun account environment config store landed crashed)
      (StopsRun account environment config store landed crashed) := by
  have region : buildSdkConfig environment.regions { region := some config.region, neo4jUri := none } =
      .ok ⟨config.region⟩ :=
    buildSdkConfig_of_region rfl config.region_given _
  rw [run]
  rcases preflight : Preflight.run environment.docker with _ | source | _
  · refine leads_stop ?_
    rintro _ rfl
    exact .waiting
  · refine leads_fail ?_
    rintro _ rfl
    exact .preflight preflight
  · dsimp only
    rw [region]
    dsimp only
    rcases identified : resolveAccountId account.identity ⟨config.region⟩ with source | accountId
    · refine leads_fail ?_
      rintro _ rfl
      exact .identity identified
    · exact leads_runWithEc2Client execute files account environment config store migrates
        (resolveAccountId_eq_ok_iff.mp identified)

end Run

section Kept

variable {Schema : Type} {execute : String → Schema → Option Schema} {files : List (String × String)}
  {account : Account} {environment : Environment}

/-- A finished audit leaves what a stopped one may leave. -/
theorem Audited.stopsAudit {config : ValidatedConfig isUppercase} {client : Ec2Client} {accountId : String}
    {graph₀ graph : Neo4jGraph} {outcome : Outcome}
    (audited : Audited environment config client accountId graph₀ outcome graph) :
    StopsAudit environment client accountId graph₀ graph := by
  obtain ⟨collections, run, collected, ran, _, rfl⟩ := audited
  exact Or.inr (writtenUpTo_of_finished collected (runWithEc2Client_ok ran).1)

/-- What an audit keeps of the graph wherever it ends, a run keeps. -/
theorem ensures_run_graph {inv : Neo4jGraph → Prop} (config : ValidatedConfig isUppercase)
    (kept : ∀ accountId graph left, Identified account config accountId → inv graph →
      StopsAudit environment (account.client ⟨config.region⟩) accountId graph left → inv left) :
    Ensures (fun store : Store Schema => inv store.graph) (run execute files account environment config)
      (fun _ store => inv store.graph) fun store => inv store.graph := by
  constructor
  rintro ⟨store, replies⟩ holds
  have leads := leads_run execute files account environment config store leads_trivial
  refine (leads.always ?_ ?_ ?_).ends ⟨store, replies⟩ rfl
  · rintro outcome after ⟨accountId, identified, _, audited⟩
    exact kept accountId _ _ identified holds audited.stopsAudit
  · intro error after fails
    cases fails with
    | preflight _ => exact holds
    | identity _ => exact holds
    | connect _ => exact holds
    | migrate _ => exact holds
    | audit identified _ fails => exact kept _ _ _ identified holds fails.stopsAudit
  · intro after stops
    cases stops with
    | waiting => exact holds
    | migrating _ => exact holds
    | auditing identified _ stops => exact kept _ _ _ identified holds stops

/-- What every run keeps, every command keeps. -/
theorem ensures_dispatch {inv : Store Schema → Prop}
    (kept : ∀ config : ValidatedConfig isUppercase,
      Ensures inv (run execute files account environment config) (fun _ => inv) inv) (command : Command) :
    Ensures inv (dispatch execute files isUppercase account environment command) (fun _ => inv) inv := by
  cases command with
  | run config =>
    rcases config with source | config
    · exact ensures_fail fun _ holds => holds
    · rw [dispatch]
      rcases config.validate isUppercase with source | validated
      · exact ensures_fail fun _ holds => holds
      · exact (kept validated).on_whole _
  | preflight =>
    rw [dispatch]
    rcases Preflight.run environment.docker with _ | source | _
    · exact ensures_stop fun _ holds => holds
    · exact ensures_fail fun _ holds => holds
    · exact ensures_pure fun _ holds => holds

end Kept

/-- Nothing outside of the database stands in the way of a run. -/
structure Undisturbed (account : Account) (environment : Environment) (config : ValidatedConfig isUppercase)
    (accountId : String) (collections : Sdk.Collections) : Prop where
  docker : Preflight.run environment.docker = some (.ok ())
  identified : Identified account config accountId
  connected : connect environment config.neo4j = .ok ()
  collected : collect environment.schedule (account.client ⟨config.region⟩) = some (.ok collections)

theorem completes_run {Schema : Type} {execute : String → Schema → Option Schema} {files : List (String × String)}
    {account : Account} {environment : Environment} {config : ValidatedConfig isUppercase} {accountId : String}
    {collections : Sdk.Collections} {store : Store Schema} {summary : MigrationSummary} {database : Database Schema}
    {run : AuditRun} (undisturbed : Undisturbed account environment config accountId collections)
    (migrated : Completes (Migrations.run execute files) store.database summary database)
    (ran : Audit.runWithEc2Client environment.clock config.selectors accountId collections store.graph = .ok run) :
    Completes (Session.run execute files account environment config) store run.outcome
      ⟨database, run.ingested.graph⟩ := by
  have region : buildSdkConfig environment.regions { region := some config.region, neo4jUri := none } =
      .ok ⟨config.region⟩ :=
    buildSdkConfig_of_region rfl config.region_given _
  have audits := completes_audit environment config (account.client ⟨config.region⟩) accountId store.graph
    undisturbed.collected ran
  rw [Session.run, undisturbed.docker]
  dsimp only
  rw [region]
  dsimp only
  rw [resolveAccountId_eq_ok_iff.mpr undisturbed.identified]
  dsimp only
  rw [runWithEc2Client, undisturbed.connected]
  have migrates : Completes ((Migrations.run execute files).on Store.databasePart RunError.migrate) store summary
      ⟨database, store.graph⟩ := Completes.on migrated
  refine migrates.bind ?_
  exact @Completes.on _ _ _ _ _ _ _ Store.graphPart id _ (⟨database, store.graph⟩ : Store Schema) audits

/-! ## A machine on which nothing fails -/

/-- A configuration that selects one VPC. -/
def selecting (vpcId : String) : Config where
  region := "eu-west-1"
  profile := "default"
  boundary := ⟨[vpcId], [], []⟩
  outputPath := "./audit-report.json"
  neo4j := ⟨"bolt://127.0.0.1:7687", "neo4j"⟩

theorem regional_selecting (vpcId : String) : regionValid Char.isUpper (selecting vpcId).region = true := by
  change regionValid Char.isUpper "eu-west-1" = true
  decide

def validatedSelecting (vpcId : String) : ValidatedConfig Char.isUpper where
  region := (selecting vpcId).region
  profile := (selecting vpcId).profile
  boundary := (selecting vpcId).boundary
  outputPath := (selecting vpcId).outputPath
  neo4j := (selecting vpcId).neo4j
  selects := rfl
  regional := regional_selecting vpcId

/-- The database is up and answers; pages arrive in the order of the schedule. -/
def readyWith (schedule : List Collector) : Environment where
  docker := ⟨.ok ⟨true, "", ""⟩, [⟨.ok ⟨true, "neo4j|healthy|running\n", ""⟩, 0⟩]⟩
  regions := ⟨some "us-east-1", none, none⟩
  awsProfile := none
  schedule
  neo4jPassword := some "password"
  connection _ _ := .ok ()
  clock _ := ""

def oneMigration : List (String × String) := [("0001_constraints.cypher", "CREATE a;")]

/-- The schema is the list of what was executed. -/
def executed (statement : String) (schema : List String) : Option (List String) := some (schema ++ [statement])

end NetHound.Audit.Session
