import NetHound.Audit.AwsError
import NetHound.Audit.Config
import NetHound.Audit.Preflight
import NetHound.Audit.Run
import NetHound.Evaluate.Session
import NetHound.Migrations.Runner

/-! # The audit over a connection

`audit-local`'s `run.rs`, `lib.rs` and `main.rs`. One database holds what the migrations have done and the
graph of the account; the stages work on their part of it, in order, and each call may fail or be the last
of the process. What the machine and AWS answer is the environment of a run.
-/

namespace NetHound.Audit.Session

open Domain Graph Cypher Evaluate Ingest Ingest.Aws Migrations Interruptible Interruptible.Program

/-- What a Neo4j database holds: the constraints and records of the migrations, and the audit's graph. -/
structure Store (Schema : Type) where
  database : Database Schema
  graph : Neo4jGraph

def Store.databasePart {Schema : Type} : Part (Store Schema) (Database Schema) where
  get := Store.database
  set database store := { store with database }
  get_set _ _ := rfl
  set_set _ _ _ := rfl
  set_get _ := rfl

def Store.graphPart {Schema : Type} : Part (Store Schema) Neo4jGraph where
  get := Store.graph
  set graph store := { store with graph }
  get_set _ _ := rfl
  set_set _ _ _ := rfl
  set_get _ := rfl

inductive ConnectError where
  | passwordNotSet
  | connectionConfig
  | connection
deriving DecidableEq, Repr

/-- The stage a run failed in, and why. -/
inductive RunError where
  | preflight (source : Preflight.PreflightError)
  | connect (source : ConnectError)
  | migrate (source : MigrationError)
  | boundary (source : Graph.Session.WriteError)
  | ingest (source : AwsFailure)
  | assembly (source : Evaluate.Session.CandidateAssemblyError)
deriving DecidableEq, Repr

/-- What AWS answers to a client that is configured so. -/
structure Account where
  identity : SdkConfig → Except SdkError (Option String)
  client : SdkConfig → Ec2Client

/-- The rest of what a run depends on. -/
structure Environment where
  docker : Preflight.Docker
  regions : RegionSources
  awsProfile : Option String
  schedule : List Collector
  neo4jPassword : Option String
  connection : Neo4jConfig → String → Except ConnectError Unit
  clock : ℕ → String

def connect (environment : Environment) (neo4j : Neo4jConfig) : Except ConnectError Unit :=
  match environment.neo4jPassword with
  | none => .error .passwordNotSet
  | some password => environment.connection neo4j password

/-- The operation an ingestion failed in. -/
def failedOperation : Aws.IngestError → String
  | .describe operation _ => operation
  | _ => "ingest"

def classifyIngest (environment : Environment) (source : Aws.IngestError) : AwsFailure :=
  classify (failedOperation source) environment.awsProfile source

section Run

variable {Schema : Type} (execute : String → Schema → Option Schema) (files : List (String × String))
  {isUppercase : Char → Bool}

abbrev Client (Schema α : Type) : Type := Program (Store Schema) RunError α

/-- Everything from the boundary on. -/
def audit (environment : Environment) (config : ValidatedConfig isUppercase) (client : Ec2Client)
    (accountId : String) : Program Neo4jGraph RunError Outcome := do
  let boundary := boundaryRecord accountId
  (Graph.Session.upsertRegulatedBoundaries [boundary]).on .whole RunError.boundary
  let _ ← (runFullIngestWithClient environment.schedule client accountId).on .whole fun source =>
    RunError.ingest (classifyIngest environment source)
  let candidates ← (Evaluate.Session.assembleCandidates boundary.id config.selectors).on .whole RunError.assembly
  let findings := candidates.mapIdx fun index candidate => evaluateCandidate (environment.clock index) candidate
  pure (findingsToOutcome findings)

def runWithEc2Client (environment : Environment) (config : ValidatedConfig isUppercase) (client : Ec2Client)
    (accountId : String) : Client Schema Outcome :=
  match connect environment config.neo4j with
  | .error source => fail (.connect source)
  | .ok () => do
      let _ ← (Migrations.run execute files).on Store.databasePart RunError.migrate
      (audit environment config client accountId).on Store.graphPart id

def run (account : Account) (environment : Environment) (config : ValidatedConfig isUppercase) :
    Client Schema Outcome :=
  match Preflight.run environment.docker with
  | none => stop
  | some (.error source) => fail (.preflight source)
  | some (.ok ()) =>
      match buildSdkConfig environment.regions { region := some config.region, neo4jUri := none } with
      | .error source => fail (.ingest (classify "BuildSdkConfig" environment.awsProfile source))
      | .ok sdkConfig =>
          match resolveAccountId account.identity sdkConfig with
          | .error source => fail (.ingest (classify "GetCallerIdentity" environment.awsProfile source))
          | .ok accountId =>
              runWithEc2Client execute files environment config (account.client sdkConfig) accountId

end Run

/-! ## The process -/

/-- `from_path` gives what it reads or why it cannot be read. -/
inductive Command where
  | run (config : Except String Config)
  | preflight
deriving DecidableEq, Repr

/-- What `dispatch` fails with. -/
inductive DispatchError where
  | unreadable (source : String)
  | invalid (source : ConfigError)
  | preflight (source : Preflight.PreflightError)
  | run (source : RunError)
deriving DecidableEq, Repr

section Process

variable {Schema : Type} (execute : String → Schema → Option Schema) (files : List (String × String))
  (isUppercase : Char → Bool)

def dispatch (account : Account) (environment : Environment) :
    Command → Program (Store Schema) DispatchError Outcome
  | .run (.error source) => fail (.unreadable source)
  | .run (.ok config) =>
      match config.validate isUppercase with
      | .error source => fail (.invalid source)
      | .ok validated => (run execute files account environment validated).on .whole DispatchError.run
  | .preflight =>
      match Preflight.run environment.docker with
      | none => stop
      | some (.error source) => fail (.preflight source)
      | some (.ok ()) => pure .clean

/-- The code for what `dispatch` comes to; a process that was stopped has none. -/
def exitCode {ε : Type} : Interruptible.Outcome ε Outcome → Option ℤ
  | .ok outcome => some outcome.exitCode
  | .error _ => some 1
  | .stopped => none

/-- The exit code, and what the process leaves. `Cli::parse` gives a command, or exits with a code of its
own. -/
def main (account : Account) (environment : Environment) (cli : Except ℤ Command)
    (session : Interruptible.Session (Store Schema)) : Option ℤ × Interruptible.Session (Store Schema) :=
  match cli with
  | .error code => (some code, session)
  | .ok command =>
      let ended := dispatch execute files isUppercase account environment command session
      (exitCode ended.1, ended.2)

end Process

section Process

variable {Schema : Type} {execute : String → Schema → Option Schema} {files : List (String × String)}
  {isUppercase : Char → Bool} {account : Account} {environment : Environment}
  {session : Interruptible.Session (Store Schema)}

/-- A valid configuration is run. -/
theorem dispatch_run {config : Config} {validated : ValidatedConfig isUppercase}
    (valid : config.validate isUppercase = .ok validated) :
    dispatch execute files isUppercase account environment (.run (.ok config)) session =
      ((run execute files account environment validated session).1.mapError .run,
        (run execute files account environment validated session).2) := by
  rw [dispatch, valid]
  exact on_whole_apply _ _ _

/-- What is returned comes from a preflight, or from the run of a valid configuration. -/
theorem dispatch_ok {command : Command} {outcome : Outcome} {after : Interruptible.Session (Store Schema)}
    (returned : dispatch execute files isUppercase account environment command session = (.ok outcome, after)) :
    outcome = .clean ∨ ∃ validated : ValidatedConfig isUppercase,
      run execute files account environment validated session = (.ok outcome, after) := by
  cases command with
  | preflight =>
    rw [dispatch] at returned
    rcases checked : Preflight.run environment.docker with _ | source | _ <;> rw [checked] at returned <;>
      cases returned
    exact Or.inl rfl
  | run config =>
    rcases config with source | config
    · cases returned
    · rcases valid : config.validate isUppercase with source | validated
      · rw [dispatch, valid] at returned
        cases returned
      · rw [dispatch_run valid] at returned
        rcases ran : run execute files account environment validated session with ⟨_ | _ | _, _⟩ <;>
          rw [ran] at returned <;> cases returned
        exact Or.inr ⟨validated, ran⟩

end Process

end NetHound.Audit.Session
