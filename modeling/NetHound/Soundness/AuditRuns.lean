import NetHound.Audit.Stages
import NetHound.Soundness.MigrationHistory

/-! # Audits through failures

Every run of the program, whatever it fails in and wherever it is stopped, keeps the order of the stages:
nothing is written to the graph before all migrations are recorded, and no resource before its whole
account has been collected and mapped.
-/

namespace NetHound.Soundness

open Audit Audit.Session Graph Cypher Ingest Ingest.Aws Migrations Interruptible Interruptible.Program

section Migrated

variable {Schema : Type} {execute : String → Schema → Option Schema} {files : List (String × String)}
  {initial : Schema} {migrations : List Migration}

/-- Every migration has landed and is recorded. -/
def AllRecorded (execute : String → Schema → Option Schema) (initial : Schema) (migrations : List Migration)
    (database : Database Schema) : Prop :=
  ∃ landed, Progress execute initial migrations migrations landed database

/-- Once everything is recorded, no run of the migrations undoes that, interrupted or not. -/
theorem ensures_run_recorded (ordered : orderedMigrations files = .ok migrations) :
    Ensures (AllRecorded execute initial migrations) (Migrations.run execute files)
      (fun _ => AllRecorded execute initial migrations) (AllRecorded execute initial migrations) := by
  have bootstrap : Ensures (AllRecorded execute initial migrations) (bootstrapSchemaMigrationConstraint execute)
      (fun _ => AllRecorded execute initial migrations) (AllRecorded execute initial migrations) := by
    constructor
    rintro ⟨database, replies⟩ ⟨landed, progress⟩
    refine ((ensures_bootstrap database).imp (fun _ same => same) ?_ ?_).ends ⟨database, replies⟩ rfl
    · rintro _ _ ⟨schema, executed, rfl⟩
      exact ⟨landed, progress.bootstrap executed⟩
    · rintro _ (rfl | ⟨schema, executed, rfl⟩)
      · exact ⟨landed, progress⟩
      · exact ⟨landed, progress.bootstrap executed⟩
  have read := @ensures_found Schema migrations (AllRecorded execute initial migrations)
    (orderedMigrations_ok ordered).2 fun _ ⟨_, progress⟩ => progress.versions
  refine Ensures.bind bootstrap fun _ => ?_
  refine Ensures.bind read fun alreadyApplied => Ensures.given (fun _ holds => holds.1) fun found => ?_
  rw [ordered]
  have skip := @applyPending_append Schema execute alreadyApplied migrations
    (fun migration member => (found _).mpr (List.mem_map_of_mem member)) [] ⟨[], []⟩
  rw [List.append_nil] at skip
  dsimp only
  rw [skip]
  exact ensures_pure fun _ holds => holds.2

/-- The graph is empty and the migrations are underway, or all of them are recorded. -/
def MigratedFirst (execute : String → Schema → Option Schema) (initial : Schema) (migrations : List Migration)
    (store : Store Schema) : Prop :=
  store.graph = PropertyGraph.empty ∧ Underway execute initial migrations store.database ∨
    AllRecorded execute initial migrations store.database

private theorem exists_recordedUpTo {database : Database Schema}
    (underway : Underway execute initial migrations database) :
    ∃ recorded rest, migrations = recorded ++ rest ∧ RecordedUpTo execute initial migrations recorded database := by
  rcases underway with empty | ⟨recorded, landed, progress⟩
  · exact ⟨[], migrations, rfl, Or.inl ⟨empty, rfl⟩⟩
  · have ordered : recorded <+: migrations := by
      rcases progress.step with rfl | ⟨_, rfl⟩
      · exact progress.ordered
      · exact (List.prefix_append _ _).trans progress.ordered
    obtain ⟨rest, same⟩ := ordered
    exact ⟨recorded, rest, same.symm, Or.inr ⟨landed, progress⟩⟩

private theorem ensures_run_underway (ordered : orderedMigrations files = .ok migrations)
    (distinct : (migrations.map Migration.version).Nodup) :
    Ensures (Underway execute initial migrations) (Migrations.run execute files)
      (fun _ => AllRecorded execute initial migrations) (Underway execute initial migrations) := by
  constructor
  intro session underway
  obtain ⟨recorded, rest, all, holds⟩ := exists_recordedUpTo underway
  exact ((ensures_run ordered distinct all).imp (fun _ holds => holds) (fun _ _ ends => ends.2)
    fun _ interrupted => interrupted).ends session holds

variable {isUppercase : Char → Bool} {account : Account} {environment : Environment}

private theorem ensures_run_migratedFirst (ordered : orderedMigrations files = .ok migrations)
    (distinct : (migrations.map Migration.version).Nodup) (config : ValidatedConfig isUppercase) :
    Ensures (MigratedFirst execute initial migrations) (Session.run execute files account environment config)
      (fun _ => MigratedFirst execute initial migrations) (MigratedFirst execute initial migrations) := by
  constructor
  rintro ⟨store, replies⟩ holds
  -- what the migrations leave while the graph is untouched
  obtain ⟨crashed, migrates, interrupted⟩ : ∃ crashed : Database Schema → Prop,
      Leads (· = store.database) (Migrations.run execute files) (fun _ => AllRecorded execute initial migrations)
        (fun _ => crashed) crashed ∧
      ∀ database, crashed database → MigratedFirst execute initial migrations ⟨database, store.graph⟩ := by
    rcases holds with ⟨empty, underway⟩ | recorded
    · refine ⟨_, (ensures_run_underway ordered distinct).leads.imp ?_ (fun _ _ ends => ends) (fun _ _ left => left)
        fun _ left => left, fun database left => Or.inl ⟨empty, left⟩⟩
      rintro _ rfl
      exact underway
    · refine ⟨_, (ensures_run_recorded ordered).leads.imp ?_ (fun _ _ ends => ends) (fun _ _ left => left)
        fun _ left => left, fun database left => Or.inr left⟩
      rintro _ rfl
      exact recorded
  have leads := leads_run execute files account environment config store migrates
  refine (leads.always ?_ ?_ ?_).ends ⟨store, replies⟩ rfl
  · rintro outcome after ⟨_, _, recorded, _⟩
    exact Or.inr recorded
  · intro error after fails
    cases fails with
    | preflight _ => exact holds
    | identity _ => exact holds
    | connect _ => exact holds
    | migrate left => exact interrupted _ left
    | audit _ recorded _ => exact Or.inr recorded
  · intro after stops
    cases stops with
    | waiting => exact holds
    | migrating left => exact interrupted _ left
    | auditing _ recorded _ => exact Or.inr recorded

/-- A process of the program on some command, whatever its environment. -/
def AnyProcess (execute : String → Schema → Option Schema) (files : List (String × String))
    (isUppercase : Char → Bool) (process : Program (Store Schema) DispatchError Audit.Outcome) : Prop :=
  ∃ account environment command, process = dispatch execute files isUppercase account environment command

/-- Over any history of processes on an empty database, on any accounts and configurations and each of which
may fail or stop anywhere, there is nothing in the graph unless every migration has committed its statements
and is recorded; where the statements are idempotent, the schema is then that of one uninterrupted run. -/
theorem migrations_precede_audit (ordered : orderedMigrations files = .ok migrations)
    (distinct : (migrations.map Migration.version).Nodup) {store : Store Schema}
    (reaches : Reaches (AnyProcess execute files isUppercase) ⟨.empty initial, PropertyGraph.empty⟩ store)
    (written : store.graph ≠ PropertyGraph.empty) :
    store.database.versions = migrations.map (fun migration => (migration.version : ℤ)) ∧
      (∀ migration ∈ migrations, migration.statements ∈ store.database.committed) ∧
      (Idempotent execute (allStatements migrations) →
        cleanSchema execute initial migrations = some store.database.schema) := by
  have first : MigratedFirst execute initial migrations store := by
    refine reaches.invariant (Or.inl ⟨rfl, Or.inl rfl⟩) ?_
    rintro _ ⟨account, environment, command, rfl⟩
    exact ensures_dispatch (ensures_run_migratedFirst ordered distinct) command
  obtain ⟨empty, _⟩ | ⟨landed, progress⟩ := first
  · exact absurd empty written
  · have landedAll : landed = migrations := by
      rcases progress.step with same | ⟨_, longer⟩
      · exact same
      · have bound := progress.ordered.length_le
        rw [longer, List.length_append, List.length_singleton] at bound
        omega
    rw [landedAll] at progress
    exact ⟨progress.versions, fun migration member => progress.mem_committed member, progress.schema⟩

/-- In every database that such a history leads to, a run goes through its stages in order. What fails before
the migrations changes nothing, and a failed migration leaves the graph alone. Everything else comes after
all migrations are recorded: a failure while the account is collected or mapped leaves the boundary and no
resource, one of a write the first steps of the batch of the whole account, one of the assembly all of them;
and a run that returns has done what an audit without interruptions does. -/
theorem audit_keeps_stages (ordered : orderedMigrations files = .ok migrations)
    (distinct : (migrations.map Migration.version).Nodup) {store : Store Schema}
    (reaches : Reaches (AnyProcess execute files isUppercase) ⟨.empty initial, PropertyGraph.empty⟩ store)
    (account : Account) (environment : Environment) (config : ValidatedConfig isUppercase) :
    Leads (· = store) (Session.run execute files account environment config)
      (Finishes account environment config store (AllRecorded execute initial migrations))
      (FailsRun account environment config store (AllRecorded execute initial migrations)
        (Underway execute initial migrations))
      (StopsRun account environment config store (AllRecorded execute initial migrations)
        (Underway execute initial migrations)) := by
  have first : MigratedFirst execute initial migrations store := by
    refine reaches.invariant (Or.inl ⟨rfl, Or.inl rfl⟩) ?_
    rintro _ ⟨account, environment, command, rfl⟩
    exact ensures_dispatch (ensures_run_migratedFirst ordered distinct) command
  have underway : Underway execute initial migrations store.database := by
    rcases first with ⟨_, underway⟩ | ⟨landed, progress⟩
    · exact underway
    · exact Or.inr ⟨migrations, landed, progress⟩
  apply leads_run
  refine (ensures_run_underway ordered distinct).leads.imp ?_ (fun _ _ ends => ends) (fun _ _ left => left)
    fun _ left => left
  rintro _ rfl
  exact underway

end Migrated

/-! ## A denied audit after a finished one -/

private def emptyAccount : Account where
  identity _ := .ok (some "111122223333")
  client _ := ⟨fun _ => []⟩

/-- The route tables may not be described. -/
private def deniedAccount : Account where
  identity _ := .ok (some "111122223333")
  client _ := ⟨fun collector =>
    if collector = .routeTables then [.error ⟨some "UnauthorizedOperation", []⟩] else []⟩

private def auditedOnce : Store (List String) :=
  (dispatch executed oneMigration Char.isUpper emptyAccount (readyWith []) (.run (.ok (selecting "vpc-1")))
    ⟨⟨.empty [], PropertyGraph.empty⟩, List.replicate 30 .done⟩).2.store

private theorem reaches_auditedOnce :
    Reaches (AnyProcess executed oneMigration Char.isUpper) ⟨.empty [], PropertyGraph.empty⟩ auditedOnce :=
  .run ⟨_, _, _, rfl⟩ _ .start

private def auditMigrations : List Migration := [⟨1, "0001_constraints.cypher", "CREATE a;"⟩]

private theorem ordered_oneMigration : orderedMigrations oneMigration = .ok auditMigrations := rfl

theorem migrations_precede_audit_once :
    auditedOnce.graph.nodes.length = 1 ∧ auditedOnce.database.versions = [1] := by
  have written : auditedOnce.graph.nodes.length = 1 := by decide +kernel
  refine ⟨written, (migrations_precede_audit ordered_oneMigration (by decide) reaches_auditedOnce ?_).1⟩
  intro empty
  rw [empty] at written
  cases written

private def deniedRun (store : Store (List String)) :
    Interruptible.Outcome Session.RunError Audit.Outcome × Interruptible.Session (Store (List String)) :=
  Session.run executed oneMigration deniedAccount (readyWith [.routeTables]) (validatedSelecting "vpc-1")
    ⟨store, List.replicate 30 .done⟩

theorem audit_keeps_stages_denied :
    ∃ error session, deniedRun auditedOnce = (.error (.ingest error), session) ∧
      error.message id = "access denied calling DescribeRouteTables — the caller's IAM identity needs the " ++
        "ec2:DescribeRouteTables permission" ∧
      FailsRun deniedAccount (readyWith [.routeTables]) (validatedSelecting "vpc-1") auditedOnce
        (AllRecorded executed [] auditMigrations) (Underway executed [] auditMigrations) (.ingest error)
        session.store := by
  have failed : (deniedRun auditedOnce).1 = .error (.ingest (.accessDenied "DescribeRouteTables"
      "ec2:DescribeRouteTables"
      (.describe "DescribeRouteTables" [.sdk (.describe .routeTables) (some "UnauthorizedOperation")]))) := by
    decide +kernel
  have reaches := reaches_auditedOnce
  -- from here on the store is any that a history leads to
  generalize auditedOnce = store at failed reaches ⊢
  have ends := (audit_keeps_stages ordered_oneMigration (by decide) reaches deniedAccount
    (readyWith [.routeTables]) (validatedSelecting "vpc-1")).ends ⟨store, List.replicate 30 .done⟩ rfl
  rcases ran : deniedRun store with ⟨outcome, session⟩
  rw [ran] at failed
  obtain rfl : outcome = _ := failed
  have ran' := ran
  rw [deniedRun] at ran'
  rw [ran'] at ends
  exact ⟨_, session, rfl, by decide +kernel, ends⟩

end NetHound.Soundness
