import NetHound.Migrations.Progress

/-! # Migrations through crashes

Every call of the runner keeps `Underway`, wherever the process is interrupted. So in any history of runs
only versions whose statements have committed are recorded, in ascending order, and a run that returns has
landed and recorded everything there was to apply.
-/

namespace NetHound.Soundness

open Migrations Interruptible Interruptible.Program

section Runs

variable {Schema : Type} {execute : String → Schema → Option Schema} {initial : Schema}
  {migrations recorded landed : List Migration} {database : Database Schema}

/-- Underway with these versions recorded. -/
def RecordedUpTo (execute : String → Schema → Option Schema) (initial : Schema)
    (migrations recorded : List Migration) (database : Database Schema) : Prop :=
  database = .empty initial ∧ recorded = [] ∨
    ∃ landed, Progress execute initial migrations recorded landed database

private theorem underway_of_recordedUpTo (holds : RecordedUpTo execute initial migrations recorded database) :
    Underway execute initial migrations database := by
  rcases holds with ⟨empty, _⟩ | ⟨landed, progress⟩
  · exact Or.inl empty
  · exact Or.inr ⟨recorded, landed, progress⟩

private theorem versions_of_recordedUpTo (holds : RecordedUpTo execute initial migrations recorded database) :
    database.versions = recorded.map fun migration => (migration.version : ℤ) := by
  rcases holds with ⟨rfl, rfl⟩ | ⟨_, progress⟩
  · rfl
  · exact progress.versions

private theorem ensures_bootstrap_recordedUpTo :
    Ensures (RecordedUpTo execute initial migrations recorded) (bootstrapSchemaMigrationConstraint execute)
      (fun _ database => ∃ landed, Progress execute initial migrations recorded landed database)
      (Underway execute initial migrations) := by
  constructor
  intro session holds
  refine ((ensures_bootstrap session.store).imp (fun _ same => same) ?_ ?_).ends session rfl
  · rintro _ _ ⟨schema, executed, rfl⟩
    rcases holds with ⟨empty, rfl⟩ | ⟨landed, progress⟩
    · rw [empty] at executed ⊢
      exact ⟨[], progress_bootstrap_empty executed⟩
    · exact ⟨landed, progress.bootstrap executed⟩
  · rintro _ (rfl | ⟨schema, executed, rfl⟩)
    · exact underway_of_recordedUpTo holds
    · rcases holds with ⟨empty, rfl⟩ | ⟨landed, progress⟩
      · rw [empty] at executed ⊢
        exact Or.inr ⟨[], [], progress_bootstrap_empty executed⟩
      · exact Or.inr ⟨recorded, landed, progress.bootstrap executed⟩

/-- Versions found recorded are skipped. -/
theorem applyPending_append {alreadyApplied : List ℕ} {skipped : List Migration}
    (found : ∀ migration ∈ skipped, migration.version ∈ alreadyApplied) (rest : List Migration)
    (summary : MigrationSummary) :
    applyPending execute alreadyApplied (skipped ++ rest) summary =
      applyPending execute alreadyApplied rest
        { summary with skipped := summary.skipped ++ skipped.map Migration.version } := by
  induction skipped generalizing summary with
  | nil => simp
  | cons migration skipped ih =>
    obtain ⟨first, found⟩ := List.forall_mem_cons.mp found
    rw [List.cons_append, applyPending, if_pos first, ih found]
    simp

/-- The versions that are not recorded are applied one after the other. -/
private theorem ensures_applyPending {alreadyApplied : List ℕ} {rest : List Migration}
    (distinct : (migrations.map Migration.version).Nodup) (all : migrations = recorded ++ rest)
    (pending : ∀ migration ∈ rest, migration.version ∉ alreadyApplied) (summary : MigrationSummary) :
    Ensures (fun database => ∃ landed, Progress execute initial migrations recorded landed database)
      (applyPending execute alreadyApplied rest summary)
      (fun summary' database =>
        summary' = { summary with applied := summary.applied ++ rest.map Migration.version } ∧
          ∃ landed, Progress execute initial migrations migrations landed database)
      (Underway execute initial migrations) := by
  induction rest generalizing recorded summary with
  | nil =>
    rw [List.append_nil] at all
    rw [← all]
    exact ensures_pure fun _ holds => ⟨by simp, holds⟩
  | cons migration rest ih =>
    obtain ⟨first, pending⟩ := List.forall_mem_cons.mp pending
    have fresh : migration.version ∉ recorded.map Migration.version := by
      rw [all, List.map_append, List.map_cons] at distinct
      exact fun member => (List.nodup_append.mp distinct).2.2 _ member _ List.mem_cons_self rfl
    have all' : migrations = (recorded ++ [migration]) ++ rest := by rw [all, List.append_assoc]; rfl
    rw [applyPending, if_neg first]
    refine Ensures.bind (Progress.ensures_applyVersion all fresh) fun _ => ?_
    refine (ih all' pending _).imp (fun _ holds => holds) ?_ fun _ holds => holds
    rintro summary' database ⟨same, holds⟩
    refine ⟨?_, holds⟩
    rw [same, List.map_cons, List.append_assoc]
    rfl

variable {files : List (String × String)}

/-- A read finds the recorded versions and changes nothing. -/
theorem ensures_found {pre : Database Schema → Prop}
    (small : ∀ migration ∈ recorded, migration.version < UInt32.size)
    (versions : ∀ database, pre database →
      database.versions = recorded.map fun migration => (migration.version : ℤ)) :
    Ensures pre readAppliedVersions
      (fun found database =>
        (∀ version, version ∈ found ↔ version ∈ recorded.map Migration.version) ∧ pre database) pre := by
  constructor
  intro session holds
  refine ((ensures_readAppliedVersions session.store).imp (fun _ same => same) ?_ ?_).ends session rfl
  · rintro _ _ ⟨rfl, rfl⟩
    refine ⟨fun version => ?_, holds⟩
    have read : recorded.map (asU32 ∘ fun migration => (migration.version : ℤ)) =
        recorded.map Migration.version :=
      List.map_congr_left fun migration member => asU32_natCast (small migration member)
    rw [versions _ holds, List.map_map, read]
  · rintro _ rfl
    exact holds

/-- A run skips what is recorded and applies the rest, or is interrupted underway. -/
theorem ensures_run {rest : List Migration} (ordered : orderedMigrations files = .ok migrations)
    (distinct : (migrations.map Migration.version).Nodup) (all : migrations = recorded ++ rest) :
    Ensures (RecordedUpTo execute initial migrations recorded) (run execute files)
      (fun summary database =>
        summary = ⟨rest.map Migration.version, recorded.map Migration.version⟩ ∧
          ∃ landed, Progress execute initial migrations migrations landed database)
      (Underway execute initial migrations) := by
  have small : ∀ migration ∈ recorded, migration.version < UInt32.size := fun migration member =>
    (orderedMigrations_ok ordered).2 migration (by rw [all]; exact List.mem_append_left _ member)
  refine Ensures.bind ensures_bootstrap_recordedUpTo fun _ => ?_
  have underway : ∀ database, (∃ landed, Progress execute initial migrations recorded landed database) →
      Underway execute initial migrations database :=
    fun _ ⟨landed, progress⟩ => Or.inr ⟨recorded, landed, progress⟩
  have read := (@ensures_found Schema recorded
    (fun database => ∃ landed, Progress execute initial migrations recorded landed database) small
    fun _ ⟨_, progress⟩ => progress.versions).mono_crash underway
  refine Ensures.bind read fun alreadyApplied => Ensures.given (fun _ holds => holds.1) fun found => ?_
  rw [ordered]
  have pending : ∀ migration ∈ rest, migration.version ∉ alreadyApplied := by
    intro migration member again
    rw [all, List.map_append] at distinct
    exact (List.nodup_append.mp distinct).2.2 _ ((found _).mp again) _ (List.mem_map_of_mem member) rfl
  have skip := @applyPending_append Schema execute alreadyApplied recorded
    (fun migration member => (found _).mpr (List.mem_map_of_mem member)) rest ⟨[], []⟩
  rw [← all] at skip
  dsimp only
  rw [skip]
  refine (ensures_applyPending distinct all pending _).imp (fun _ holds => holds.2) ?_ fun _ holds => holds
  rintro summary database ⟨same, holds⟩
  exact ⟨same, holds⟩

/-- The database holds these records and committed transactions. -/
private def Holds (database₀ database : Database Schema) : Prop :=
  database.versions = database₀.versions ∧ database.committed = database₀.committed

/-- Where everything is recorded, a run applies nothing, interrupted or not. -/
private theorem ensures_run_settled {database₀ : Database Schema}
    (ordered : orderedMigrations files = .ok migrations)
    (versions : database₀.versions = migrations.map fun migration => (migration.version : ℤ)) :
    Ensures (Holds database₀) (run execute files)
      (fun summary database => summary = ⟨[], migrations.map Migration.version⟩ ∧ Holds database₀ database)
      (Holds database₀) := by
  have bootstrap : Ensures (Holds database₀) (bootstrapSchemaMigrationConstraint execute)
      (fun _ => Holds database₀) (Holds database₀) := by
    constructor
    intro session holds
    refine ((ensures_bootstrap session.store).imp (fun _ same => same) ?_ ?_).ends session rfl
    · rintro _ _ ⟨schema, _, rfl⟩
      exact holds
    · rintro _ (rfl | ⟨schema, _, rfl⟩)
      · exact holds
      · exact holds
  have read := @ensures_found Schema migrations (Holds database₀) (orderedMigrations_ok ordered).2
    fun _ holds => holds.1.trans versions
  refine Ensures.bind bootstrap fun _ => ?_
  refine Ensures.bind read fun alreadyApplied => Ensures.given (fun _ holds => holds.1) fun found => ?_
  rw [ordered]
  have skip := @applyPending_append Schema execute alreadyApplied migrations
    (fun migration member => (found _).mpr (List.mem_map_of_mem member)) [] ⟨[], []⟩
  rw [List.append_nil] at skip
  dsimp only
  rw [skip]
  exact ensures_pure fun _ holds => ⟨rfl, holds.2⟩

/-- Every database a history leads to is underway. -/
theorem underway_of_reachable (ordered : orderedMigrations files = .ok migrations)
    (distinct : (migrations.map Migration.version).Nodup) (reachable : Reachable execute files initial database) :
    ∃ recorded rest, migrations = recorded ++ rest ∧ RecordedUpTo execute initial migrations recorded database := by
  have split {database : Database Schema} (underway : Underway execute initial migrations database) :
      ∃ recorded rest, migrations = recorded ++ rest ∧ RecordedUpTo execute initial migrations recorded database := by
    rcases underway with empty | ⟨recorded, landed, progress⟩
    · exact ⟨[], migrations, rfl, Or.inl ⟨empty, rfl⟩⟩
    · have ordered : recorded <+: migrations := by
        rcases progress.step with rfl | ⟨_, rfl⟩
        · exact progress.ordered
        · exact (List.prefix_append _ _).trans progress.ordered
      obtain ⟨rest, same⟩ := ordered
      exact ⟨recorded, rest, same.symm, Or.inr ⟨landed, progress⟩⟩
  induction reachable with
  | empty => exact split (Or.inl rfl)
  | run replies _ ih =>
    obtain ⟨recorded, rest, all, holds⟩ := ih
    apply split
    have ends := (ensures_run ordered distinct all).ends ⟨_, replies⟩ holds
    rcases ran : run execute files ⟨_, replies⟩ with ⟨_ | _ | _, session⟩
    · rw [ran] at ends
      obtain ⟨_, landed, progress⟩ := ends
      exact Or.inr ⟨migrations, landed, progress⟩
    · rw [ran] at ends
      exact ends
    · rw [ran] at ends
      exact ends

end Runs

section Claims

variable {Schema : Type} {execute : String → Schema → Option Schema} {initial : Schema}
  {migrations recorded landed : List Migration} {database : Database Schema}

/-- The recorded versions are the first ones in ascending order, each once, and the statements of each have
committed. -/
def RecordedInOrder (migrations : List Migration) (database : Database Schema) : Prop :=
  ∃ recorded, recorded <+: migrations ∧
    database.versions = recorded.map (fun migration => (migration.version : ℤ)) ∧
      ∀ migration ∈ recorded, migration.statements ∈ database.committed

/-- A run that commits no statements and no record, and reports every version skipped if it returns. -/
def AppliesNothing (migrations : List Migration) (database : Database Schema)
    (ended : Outcome MigrationError MigrationSummary × Session (Database Schema)) : Prop :=
  ended.2.store.versions = database.versions ∧ ended.2.store.committed = database.committed ∧
    ∀ summary, ended.1 = .ok summary → summary = ⟨[], migrations.map Migration.version⟩

/-- Through any history of runs from an empty database, each of which may fail or stop at any call: only
versions whose statements have committed are recorded, in ascending order; a run that returns has recorded
each version once and has reported all of them, those it found recorded first; and a run after it applies
nothing. Where the statements are idempotent, the schema is then that of one uninterrupted run. -/
theorem migrations_crash_safe {files : List (String × String)}
    (ordered : orderedMigrations files = .ok migrations)
    (distinct : (migrations.map Migration.version).Nodup) (reachable : Reachable execute files initial database) :
    migrations.Pairwise (fun a b => a.version < b.version) ∧ RecordedInOrder migrations database ∧
      ∀ replies summary session, run execute files ⟨database, replies⟩ = (.ok summary, session) →
        session.store.versions = migrations.map (fun migration => (migration.version : ℤ)) ∧
          (∀ migration ∈ migrations, migration.statements ∈ session.store.committed) ∧
          database.versions = summary.skipped.map Int.ofNat ∧
          summary.skipped ++ summary.applied = migrations.map Migration.version ∧
          (Idempotent execute (allStatements migrations) →
            cleanSchema execute initial migrations = some session.store.schema) ∧
          ∀ replies', AppliesNothing migrations session.store (run execute files ⟨session.store, replies'⟩) := by
  obtain ⟨recorded, rest, all, holds⟩ := underway_of_reachable ordered distinct reachable
  refine ⟨?_, ?_, fun replies summary session ran => ?_⟩
  · have apart := List.pairwise_map.mp distinct
    exact (orderedMigrations_ok ordered).1.imp₂ (fun _ _ le ne => lt_of_le_of_ne le ne) apart
  · refine ⟨recorded, ⟨rest, all.symm⟩, versions_of_recordedUpTo holds, fun migration member => ?_⟩
    rcases holds with ⟨_, rfl⟩ | ⟨landed, progress⟩
    · cases member
    · apply progress.mem_committed
      rcases progress.step with rfl | ⟨_, rfl⟩
      · exact member
      · exact List.mem_append_left _ member
  · have ends := (ensures_run ordered distinct all).ends ⟨database, replies⟩ holds
    rw [ran] at ends
    obtain ⟨rfl, landed, progress⟩ := ends
    have landedAll : landed = migrations := by
      rcases progress.step with same | ⟨_, longer⟩
      · exact same
      · have bound := progress.ordered.length_le
        rw [longer, List.length_append, List.length_singleton] at bound
        omega
    rw [landedAll] at progress
    refine ⟨progress.versions, fun migration member => progress.mem_committed member, ?_, ?_,
      progress.schema, fun replies' => ?_⟩
    · rw [versions_of_recordedUpTo holds, List.map_map]
      rfl
    · rw [all, List.map_append]
    · have settled := @ensures_run_settled Schema execute migrations files session.store ordered
        progress.versions
      have again := settled.ends ⟨session.store, replies'⟩ ⟨rfl, rfl⟩
      rcases ran' : run execute files ⟨session.store, replies'⟩ with ⟨_ | _ | _, session'⟩
      · rw [ran'] at again
        obtain ⟨reports, kept⟩ := again
        refine ⟨kept.1, kept.2, fun summary' returned => ?_⟩
        cases returned
        exact reports
      · rw [ran'] at again
        exact ⟨again.1, again.2, fun _ returned => nomatch returned⟩
      · rw [ran'] at again
        exact ⟨again.1, again.2, fun _ returned => nomatch returned⟩

end Claims

/-! ## A crash between the two commits -/

/-- Each statement creates what its text says, unless it exists. -/
private def createUnlessExists (statement : String) (created : List String) : Option (List String) :=
  some (if statement ∈ created then created else created ++ [statement])

private theorem subset_of_createUnlessExists {statement : String} {created created' : List String}
    (ran : createUnlessExists statement created = some created') :
    statement ∈ created' ∧ created ⊆ created' := by
  rw [createUnlessExists, Option.some_inj] at ran
  subst ran
  split
  · next present => exact ⟨present, fun _ member => member⟩
  · exact ⟨by simp, List.subset_append_left _ _⟩

private theorem idempotent_createUnlessExists (statements : List String) :
    Idempotent createUnlessExists statements := by
  intro statement _ before after ran later within final rest
  have kept : statement ∈ final := by
    have member := (subset_of_createUnlessExists ran).1
    clear ran within
    induction later generalizing after with
    | nil =>
      cases rest
      exact member
    | cons next later ih =>
      rw [runAll_cons] at rest
      obtain ⟨middle, first, rest⟩ := Option.bind_eq_some_iff.mp rest
      exact ih middle rest ((subset_of_createUnlessExists first).2 member)
  rw [createUnlessExists, if_pos kept]

private def twoFiles : List (String × String) :=
  [("0010_later.cypher", "CREATE INDEX b;"), ("0009_earlier.cypher", "CREATE INDEX a;")]

/-- The process has stopped once the statements of the first version had committed. -/
private def interrupted : Database (List String) :=
  (run createUnlessExists twoFiles ⟨.empty [], List.replicate 5 .done ++ [.stops true]⟩).2.store

private theorem interrupted_eq :
    interrupted = ⟨[schemaMigrationConstraint, "CREATE INDEX a"], [], [["CREATE INDEX a"]]⟩ := by decide +kernel

private theorem resumed_eq :
    (run createUnlessExists twoFiles ⟨interrupted, List.replicate 16 .done⟩).1 = .ok ⟨[9, 10], []⟩ := by
  rw [interrupted_eq]
  decide +kernel

/-- The next run applies both versions, the first one for the second time, and the one after it none. -/
theorem migrations_crash_safe_resumed :
    ∃ session, run createUnlessExists twoFiles ⟨interrupted, List.replicate 16 .done⟩ =
        (.ok ⟨[9, 10], []⟩, session) ∧ session.store.versions = [9, 10] ∧
      runAll createUnlessExists [schemaMigrationConstraint, "CREATE INDEX a", "CREATE INDEX b"] [] =
        some session.store.schema ∧
      ∀ replies summary, (run createUnlessExists twoFiles ⟨session.store, replies⟩).1 = .ok summary →
        summary = ⟨[], [9, 10]⟩ := by
  have ordered : orderedMigrations twoFiles =
      .ok [⟨9, "0009_earlier.cypher", "CREATE INDEX a;"⟩, ⟨10, "0010_later.cypher", "CREATE INDEX b;"⟩] := by
    rfl
  have reachable : Reachable createUnlessExists twoFiles [] interrupted := .run _ .empty
  obtain ⟨_, _, returns⟩ := migrations_crash_safe ordered (by decide) reachable
  rcases ran : run createUnlessExists twoFiles ⟨interrupted, List.replicate 16 .done⟩ with ⟨outcome, session⟩
  have finished := resumed_eq
  rw [ran] at finished
  obtain rfl : outcome = .ok ⟨[9, 10], []⟩ := finished
  obtain ⟨versions, _, _, _, schema, again⟩ := returns _ _ _ ran
  refine ⟨session, rfl, versions, schema (idempotent_createUnlessExists _), fun replies summary returned => ?_⟩
  obtain ⟨_, _, skips⟩ := again replies
  exact skips summary returned

end NetHound.Soundness
