import NetHound.Migrations.Runner

/-! # What each part of the runner leaves

One triple for each function of the runner, from a known database: what it has done when it returns, and
what it may have done when it is interrupted. Applying a version has two commits, so it is interrupted in
one of three databases.
-/

namespace NetHound.Migrations

open Interruptible Interruptible.Program

variable {Schema : Type} {execute : String → Schema → Option Schema}

/-- Statements one after the other, up to the first that is rejected. -/
def runAll (execute : String → Schema → Option Schema) (statements : List String) (schema : Schema) :
    Option Schema :=
  statements.foldlM (fun schema statement => execute statement schema) schema

theorem runAll_cons (statement : String) (statements : List String) (schema : Schema) :
    runAll execute (statement :: statements) schema =
      (execute statement schema).bind (runAll execute statements) := rfl

theorem runAll_append (first second : List String) (schema : Schema) :
    runAll execute (first ++ second) schema = (runAll execute first schema).bind (runAll execute second) :=
  List.foldlM_append ..

theorem ensures_startTxn (version : ℕ) (database₀ : Database Schema) :
    Ensures (· = database₀) (startTxn version)
      (fun transaction database => database = database₀ ∧ transaction = ⟨database₀.schema, []⟩)
      (· = database₀) := by
  refine (ensures_request_of_quiet ?_).imp (fun _ same => same) ?_ fun _ same => same
  · rintro store value store' done
    cases done
    rfl
  · rintro transaction database ⟨same, opened⟩
    cases opened
    exact ⟨same, rfl⟩

theorem ensures_rollback (database₀ : Database Schema) :
    Ensures (· = database₀) rollback (fun _ database => database = database₀) (· = database₀) := by
  refine Ensures.bind (ensures_call_of_quiet ?_) fun _ => ensures_pure fun _ holds => holds.1
  rintro store value store' done
  cases done
  rfl

/-- Statements touch their transaction only. -/
theorem ensures_runStatements (version : ℕ) (database₀ : Database Schema) (statements : List String)
    (transaction : Transaction Schema) (statementIndex : ℕ) :
    Ensures (· = database₀) (runStatements execute version transaction statementIndex statements)
      (fun transaction' database => database = database₀ ∧
        runAll execute statements transaction.schema = some transaction'.schema ∧
          transaction'.statements = transaction.statements ++ statements)
      (· = database₀) := by
  induction statements generalizing transaction statementIndex with
  | nil => exact ensures_pure fun _ same => ⟨same, rfl, (List.append_nil _).symm⟩
  | cons statement statements ih =>
    have quiet : ∀ (store : Database Schema) (value : Transaction Schema) (store' : Database Schema),
        ((execute statement transaction.schema).map fun schema =>
          ((⟨schema, transaction.statements ++ [statement]⟩ : Transaction Schema), store)) =
            some (value, store') → store' = store := by
      intro store value store' done
      obtain ⟨_, _, same⟩ := Option.map_eq_some_iff.mp done
      cases same
      rfl
    refine Ensures.bind (ensures_call_of_quiet quiet) fun result => ?_
    cases result with
    | none =>
      refine Ensures.bind ((ensures_rollback database₀).mono_pre fun _ holds => holds.1) fun _ => ?_
      exact ensures_fail fun _ same => same
    | some next =>
      refine Ensures.given (fun _ holds => holds.2 next rfl) fun ran => ?_
      obtain ⟨schema, executed, opened⟩ := Option.map_eq_some_iff.mp ran
      cases opened
      refine (ih _ _).imp (fun _ holds => holds.1) ?_ fun _ same => same
      rintro transaction' database ⟨same, rest, extended⟩
      refine ⟨same, ?_, ?_⟩
      · rw [runAll_cons, executed]
        exact rest
      · rw [extended, List.append_assoc]
        rfl

theorem ensures_commit (transaction : Transaction Schema) (version : ℕ) (database₀ : Database Schema) :
    Ensures (· = database₀) (transaction.commit version)
      (fun _ database => database = { database₀ with
        schema := transaction.schema, committed := database₀.committed ++ [transaction.statements] })
      (fun database => database = database₀ ∨ database = { database₀ with
        schema := transaction.schema, committed := database₀.committed ++ [transaction.statements] }) := by
  apply ensures_request
  · rintro _ _ _ rfl done
    cases done
    rfl
  · exact fun _ same => Or.inl same
  · rintro _ _ _ rfl done
    cases done
    exact Or.inr rfl

/-- The version is recorded or not; the record never touches the schema. -/
theorem ensures_recordVersion (version : ℕ) (database₀ : Database Schema) :
    Ensures (· = database₀) (recordVersion version)
      (fun _ database => database = { database₀ with versions := mergeVersion version database₀.versions })
      (fun database => database = database₀ ∨
        database = { database₀ with versions := mergeVersion version database₀.versions }) := by
  refine Ensures.bind ((ensures_startTxn version database₀).mono_crash fun _ => Or.inl) fun _ => ?_
  have quiet : ∀ (store : Database Schema) (value : List ℤ) (store' : Database Schema),
      some (mergeVersion version store.versions, store) = some (value, store') → store' = store := by
    rintro store value store' done
    cases done
    rfl
  refine Ensures.bind (((ensures_call_of_quiet quiet).mono_pre fun _ holds => holds.1).mono_crash
    fun _ => Or.inl) fun result => ?_
  cases result with
  | none =>
    refine Ensures.bind (((ensures_rollback database₀).mono_pre fun _ holds => holds.1).mono_crash
      fun _ => Or.inl) fun _ => ?_
    exact ensures_fail fun _ same => Or.inl same
  | some versions =>
    refine Ensures.given (fun _ holds => holds.2 versions rfl) fun merged => ?_
    cases merged
    apply ensures_request
    · rintro _ _ _ ⟨rfl, _⟩ done
      cases done
      rfl
    · exact fun _ holds => Or.inl holds.1
    · rintro _ _ _ ⟨rfl, _⟩ done
      cases done
      exact Or.inr rfl

/-- What a version's statements have done when their transaction has committed. -/
def Landed (execute : String → Schema → Option Schema) (statements : List String)
    (before after : Database Schema) : Prop :=
  ∃ schema, runAll execute statements before.schema = some schema ∧
    after = { before with schema, committed := before.committed ++ [statements] }

/-- Applying a version lands its statements and then records it; it may be interrupted before the one
or between the two. -/
theorem ensures_applyVersion (version : ℕ) (cypherSource : String) (database₀ : Database Schema) :
    Ensures (· = database₀) (applyVersion execute version cypherSource)
      (fun _ database => ∃ landed, Landed execute (splitStatements cypherSource) database₀ landed ∧
        database = { landed with versions := mergeVersion version landed.versions })
      (fun database => database = database₀ ∨
        ∃ landed, Landed execute (splitStatements cypherSource) database₀ landed ∧
          (database = landed ∨
            database = { landed with versions := mergeVersion version landed.versions })) := by
  refine Ensures.bind ((ensures_startTxn version database₀).mono_crash fun _ => Or.inl) fun opened => ?_
  refine Ensures.given (fun _ holds => holds.2) fun fresh => ?_
  rw [fresh]
  have statementsRun := @ensures_runStatements Schema execute version database₀
    (splitStatements cypherSource) ⟨database₀.schema, []⟩ 0
  refine Ensures.bind ((statementsRun.mono_pre fun _ holds => holds.1).mono_crash fun _ => Or.inl)
    fun transaction => ?_
  refine Ensures.given (fun _ holds => holds.2) fun ⟨ran, statements⟩ => ?_
  rw [List.nil_append] at statements
  have landed : Landed execute (splitStatements cypherSource) database₀ { database₀ with
      schema := transaction.schema, committed := database₀.committed ++ [transaction.statements] } :=
    ⟨transaction.schema, ran, by rw [statements]⟩
  refine Ensures.bind (((ensures_commit transaction version database₀).mono_pre
    fun _ holds => holds.1).mono_crash ?_) fun _ => ?_
  · rintro database (same | committed)
    · exact Or.inl same
    · exact Or.inr ⟨_, landed, Or.inl committed⟩
  · refine (ensures_recordVersion version _).imp (fun _ same => same) ?_ ?_
    · exact fun _ database recorded => ⟨_, landed, recorded⟩
    · exact fun database interrupted => Or.inr ⟨_, landed, interrupted⟩

theorem ensures_bootstrap (database₀ : Database Schema) :
    Ensures (· = database₀) (bootstrapSchemaMigrationConstraint execute)
      (fun _ database => ∃ schema, execute schemaMigrationConstraint database₀.schema = some schema ∧
        database = { database₀ with schema })
      (fun database => database = database₀ ∨
        ∃ schema, execute schemaMigrationConstraint database₀.schema = some schema ∧
          database = { database₀ with schema }) := by
  apply ensures_request
  · rintro _ _ _ rfl done
    obtain ⟨schema, executed, same⟩ := Option.map_eq_some_iff.mp done
    cases same
    exact ⟨schema, executed, rfl⟩
  · exact fun _ same => Or.inl same
  · rintro _ _ _ rfl done
    obtain ⟨schema, executed, same⟩ := Option.map_eq_some_iff.mp done
    cases same
    exact Or.inr ⟨schema, executed, rfl⟩

private theorem ensures_readRows (rows : List ℤ) (database₀ : Database Schema) :
    Ensures (· = database₀) (readRows rows)
      (fun versions database => database = database₀ ∧ versions = rows.map asU32) (· = database₀) := by
  have quiet : ∀ (store : Database Schema) (value : Unit) (store' : Database Schema),
      some ((), store) = some (value, store') → store' = store := by
    rintro store value store' done
    cases done
    rfl
  induction rows with
  | nil =>
    refine Ensures.bind (ensures_request_of_quiet quiet) fun _ => ?_
    exact ensures_pure fun _ holds => ⟨holds.1, rfl⟩
  | cons version rows ih =>
    refine Ensures.bind (ensures_request_of_quiet quiet) fun _ => ?_
    refine Ensures.bind (ih.mono_pre fun _ holds => holds.1) fun versions => ?_
    refine ensures_pure fun _ holds => ⟨holds.1, ?_⟩
    rw [holds.2, List.map_cons]

theorem ensures_readAppliedVersions (database₀ : Database Schema) :
    Ensures (· = database₀) readAppliedVersions
      (fun versions database => database = database₀ ∧ versions = database₀.versions.map asU32)
      (· = database₀) := by
  have quiet : ∀ (store : Database Schema) (value : List ℤ) (store' : Database Schema),
      some (store.versions, store) = some (value, store') → store' = store := by
    rintro store value store' done
    cases done
    rfl
  refine Ensures.bind (ensures_request_of_quiet quiet) fun rows => ?_
  refine Ensures.given (fun _ holds => holds.2) fun read => ?_
  cases read
  exact (ensures_readRows _ database₀).mono_pre fun _ holds => holds.1

/-- A version of 32 bits is read as it was written. -/
theorem asU32_natCast {version : ℕ} (small : version < UInt32.size) : asU32 version = version := by
  rw [asU32, Int.emod_eq_of_lt (Int.natCast_nonneg _) (by exact_mod_cast small), Int.toNat_natCast]

end NetHound.Migrations
