import NetHound.Migrations.Script
import NetHound.ToMathlib.Interruptible

/-! # The migration runner

`migrations.rs` against a database that may fail or outlive the process at any call. `execute` is what a
statement does to the schema, `none` where Neo4j rejects it. A transaction carries the schema it would
leave, and its commit is one step; the version record has a transaction of its own. `committed` is no
part of the database's contents: it remembers, for the statements, which transactions took effect.
-/

namespace NetHound.Migrations

open Interruptible Interruptible.Program

/-- A database as the runner sees it; every `SchemaMigration` node is one it wrote. -/
structure Database (Schema : Type) where
  schema : Schema
  versions : List ℤ
  committed : List (List String)
deriving DecidableEq, Repr

/-- A database no migration has run on. -/
def Database.empty {Schema : Type} (schema : Schema) : Database Schema := ⟨schema, [], []⟩

/-- An open transaction: the schema it would leave and the statements it has run. -/
structure Transaction (Schema : Type) where
  schema : Schema
  statements : List String

structure MigrationSummary where
  applied : List ℕ
  skipped : List ℕ
deriving DecidableEq, Repr

abbrev Client (Schema α : Type) : Type := Program (Database Schema) MigrationError α

def schemaMigrationConstraint : String :=
  "CREATE CONSTRAINT schema_migration_version_unique IF NOT EXISTS FOR (n:SchemaMigration) REQUIRE n.version IS UNIQUE"

section Runner

variable {Schema : Type} (execute : String → Schema → Option Schema)

def startTxn (version : ℕ) : Client Schema (Transaction Schema) :=
  request (.startTransaction version) fun database => some (⟨database.schema, []⟩, database)

/-- `txn.run`; it reaches no further than its transaction. -/
def Transaction.run (transaction : Transaction Schema) (statement : String) :
    Client Schema (Option (Transaction Schema)) :=
  call fun database => (execute statement transaction.schema).map fun schema =>
    (⟨schema, transaction.statements ++ [statement]⟩, database)

/-- `let _ = txn.rollback()`. -/
def rollback : Client Schema Unit := do
  let _ ← call fun database => some ((), database)
  pure ()

/-- Neo4j transactions are atomic. -/
def Transaction.commit (transaction : Transaction Schema) (version : ℕ) : Client Schema Unit :=
  request (.commit version) fun database =>
    some ((), { database with
      schema := transaction.schema, committed := database.committed ++ [transaction.statements] })

def runStatements (version : ℕ) (transaction : Transaction Schema) :
    ℕ → List String → Client Schema (Transaction Schema)
  | _, [] => pure transaction
  | statementIndex, statement :: statements => do
      match ← transaction.run execute statement with
      | some transaction => runStatements version transaction (statementIndex + 1) statements
      | none =>
          rollback
          fail (.statementFailed version statementIndex)

/-- `MERGE (n:SchemaMigration {version: $version})`; `applied_at` is not read. -/
def mergeVersion (version : ℕ) (versions : List ℤ) : List ℤ :=
  if (version : ℤ) ∈ versions then versions else versions ++ [(version : ℤ)]

def recordVersion (version : ℕ) : Client Schema Unit := do
  let _ ← startTxn version
  match ← call fun database => some (mergeVersion version database.versions, database) with
  | some versions =>
      request (.commit version) fun database => some ((), { database with versions })
  | none =>
      rollback
      fail (.recordVersion version)

def applyVersion (version : ℕ) (cypherSource : String) : Client Schema Unit := do
  let transaction ← startTxn version
  let transaction ← runStatements execute version transaction 0 (splitStatements cypherSource)
  transaction.commit version
  recordVersion version

def bootstrapSchemaMigrationConstraint : Client Schema Unit :=
  request .bootstrap fun database =>
    (execute schemaMigrationConstraint database.schema).map fun schema => ((), { database with schema })

/-- `as u32`. -/
def asU32 (version : ℤ) : ℕ := (version % UInt32.size).toNat

/-- The rows of a stream, each fetched by a call of its own, and one that finds the end. -/
def readRows : List ℤ → Client Schema (List ℕ)
  | [] => do
      request .readAppliedVersions fun database => some ((), database)
      pure []
  | version :: rows => do
      request .readAppliedVersions fun database => some ((), database)
      let versions ← readRows rows
      pure (asU32 version :: versions)

/-- The set of recorded versions, as a list. -/
def readAppliedVersions : Client Schema (List ℕ) := do
  let rows ← request .readAppliedVersions fun database => some (database.versions, database)
  readRows rows

def applyPending (alreadyApplied : List ℕ) :
    List Migration → MigrationSummary → Client Schema MigrationSummary
  | [], summary => pure summary
  | migration :: migrations, summary =>
      if migration.version ∈ alreadyApplied then
        applyPending alreadyApplied migrations
          { summary with skipped := summary.skipped ++ [migration.version] }
      else do
        applyVersion execute migration.version migration.content
        applyPending alreadyApplied migrations
          { summary with applied := summary.applied ++ [migration.version] }

def run (files : List (String × String)) : Client Schema MigrationSummary := do
  bootstrapSchemaMigrationConstraint execute
  let alreadyApplied ← readAppliedVersions
  match orderedMigrations files with
  | .ok migrations => applyPending execute alreadyApplied migrations ⟨[], []⟩
  | .error error => fail error

/-- The databases a history of runs leads to, each run up to where it returned or stopped. -/
inductive Reachable (files : List (String × String)) (schema : Schema) : Database Schema → Prop
  | empty : Reachable files schema (.empty schema)
  | run {database : Database Schema} (replies : List Reply) (before : Reachable files schema database) :
      Reachable files schema (run execute files ⟨database, replies⟩).2.store

end Runner

end NetHound.Migrations
