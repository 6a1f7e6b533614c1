import NetHound.Migrations.Calls

/-! # Where a run of the migrations stands

A version's statements and its record commit apart, so a run may be interrupted with the statements of
one version committed and the version not recorded. `Progress` is that state: the versions recorded and
the versions whose statements have landed are initial segments of all of them in ascending order, and the
second is longer by one at most. Landing and recording the next version keep it.
-/

namespace NetHound.Migrations

open Interruptible Interruptible.Program

section History

variable {Schema : Type} (execute : String → Schema → Option Schema) (initial : Schema)
  (migrations : List Migration)

/-- A statement that has run does nothing when it is run again, whatever has run since. -/
def Idempotent (statements : List String) : Prop :=
  ∀ statement ∈ statements, ∀ before after, execute statement before = some after →
    ∀ later ⊆ statements, ∀ final, runAll execute later after = some final →
      execute statement final = some final

/-- The statements of every version, after the one that makes room for the records. -/
def allStatements : List String :=
  schemaMigrationConstraint :: migrations.flatMap Migration.statements

/-- The schema of one uninterrupted run over some versions. -/
def cleanSchema : Option Schema := runAll execute (allStatements migrations) initial

/-- A version's statements have committed, once for each attempt. -/
def CommittedAs (transactions : List (List String)) (migration : Migration) : Prop :=
  transactions ≠ [] ∧ ∀ statements ∈ transactions, statements = migration.statements

/-- Between two calls of a run: some versions are recorded, and the statements of these and perhaps of the
next one have landed. -/
structure Progress (recorded landed : List Migration) (database : Database Schema) : Prop where
  ordered : landed <+: migrations
  step : landed = recorded ∨ ∃ migration, landed = recorded ++ [migration]
  versions : database.versions = recorded.map fun migration => (migration.version : ℤ)
  committed : ∃ transactions, database.committed = transactions.flatten ∧
    List.Forall₂ CommittedAs transactions landed
  schema : Idempotent execute (allStatements migrations) →
    cleanSchema execute initial landed = some database.schema

/-- Before the first call took effect, or some way through. -/
def Underway (database : Database Schema) : Prop :=
  database = .empty initial ∨
    ∃ recorded landed, Progress execute initial migrations recorded landed database

end History

section Steps

variable {Schema : Type} {execute : String → Schema → Option Schema} {initial : Schema}
  {migrations recorded landed : List Migration} {database : Database Schema}

private theorem runAll_of_settled {statements : List String} {schema : Schema}
    (settled : ∀ statement ∈ statements, execute statement schema = some schema) :
    runAll execute statements schema = some schema := by
  induction statements with
  | nil => rfl
  | cons statement statements ih =>
    obtain ⟨first, rest⟩ := List.forall_mem_cons.mp settled
    rw [runAll_cons, first]
    exact ih rest

/-- What a clean schema contains stays settled in it. -/
private theorem settled_of_runAll {all statements : List String} (idempotent : Idempotent execute all)
    (within : statements ⊆ all) {schema final : Schema} (ran : runAll execute statements schema = some final)
    {statement : String} (member : statement ∈ statements) : execute statement final = some final := by
  obtain ⟨before, after, rfl⟩ := List.append_of_mem member
  rw [runAll_append] at ran
  obtain ⟨middle, _, ran⟩ := Option.bind_eq_some_iff.mp ran
  rw [runAll_cons] at ran
  obtain ⟨next, executed, rest⟩ := Option.bind_eq_some_iff.mp ran
  refine idempotent statement (within member) middle next executed after ?_ final rest
  exact fun other later => within (List.mem_append_right _ (List.mem_cons_of_mem _ later))

private theorem allStatements_subset (ordered : landed <+: migrations) :
    allStatements landed ⊆ allStatements migrations := by
  obtain ⟨rest, rfl⟩ := ordered
  rw [allStatements, allStatements, List.flatMap_append]
  exact List.cons_subset_cons _ (List.subset_append_left _ _)

theorem Progress.bootstrap {schema : Schema}
    (progress : Progress execute initial migrations recorded landed database)
    (executed : execute schemaMigrationConstraint database.schema = some schema) :
    Progress execute initial migrations recorded landed { database with schema } :=
  { progress with
    schema := fun idempotent => by
      have clean := progress.schema idempotent
      have settled := settled_of_runAll idempotent (allStatements_subset progress.ordered) clean
        (List.mem_cons_self (l := landed.flatMap Migration.statements))
      rw [executed] at settled
      rw [clean, settled] }

theorem progress_bootstrap_empty {schema : Schema}
    (executed : execute schemaMigrationConstraint initial = some schema) :
    Progress execute initial migrations [] [] { Database.empty initial with schema } where
  ordered := List.nil_prefix
  step := Or.inl rfl
  versions := rfl
  committed := ⟨[], rfl, .nil⟩
  schema _ := by
    rw [cleanSchema, allStatements, runAll_cons, executed]
    rfl

private theorem cleanSchema_append (landed : List Migration) (migration : Migration) :
    cleanSchema execute initial (landed ++ [migration]) =
      (cleanSchema execute initial landed).bind (runAll execute migration.statements) := by
  have split : allStatements (landed ++ [migration]) = allStatements landed ++ migration.statements := by
    rw [allStatements, allStatements, List.flatMap_append, List.flatMap_singleton, List.cons_append]
  rw [cleanSchema, split, runAll_append]
  rfl

private theorem committedAs_append {transactions : List (List (List String))} {migration : Migration}
    (blocks : List.Forall₂ CommittedAs transactions (landed ++ [migration])) :
    ∃ transactions', transactions.flatten ++ [migration.statements] = transactions'.flatten ∧
      List.Forall₂ CommittedAs transactions' (landed ++ [migration]) := by
  have earlier := List.forall₂_take_append _ _ _ blocks
  obtain ⟨last, rest, ⟨_, alike⟩, tail, split⟩ :=
    List.forall₂_cons_right_iff.mp (List.forall₂_drop_append _ _ _ blocks)
  obtain rfl := List.forall₂_nil_right_iff.mp tail
  refine ⟨transactions.take landed.length ++ [last ++ [migration.statements]], ?_,
    List.rel_append earlier (.cons ⟨by simp, ?_⟩ .nil)⟩
  · calc transactions.flatten ++ [migration.statements]
        = (transactions.take landed.length ++ transactions.drop landed.length).flatten ++
            [migration.statements] := by rw [List.take_append_drop]
      _ = (transactions.take landed.length ++ [last ++ [migration.statements]]).flatten := by
          rw [split]
          simp
  · intro statements member
    rcases List.mem_append.mp member with member | member
    · exact alike statements member
    · exact List.mem_singleton.mp member

/-- The statements of the next version land, perhaps not for the first time. -/
theorem Progress.land {migration : Migration} {rest : List Migration} {database' : Database Schema}
    (progress : Progress execute initial migrations recorded landed database)
    (all : migrations = recorded ++ migration :: rest)
    (lands : Landed execute migration.statements database database') :
    Progress execute initial migrations recorded (recorded ++ [migration]) database' := by
  obtain ⟨schema, ran, rfl⟩ := lands
  have ordered : recorded ++ [migration] <+: migrations := ⟨rest, by rw [all, List.append_assoc]; rfl⟩
  obtain ⟨transactions, committed, blocks⟩ := progress.committed
  rcases progress.step with rfl | ⟨again, rfl⟩
  · refine ⟨ordered, Or.inr ⟨migration, rfl⟩, progress.versions,
      ⟨transactions ++ [[migration.statements]], ?_, ?_⟩, fun idempotent => ?_⟩
    · simp [committed]
    · exact List.rel_append blocks (.cons ⟨by simp, by simp⟩ .nil)
    · rw [cleanSchema_append, progress.schema idempotent, Option.bind_some, ran]
  · obtain rfl : again = migration := by
      have same := progress.ordered
      rw [all, List.prefix_append_right_inj, List.prefix_cons_iff] at same
      rcases same with empty | ⟨_, cons, _⟩
      · cases empty
      · exact (List.cons.inj cons).1
    obtain ⟨transactions', extended, blocks'⟩ := committedAs_append blocks
    refine ⟨ordered, progress.step, progress.versions, ⟨transactions', ?_, blocks'⟩, fun idempotent => ?_⟩
    · rw [committed]
      exact extended
    · have clean := progress.schema idempotent
      have settled : runAll execute again.statements database.schema = some database.schema := by
        refine runAll_of_settled fun statement member => ?_
        apply settled_of_runAll idempotent (allStatements_subset progress.ordered) clean
        rw [allStatements]
        exact List.mem_cons_of_mem _ (List.mem_flatMap.mpr ⟨again, by simp, member⟩)
      rw [clean, ← ran, settled]

/-- The version whose statements have landed is recorded. -/
theorem Progress.record {migration : Migration}
    (progress : Progress execute initial migrations recorded (recorded ++ [migration]) database)
    (fresh : migration.version ∉ recorded.map Migration.version) :
    Progress execute initial migrations (recorded ++ [migration]) (recorded ++ [migration])
      { database with versions := mergeVersion migration.version database.versions } where
  ordered := progress.ordered
  step := Or.inl rfl
  versions := by
    have absent : (migration.version : ℤ) ∉ database.versions := by
      rw [progress.versions, List.mem_map]
      rintro ⟨other, member, same⟩
      exact fresh (List.mem_map.mpr ⟨other, member, Int.natCast_inj.mp same⟩)
    rw [mergeVersion, if_neg absent, progress.versions, List.map_append]
    rfl
  committed := progress.committed
  schema := progress.schema

/-- The statements of what has landed have committed. -/
theorem Progress.mem_committed
    (progress : Progress execute initial migrations recorded landed database) {migration : Migration}
    (member : migration ∈ landed) : migration.statements ∈ database.committed := by
  obtain ⟨transactions, committed, blocks⟩ := progress.committed
  rw [committed]
  clear progress committed
  induction blocks with
  | nil => cases member
  | @cons block earlier blocks landed head _ ih =>
    rw [List.flatten_cons, List.mem_append]
    rcases List.mem_cons.mp member with rfl | later
    · obtain ⟨statements, inBlock⟩ := List.exists_mem_of_ne_nil _ head.1
      exact Or.inl (head.2 statements inBlock ▸ inBlock)
    · exact Or.inr (ih later)

/-- Applying the next version lands and records it, or is interrupted underway. -/
theorem Progress.ensures_applyVersion {migration : Migration} {rest : List Migration}
    (all : migrations = recorded ++ migration :: rest)
    (fresh : migration.version ∉ recorded.map Migration.version) :
    Ensures (fun database => ∃ landed, Progress execute initial migrations recorded landed database)
      (applyVersion execute migration.version migration.content)
      (fun _ database => ∃ landed,
        Progress execute initial migrations (recorded ++ [migration]) landed database)
      (Underway execute initial migrations) := by
  constructor
  rintro session ⟨landed, progress⟩
  refine ((Migrations.ensures_applyVersion _ _ session.store).imp (fun _ same => same) ?_ ?_).ends session rfl
  · rintro _ _ ⟨database', lands, rfl⟩
    exact ⟨_, (progress.land all lands).record fresh⟩
  · rintro database (rfl | ⟨database', lands, rfl | rfl⟩)
    · exact Or.inr ⟨recorded, landed, progress⟩
    · exact Or.inr ⟨recorded, _, progress.land all lands⟩
    · exact Or.inr ⟨_, _, (progress.land all lands).record fresh⟩

end Steps

end NetHound.Migrations
