import NetHound.Evaluate.Assembly
import NetHound.Evaluate.Engine
import NetHound.Graph.Upserts
import NetHound.Ingest.Pipeline

/-! # The audit run

`run_with_ec2_client` of `audit-local/run.rs` from the collected resources on: upsert the boundary,
ingest, assemble candidates, evaluate each, turn the findings into an outcome; the first stage that
fails ends the run. Evaluation itself cannot fail. The clock enters as one timestamp a finding.
-/

namespace NetHound.Audit

open Domain Graph Cypher Evaluate Ingest

inductive Outcome where
  | clean
  | findingsPresent (reachable indeterminate : ℕ)
deriving DecidableEq, Repr

def Outcome.exitCode : Outcome → ℤ
  | .clean => 0
  | .findingsPresent _ _ => 2

/-- The stage a run failed in. -/
inductive RunError where
  | boundary (source : GraphWriteError)
  | ingest (source : IngestError)
  | assembly (source : CandidateAssemblyError)
deriving DecidableEq, Repr

def isReachable (finding : ReachabilityFinding) : Bool :=
  match finding.reachability with
  | .reachable => true
  | _ => false

def isIndeterminate (finding : ReachabilityFinding) : Bool :=
  match finding.reachability with
  | .indeterminate _ => true
  | _ => false

def findingsToOutcome (findings : List ReachabilityFinding) : Outcome :=
  let reachable := (findings.filter isReachable).length
  let indeterminate := (findings.filter isIndeterminate).length
  if reachable = 0 ∧ indeterminate = 0 then .clean else .findingsPresent reachable indeterminate

/-- The boundary has no operator-assigned id, name or regime. -/
def boundaryRecord (accountId : String) : RegulatedBoundaryRecord :=
  { id := s!"boundary-{accountId}"
    accountId
    name := s!"boundary-{accountId}"
    regime := "unspecified"
    description := none }

/-- A finished run: what it ingested, the candidates it assembled and the finding for each. -/
structure AuditRun where
  ingested : Ingested
  candidates : List PathCandidate
  findings : List ReachabilityFinding

def AuditRun.outcome (run : AuditRun) : Outcome := findingsToOutcome run.findings

def runWithEc2Client (clock : ℕ → String) (selectors : BoundarySelectors) (accountId : String)
    (collections : Sdk.Collections) (graph : Neo4jGraph) : Except RunError AuditRun := do
  let boundary := boundaryRecord accountId
  let graph ← match upsertRegulatedBoundaries [boundary] graph with
    | .ok graph => .ok graph
    | .error failure => .error (.boundary failure.error)
  let ingested ← (runFullIngestWithClient accountId collections graph).mapError .ingest
  let candidates ← (assembleCandidates ingested.graph boundary.id selectors).mapError .assembly
  let findings := candidates.mapIdx fun index candidate => evaluateCandidate (clock index) candidate
  return { ingested, candidates, findings }

/-- The store a run ingests into: the one it was given, with the boundary. -/
def withBoundary (accountId : String) (graph : Neo4jGraph) : Neo4jGraph :=
  graph.mergeNodes [nodeUpsert .regulatedBoundary (regulatedBoundaryRow (boundaryRecord accountId))]

/-- The stages of a finished run. -/
theorem runWithEc2Client_ok {clock : ℕ → String} {selectors : BoundarySelectors} {accountId : String}
    {collections : Sdk.Collections} {graph : Neo4jGraph} {run : AuditRun}
    (ran : runWithEc2Client clock selectors accountId collections graph = .ok run) :
    runFullIngestWithClient accountId collections (withBoundary accountId graph) = .ok run.ingested ∧
      assembleCandidates run.ingested.graph (boundaryRecord accountId).id selectors = .ok run.candidates ∧
      run.findings = run.candidates.mapIdx fun index candidate =>
        evaluateCandidate (clock index) candidate := by
  have bounded : upsertRegulatedBoundaries [boundaryRecord accountId] graph =
      .ok (withBoundary accountId graph) :=
    runNodeUpsert_eq _ _ graph
  rw [runWithEc2Client] at ran
  simp only [bounded] at ran
  obtain ⟨_, same, ran⟩ := Except.bind_eq_ok_iff.mp ran
  cases same
  obtain ⟨ingested, ingest, ran⟩ := Except.bind_eq_ok_iff.mp ran
  obtain ⟨candidates, assembly, done⟩ := Except.bind_eq_ok_iff.mp ran
  cases done
  exact ⟨Except.mapError_eq_ok_iff.mp ingest, Except.mapError_eq_ok_iff.mp assembly, rfl⟩

/-- A run is clean exactly when every finding is not reachable. -/
theorem findingsToOutcome_eq_clean_iff {findings : List ReachabilityFinding} :
    findingsToOutcome findings = .clean ↔ ∀ finding ∈ findings, finding.reachability = .notReachable := by
  have counts : findingsToOutcome findings = .clean ↔
      (findings.filter isReachable).length = 0 ∧ (findings.filter isIndeterminate).length = 0 := by
    rw [findingsToOutcome]
    split
    · next none => exact iff_of_true rfl none
    · next some => exact iff_of_false Outcome.noConfusion some
  rw [counts, List.length_eq_zero_iff, List.length_eq_zero_iff, List.filter_eq_nil_iff,
    List.filter_eq_nil_iff, ← forall₂_and]
  refine forall₂_congr fun finding _ => ?_
  rw [isReachable, isIndeterminate]
  cases finding.reachability <;> simp

end NetHound.Audit
