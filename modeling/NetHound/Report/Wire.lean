import NetHound.Report.Model
import NetHound.ToMathlib.ExceptRun

/-! # Decoding a report

The wire types of `report/model.rs` and their `TryFrom`s. A document is what the struct encoding
holds: sets are sequences of strings, and the time is the one its RFC 3339 text denotes. Decoding
goes field by field, each part through its own check, and last through the check of the whole.
-/

namespace NetHound.Report

open Evaluate

/-- Deserialization shape shared by the two single-finding wrappers. -/
structure FindingWire where
  finding : ReachabilityFinding

def ReachableFinding.tryFrom (wire : FindingWire) : Except ReportModelError ReachableFinding :=
  ReachableFinding.new wire.finding

def NotReachableFinding.tryFrom (wire : FindingWire) : Except ReportModelError NotReachableFinding :=
  NotReachableFinding.new wire.finding

/-- Deserialization shape of `IndeterminateFinding`. -/
structure IndeterminateWire where
  finding : ReachabilityFinding
  causes : List LayerCause

def IndeterminateFinding.tryFrom (wire : IndeterminateWire) :
    Except ReportModelError IndeterminateFinding :=
  IndeterminateFinding.new wire.finding wire.causes

/-- Deserialization shape of `ReportScope`. -/
structure ReportScopeWire where
  accounts : Finset String
  regions : Finset String
  unresolvedReferenceCount : ℕ

def ReportScope.tryFrom (wire : ReportScopeWire) : Except ReportModelError ReportScope :=
  ReportScope.new wire.accounts.sort wire.regions.sort wire.unresolvedReferenceCount

/-- Deserialization shape of `AuditReport`, its parts already decoded. -/
structure AuditReportWire where
  summary : ReportSummary
  reachable : List ReachableFinding
  notReachable : List NotReachableFinding
  indeterminate : List IndeterminateFinding

/-- How decoding ends without a report. -/
inductive DecodeFailure where
  | rejected (error : ReportModelError)
  | panicked
deriving DecidableEq, Repr

/-- The loop over the three populations: the first whose declared count is wrong. -/
def countsMismatch (declared actual : ReportCounts) : Option ReportModelError :=
  [("reachable", declared.reachable, actual.reachable),
    ("not_reachable", declared.notReachable, actual.notReachable),
    ("indeterminate", declared.indeterminate, actual.indeterminate)].findSome? fun row =>
      if row.2.1 ≠ row.2.2 then some (.countsMismatch row.1 row.2.1 row.2.2) else none

theorem countsMismatch_eq_none_iff {declared actual : ReportCounts} :
    countsMismatch declared actual = none ↔ declared = actual := by
  unfold countsMismatch
  rw [List.findSome?_eq_none_iff]
  simp only [List.forall_mem_cons, List.not_mem_nil, false_imp_iff, implies_true, and_true,
    ite_eq_right_iff, reduceCtorEq, imp_false, not_ne_iff]
  cases declared
  cases actual
  rw [ReportCounts.mk.injEq]

example : (countsMismatch ⟨5, 0, 2⟩ ⟨1, 0, 0⟩).map ReportModelError.message =
    some "report declares 5 reachable findings but holds 1" := by decide

def AuditReport.tryFrom (wire : AuditReportWire) : Except DecodeFailure AuditReport :=
  let actual := ReportCounts.fromPopulations wire.reachable wire.notReachable wire.indeterminate
  let declared := wire.summary.counts
  let mismatch := countsMismatch declared actual
  if disagree : mismatch.isSome then .error (.rejected (mismatch.get disagree))
  else
    have counted := countsMismatch_eq_none_iff.mp (Option.not_isSome_iff_eq_none.mp disagree)
    ((wire.summary.generatedAt.toOffset utc).pmap
      (fun generatedAt inUtc =>
        { summary := { wire.summary with generatedAt }
          reachable := wire.reachable
          notReachable := wire.notReachable
          indeterminate := wire.indeterminate
          counted, inUtc : AuditReport })
      fun _ converted => OffsetDateTime.offset_of_toOffset converted).elim (.error .panicked) .ok

namespace Document

/-- The encoding of a `ReportScope`. -/
structure Scope where
  accounts : List String
  regions : List String
  unresolvedReferenceCount : ℕ

/-- The encoding of a `ReportSummary`. -/
structure Summary where
  generatedAt : OffsetDateTime
  scope : Scope
  counts : ReportCounts
  toolVersion : String

end Document

/-- The encoding of an `AuditReport`. -/
structure Document where
  summary : Document.Summary
  reachable : List FindingWire
  notReachable : List FindingWire
  indeterminate : List IndeterminateWire

section Decode

def ReportScope.decode (document : Document.Scope) : Except ReportModelError ReportScope :=
  ReportScope.tryFrom
    { accounts := document.accounts.toFinset
      regions := document.regions.toFinset
      unresolvedReferenceCount := document.unresolvedReferenceCount }

def ReportSummary.decode (document : Document.Summary) : Except ReportModelError ReportSummary := do
  let scope ← ReportScope.decode document.scope
  return {
    generatedAt := document.generatedAt
    scope
    counts := document.counts
    toolVersion := document.toolVersion }

def AuditReportWire.decode (document : Document) : Except ReportModelError AuditReportWire := do
  let summary ← ReportSummary.decode document.summary
  let reachable ← document.reachable.mapM ReachableFinding.tryFrom
  let notReachable ← document.notReachable.mapM NotReachableFinding.tryFrom
  let indeterminate ← document.indeterminate.mapM IndeterminateFinding.tryFrom
  return { summary, reachable, notReachable, indeterminate }

def AuditReport.decode (document : Document) : Except DecodeFailure AuditReport := do
  let wire ← (AuditReportWire.decode document).mapError .rejected
  AuditReport.tryFrom wire

end Decode

section Encode

def DecidedFinding.encode {reachability : Reachability} (wrapped : DecidedFinding reachability) :
    FindingWire where
  finding := wrapped.finding

def IndeterminateFinding.encode (wrapped : IndeterminateFinding) : IndeterminateWire where
  finding := wrapped.finding
  causes := wrapped.causes

def ReportScope.encode (scope : ReportScope) : Document.Scope where
  accounts := scope.accounts.sort
  regions := scope.regions.sort
  unresolvedReferenceCount := scope.unresolvedReferenceCount

def ReportSummary.encode (summary : ReportSummary) : Document.Summary where
  generatedAt := summary.generatedAt
  scope := summary.scope.encode
  counts := summary.counts
  toolVersion := summary.toolVersion

def AuditReport.encode (report : AuditReport) : Document where
  summary := report.summary.encode
  reachable := report.reachable.map DecidedFinding.encode
  notReachable := report.notReachable.map DecidedFinding.encode
  indeterminate := report.indeterminate.map IndeterminateFinding.encode

end Encode

end NetHound.Report
