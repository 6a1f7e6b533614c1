import NetHound.Report.Reading

/-! # Reports round-trip and agree with themselves

A decoded report has passed every check its parts make, so it is consistent however the document
ordered its causes or wrote its time, and its own encoding decodes to it again.
-/

namespace NetHound.Soundness

open Evaluate Report

/-- A report does not disagree with itself. -/
structure Consistent (report : AuditReport) : Prop where
  reachableCount : report.summary.counts.reachable = report.reachable.length
  notReachableCount : report.summary.counts.notReachable = report.notReachable.length
  indeterminateCount : report.summary.counts.indeterminate = report.indeterminate.length
  reachable : ∀ wrapped ∈ report.reachable, wrapped.finding.reachability = .reachable
  notReachable : ∀ wrapped ∈ report.notReachable, wrapped.finding.reachability = .notReachable
  /-- One cause for each listed layer and none besides, in evaluation order. -/
  indeterminate : ∀ wrapped ∈ report.indeterminate, ∃ layers,
    wrapped.finding.reachability = .indeterminate layers ∧
      (∀ layer, layer ∈ wrapped.causes.map (·.layer) ↔ layer ∈ layers) ∧
      (wrapped.causes.map (·.layer)).Pairwise (· < ·)
  accounts : report.summary.scope.accounts.Nonempty
  regions : report.summary.scope.regions.Nonempty
  generatedAt : report.summary.generatedAt.offset = utc

/-- The checks its parts carry make every report consistent. -/
private theorem consistent (report : AuditReport) : Consistent report where
  reachableCount := congrArg ReportCounts.reachable report.counted
  notReachableCount := congrArg ReportCounts.notReachable report.counted
  indeterminateCount := congrArg ReportCounts.indeterminate report.counted
  reachable wrapped _ := wrapped.decided
  notReachable wrapped _ := wrapped.decided
  indeterminate := by
    intro wrapped _
    refine ⟨wrapped.finding.reachability.layers, ?_, ?_, ?_⟩
    · exact Reachability.kind_eq_unknown_iff.mp wrapped.undecided
    · intro layer
      rw [← List.mem_toFinset, wrapped.covers.covered, List.mem_toFinset]
    · exact List.pairwise_map.mpr wrapped.covers.ordered
  accounts := Finset.nonempty_iff_ne_empty.mpr report.summary.scope.accountsNonempty
  regions := Finset.nonempty_iff_ne_empty.mpr report.summary.scope.regionsNonempty
  generatedAt := report.inUtc

private theorem decode_encode (report : AuditReport) :
    AuditReport.decode report.encode = .ok report :=
  AuditReport.decode_eq_ok_iff.mpr report.encode_denotes

/-- Every report `AuditReport.new` builds is read back from its encoding, and every document that
decodes gives a consistent report that is read back from its own. -/
theorem report_round_trip :
    (∀ (scope : ReportScope) (toolVersion : String) (generatedAt : OffsetDateTime)
        (reachable : List ReachableFinding) (notReachable : List NotReachableFinding)
        (indeterminate : List IndeterminateFinding) (report : AuditReport),
      AuditReport.new scope toolVersion generatedAt reachable notReachable indeterminate =
          some report →
        AuditReport.decode report.encode = .ok report) ∧
    ∀ (document : Document) (report : AuditReport), AuditReport.decode document = .ok report →
      Consistent report ∧ AuditReport.decode report.encode = .ok report := by
  constructor
  · intro _ _ _ _ _ _ report _
    exact decode_encode report
  · intro _ report _
    exact ⟨consistent report, decode_encode report⟩

private theorem supported_twoHours : SupportedLocal (7200 * nanosPerSecond) := by decide

private def undecidedFinding : ReachabilityFinding where
  computedAt := "1970-01-01T00:00:00Z"
  source := "eni-a"
  destinationBoundary := "boundary-b"
  pathEvidence := ⟨[]⟩
  reachability := .indeterminate [.naclIngress, .sgEgress, .naclIngress]
  severity := .high

/-- The epoch written two hours east, a repeated account, and causes out of order. -/
private def misordered : Document where
  summary := {
    generatedAt := ⟨7200 * nanosPerSecond, 7200, supported_twoHours⟩
    scope := ⟨["222222222222", "111111111111", "222222222222"], ["us-east-1"], 3⟩
    counts := ⟨0, 0, 1⟩
    toolVersion := "0.1.0" }
  reachable := []
  notReachable := []
  indeterminate := [⟨undecidedFinding,
    [⟨.naclIngress, .missingRouteTable "subnet-a"⟩, ⟨.sgEgress, .unresolvedSecurityGroupReference "sg-a"⟩]⟩]

private theorem misordered_denotes : ∃ report, misordered.Denotes report := by
  obtain ⟨wrapped, run⟩ : ∃ wrapped, IndeterminateFinding.new undecidedFinding
      [⟨.naclIngress, .missingRouteTable "subnet-a"⟩,
        ⟨.sgEgress, .unresolvedSecurityGroupReference "sg-a"⟩] = .ok wrapped := ⟨_, rfl⟩
  obtain ⟨scope, scopeRun⟩ : ∃ scope, ReportScope.decode misordered.summary.scope = .ok scope :=
    ⟨⟨_, _, _, by decide, by decide⟩, ReportScope.decode_eq_ok_iff.mpr ⟨rfl, rfl, rfl⟩⟩
  obtain ⟨accounts, regions, unresolved⟩ := ReportScope.decode_eq_ok_iff.mp scopeRun
  obtain ⟨epoch, converted⟩ : ∃ epoch, misordered.summary.generatedAt.toOffset utc = some epoch :=
    ⟨_, rfl⟩
  obtain ⟨offset, instant⟩ := OffsetDateTime.toOffset_eq_some_iff.mp converted
  exact ⟨⟨⟨epoch, scope, ⟨0, 0, 1⟩, "0.1.0"⟩, [], [], [wrapped], rfl, offset⟩,
    ⟨instant, accounts, regions, unresolved, rfl, rfl, .nil, .nil,
      .cons (IndeterminateFinding.new_eq_ok_iff.mp run) .nil⟩⟩

/-- That document decodes, and so does what `AuditReport.new` makes of its parts. -/
theorem report_round_trip_misordered :
    ∃ report rebuilt, AuditReport.decode misordered = .ok report ∧ Consistent report ∧
      AuditReport.new report.summary.scope "0.1.0" misordered.summary.generatedAt report.reachable
        report.notReachable report.indeterminate = some rebuilt ∧
      AuditReport.decode rebuilt.encode = .ok rebuilt := by
  obtain ⟨report, denoted⟩ := misordered_denotes
  have decoded := AuditReport.decode_eq_ok_iff.mpr denoted
  obtain ⟨rebuilt, built⟩ : ∃ rebuilt, AuditReport.new report.summary.scope "0.1.0"
      misordered.summary.generatedAt report.reachable report.notReachable report.indeterminate =
        some rebuilt := ⟨_, rfl⟩
  obtain ⟨builtReads, decodedReads⟩ := report_round_trip
  exact ⟨report, rebuilt, decoded, (decodedReads _ _ decoded).1, built,
    builtReads _ _ _ _ _ _ _ built⟩

end NetHound.Soundness
