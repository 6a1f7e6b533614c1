import NetHound.Report.Wire

/-! # What a document denotes

One relation between a document and the report it is read as. Decoding succeeds with a report exactly
when the document denotes it, whatever the order of its causes and its accounts, the repeats in its
sets and the offset of its time; and every report is denoted by its own encoding.
-/

namespace NetHound.Report

open Evaluate

/-- The document denotes this report. -/
structure Document.Denotes (document : Document) (report : AuditReport) :
    Prop where
  instant : report.summary.generatedAt.unixNanos = document.summary.generatedAt.unixNanos
  accounts : report.summary.scope.accounts = document.summary.scope.accounts.toFinset
  regions : report.summary.scope.regions = document.summary.scope.regions.toFinset
  unresolved : report.summary.scope.unresolvedReferenceCount =
    document.summary.scope.unresolvedReferenceCount
  counts : report.summary.counts = document.summary.counts
  toolVersion : report.summary.toolVersion = document.summary.toolVersion
  reachable : document.reachable.Forall₂ (fun wire wrapped => wrapped.finding = wire.finding)
    report.reachable
  notReachable : document.notReachable.Forall₂ (fun wire wrapped => wrapped.finding = wire.finding)
    report.notReachable
  indeterminate : document.indeterminate.Forall₂
    (fun wire wrapped => wrapped.finding = wire.finding ∧ wire.causes.Perm wrapped.causes)
    report.indeterminate

theorem ReportScope.decode_eq_ok_iff {document : Document.Scope} {scope : ReportScope} :
    ReportScope.decode document = .ok scope ↔
      scope.accounts = document.accounts.toFinset ∧ scope.regions = document.regions.toFinset ∧
        scope.unresolvedReferenceCount = document.unresolvedReferenceCount := by
  unfold ReportScope.decode ReportScope.tryFrom
  rw [ReportScope.new_eq_ok_iff, Finset.sort_toFinset, Finset.sort_toFinset]

theorem ReportSummary.decode_eq_ok_iff {document : Document.Summary} {summary : ReportSummary} :
    ReportSummary.decode document = .ok summary ↔
      ReportScope.decode document.scope = .ok summary.scope ∧
        summary.generatedAt = document.generatedAt ∧ summary.counts = document.counts ∧
        summary.toolVersion = document.toolVersion := by
  unfold ReportSummary.decode
  rw [Except.bind_eq_ok_iff]
  constructor
  · rintro ⟨scope, decoded, run⟩
    cases run
    exact ⟨decoded, rfl, rfl, rfl⟩
  · rintro ⟨decoded, generatedAt, counts, toolVersion⟩
    refine ⟨summary.scope, decoded, ?_⟩
    rw [← generatedAt, ← counts, ← toolVersion]
    rfl

theorem AuditReportWire.decode_eq_ok_iff {document : Document} {wire : AuditReportWire} :
    AuditReportWire.decode document = .ok wire ↔
      ReportSummary.decode document.summary = .ok wire.summary ∧
        document.reachable.mapM ReachableFinding.tryFrom = .ok wire.reachable ∧
        document.notReachable.mapM NotReachableFinding.tryFrom = .ok wire.notReachable ∧
        document.indeterminate.mapM IndeterminateFinding.tryFrom = .ok wire.indeterminate := by
  unfold AuditReportWire.decode
  constructor
  · intro run
    obtain ⟨summary, summaryRun, run⟩ := Except.bind_eq_ok_iff.mp run
    obtain ⟨reachable, reachableRun, run⟩ := Except.bind_eq_ok_iff.mp run
    obtain ⟨notReachable, notReachableRun, run⟩ := Except.bind_eq_ok_iff.mp run
    obtain ⟨indeterminate, indeterminateRun, run⟩ := Except.bind_eq_ok_iff.mp run
    cases run
    exact ⟨summaryRun, reachableRun, notReachableRun, indeterminateRun⟩
  · rintro ⟨summaryRun, reachableRun, notReachableRun, indeterminateRun⟩
    rw [summaryRun, reachableRun, notReachableRun, indeterminateRun]
    rfl

/-- The check of the whole keeps the parts and the instant, and asks for the right counts. -/
theorem AuditReport.tryFrom_eq_ok_iff {wire : AuditReportWire} {report : AuditReport} :
    AuditReport.tryFrom wire = .ok report ↔
      report.summary.generatedAt.unixNanos = wire.summary.generatedAt.unixNanos ∧
        report.summary = { wire.summary with generatedAt := report.summary.generatedAt } ∧
        report.reachable = wire.reachable ∧ report.notReachable = wire.notReachable ∧
        report.indeterminate = wire.indeterminate := by
  unfold AuditReport.tryFrom
  dsimp only
  constructor
  · intro run
    split at run
    · cases run
    · next agree =>
      rcases converted : wire.summary.generatedAt.toOffset utc with _ | generatedAt
      · simp only [converted, Option.pmap_none, Option.elim_none, reduceCtorEq] at run
      · simp only [converted, Option.pmap_some, Option.elim_some, Except.ok.injEq] at run
        subst run
        exact ⟨(OffsetDateTime.toOffset_eq_some_iff.mp converted).2, rfl, rfl, rfl, rfl⟩
  · rintro ⟨instant, summary, reachable, notReachable, indeterminate⟩
    have counted : wire.summary.counts =
        .fromPopulations wire.reachable wire.notReachable wire.indeterminate := by
      rw [← reachable, ← notReachable, ← indeterminate, ← report.counted, summary]
    have agree : ¬(countsMismatch wire.summary.counts
        (.fromPopulations wire.reachable wire.notReachable wire.indeterminate)).isSome := by
      rw [countsMismatch_eq_none_iff.mpr counted]
      exact Bool.false_ne_true
    have converted : wire.summary.generatedAt.toOffset utc = some report.summary.generatedAt :=
      OffsetDateTime.toOffset_eq_some_iff.mpr ⟨report.inUtc, instant⟩
    rw [dif_neg agree]
    simp only [converted, Option.pmap_some, Option.elim_some, Except.ok.injEq]
    exact AuditReport.ext summary.symm reachable.symm notReachable.symm indeterminate.symm

private theorem forall₂_decided_iff {reachability : Reachability} {population : String}
    {wires : List FindingWire} {findings : List (DecidedFinding reachability)} :
    wires.mapM (fun wire => DecidedFinding.new population wire.finding) = .ok findings ↔
      wires.Forall₂ (fun wire wrapped => wrapped.finding = wire.finding) findings := by
  rw [List.mapM_eq_ok_iff]
  simp only [DecidedFinding.new_eq_ok_iff]

/-- Decoding gives exactly the report the document denoted. -/
theorem AuditReport.decode_eq_ok_iff {document : Document} {report : AuditReport} :
    AuditReport.decode document = .ok report ↔ document.Denotes report := by
  unfold AuditReport.decode
  rw [Except.bind_eq_ok_iff]
  constructor
  · rintro ⟨wire, parts, whole⟩
    obtain ⟨summaryRun, reachableRun, notReachableRun, indeterminateRun⟩ :=
      AuditReportWire.decode_eq_ok_iff.mp (Except.mapError_eq_ok_iff.mp parts)
    obtain ⟨scopeRun, generatedAt, counts, toolVersion⟩ := ReportSummary.decode_eq_ok_iff.mp summaryRun
    obtain ⟨accounts, regions, unresolved⟩ := ReportScope.decode_eq_ok_iff.mp scopeRun
    obtain ⟨instant, summary, reachable, notReachable, indeterminate⟩ :=
      AuditReport.tryFrom_eq_ok_iff.mp whole
    rw [← reachable] at reachableRun
    rw [← notReachable] at notReachableRun
    rw [← indeterminate, List.mapM_eq_ok_iff] at indeterminateRun
    refine ⟨?_, ?_, ?_, ?_, ?_, ?_, ?_, ?_, ?_⟩
    · rw [instant, generatedAt]
    · rw [summary, ← accounts]
    · rw [summary, ← regions]
    · rw [summary, ← unresolved]
    · rw [summary, ← counts]
    · rw [summary, ← toolVersion]
    · exact forall₂_decided_iff.mp reachableRun
    · exact forall₂_decided_iff.mp notReachableRun
    · exact indeterminateRun.imp fun _ _ run => IndeterminateFinding.new_eq_ok_iff.mp run
  · intro denoted
    refine ⟨{ summary := { report.summary with generatedAt := document.summary.generatedAt }
              reachable := report.reachable
              notReachable := report.notReachable
              indeterminate := report.indeterminate }, ?_, ?_⟩
    · apply Except.mapError_eq_ok_iff.mpr
      apply AuditReportWire.decode_eq_ok_iff.mpr
      refine ⟨?_, forall₂_decided_iff.mpr denoted.reachable, forall₂_decided_iff.mpr denoted.notReachable, ?_⟩
      · apply ReportSummary.decode_eq_ok_iff.mpr
        have scope := ReportScope.decode_eq_ok_iff.mpr ⟨denoted.accounts, denoted.regions, denoted.unresolved⟩
        exact ⟨scope, rfl, denoted.counts, denoted.toolVersion⟩
      · apply List.mapM_eq_ok_iff.mpr
        exact denoted.indeterminate.imp fun _ _ same => IndeterminateFinding.new_eq_ok_iff.mpr same
    · apply AuditReport.tryFrom_eq_ok_iff.mpr
      exact ⟨denoted.instant, rfl, rfl, rfl, rfl⟩

/-- Every report is denoted by its own encoding. -/
theorem AuditReport.encode_denotes (report : AuditReport) : report.encode.Denotes report where
  instant := rfl
  accounts := (Finset.sort_toFinset _ _).symm
  regions := (Finset.sort_toFinset _ _).symm
  unresolved := rfl
  counts := rfl
  toolVersion := rfl
  reachable := List.forall₂_map_left_iff.mpr (List.forall₂_same.mpr fun _ _ => rfl)
  notReachable := List.forall₂_map_left_iff.mpr (List.forall₂_same.mpr fun _ _ => rfl)
  indeterminate :=
    List.forall₂_map_left_iff.mpr (List.forall₂_same.mpr fun _ _ => ⟨rfl, List.Perm.refl _⟩)

end NetHound.Report
