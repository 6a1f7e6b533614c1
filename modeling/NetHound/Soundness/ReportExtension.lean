import NetHound.Report.Json

/-! # Extended reports are read back

A report that was written to a JSON document is read back from every document that still says what was written:
members may stand in another order, and there may be members under other keys at any depth.
-/

namespace NetHound.Soundness

open Evaluate Report Serde

/-- Every document within which a report was written decodes to that report, with every finding, its evidence
and its causes. -/
theorem extended_report_read_back {rfc3339 : Rfc3339} (lossless : rfc3339.Lossless) {report : AuditReport}
    (sized : report.Sized) {written document : Value} (serialized : report.serialize rfc3339 = some written)
    (within : written.Within document) : AuditReport.deserialize rfc3339 document = some report :=
  AuditReport.tolerant rfc3339 within (AuditReport.deserialize_serialize lossless sized serialized)

private def epoch : OffsetDateTime := ⟨0, utc, by decide⟩

/-- What RFC 3339 has for the epoch. -/
private def epochOnly : Rfc3339 where
  format time := if time = epoch then some "1970-01-01T00:00:00Z" else none
  parse text := if text = "1970-01-01T00:00:00Z" then some epoch else none

private theorem epochOnly_lossless : epochOnly.Lossless := by
  intro time text _ formatted
  obtain ⟨rfl, same⟩ := Option.ite_none_right_eq_some.mp formatted
  cases same
  simp [epochOnly]

private def deniedFinding : ReachabilityFinding where
  computedAt := "1970-01-01T00:00:00Z"
  source := "eni-a"
  destinationBoundary := "boundary-b"
  pathEvidence := ⟨[⟨.sgEgress, "sg-a", .allowed (.securityGroup "sg-a" 3)⟩,
    ⟨.naclEgress, "acl-a", .denied (.explicitDeny (.networkAcl "acl-a" 100))⟩]⟩
  reachability := .notReachable
  severity := .low

private def deniedReport : AuditReport where
  summary := {
    generatedAt := epoch
    scope := ⟨{"111111111111"}, {"us-east-1"}, 0, by decide, by decide⟩
    counts := ⟨0, 1, 0⟩
    toolVersion := "0.1.0" }
  reachable := []
  notReachable := [⟨deniedFinding, rfl⟩]
  indeterminate := []
  counted := rfl
  inUtc := rfl

private theorem fits (value : ℕ) (small : value < 4) : FitsUsize value :=
  Nat.lt_trans small (by decide)

private theorem deniedReport_sized : deniedReport.Sized where
  reachable := List.forall_mem_nil _
  notReachable := by
    intro wrapped member
    obtain rfl := List.mem_singleton.mp member
    intro step taken
    rcases List.mem_cons.mp taken with rfl | taken
    · rintro _ ⟨⟩
      exact fits 3 (by decide)
    · obtain rfl := List.mem_singleton.mp taken
      rintro _ ⟨⟩
      exact trivial
  indeterminate := List.forall_mem_nil _
  counts := ⟨fits 0 (by decide), fits 1 (by decide), fits 0 (by decide)⟩
  unresolvedReferenceCount := fits 0 (by decide)

/-- A report whose document was turned around and given a version is read back. -/
theorem extended_report_read_back_versioned :
    ∃ entries, deniedReport.serialize epochOnly = some (.map entries) ∧
      AuditReport.deserialize epochOnly (.map (("version", .integer 2) :: entries.reverse)) = some deniedReport := by
  obtain ⟨summary, written⟩ : ∃ summary, deniedReport.encode.summary.encode epochOnly = some summary := ⟨_, rfl⟩
  have serialized : deniedReport.serialize epochOnly = some (.map [("summary", summary),
      ("reachable", Value.ofList FindingWire.encode deniedReport.encode.reachable),
      ("not_reachable", Value.ofList FindingWire.encode deniedReport.encode.notReachable),
      ("indeterminate", Value.ofList IndeterminateWire.encode deniedReport.encode.indeterminate)]) := by
    rw [AuditReport.serialize, Document.encode, written]
    rfl
  refine ⟨_, serialized, ?_⟩
  refine extended_report_read_back epochOnly_lossless deniedReport_sized serialized ?_
  refine Value.within_map_iff.mpr ⟨_, rfl, @EntriesWithin.of_perm _ [("version", .integer 2)] _ ?_ ?_⟩
  · exact List.Perm.trans (List.Perm.cons _ (List.reverse_perm _)) (List.perm_append_singleton _ _).symm
  · simp

end NetHound.Soundness
