import NetHound.Evaluate.Evidence
import NetHound.Report.Reading

/-! # Reports as JSON

The derived encoders and decoders of `report/model.rs` down to the members of the JSON document. The texts of
times are written and read by a parameter, which may refuse a time.
-/

namespace NetHound.Report

open Domain Evaluate Serde

/-- The RFC 3339 writer and reader of times. -/
structure Rfc3339 where
  format : OffsetDateTime → Option String
  parse : String → Option OffsetDateTime

/-- A UTC time that can be written is read back. -/
def Rfc3339.Lossless (rfc3339 : Rfc3339) : Prop :=
  ∀ time text, time.offset = utc → rfc3339.format time = some text → rfc3339.parse text = some time

/-! ## Causes -/

def IndeterminateCause.variant : String → Entries → Option IndeterminateCause
  | "unresolved_cross_account_reference" => fun content => do
      let accountId ← ((field "account_id" Value.asString).read content).1
      return .unresolvedCrossAccountReference accountId
  | "unresolved_security_group_reference" => fun content => do
      let groupId ← ((field "group_id" Value.asString).read content).1
      return .unresolvedSecurityGroupReference groupId
  | "missing_route_table" => fun content => do
      let subnetId ← ((field "subnet_id" Value.asString).read content).1
      return .missingRouteTable subnetId
  | "other" => fun content => do
      let detail ← ((field "detail" Value.asString).read content).1
      return .other detail
  | _ => fun _ => none

/-- A cause, internally tagged `kind`. -/
def IndeterminateCause.decode : Value → Option IndeterminateCause := tagged "kind" IndeterminateCause.variant

def IndeterminateCause.encode : IndeterminateCause → Value
  | .unresolvedCrossAccountReference accountId =>
      .map [("kind", .string "unresolved_cross_account_reference"), ("account_id", .string accountId)]
  | .unresolvedSecurityGroupReference groupId =>
      .map [("kind", .string "unresolved_security_group_reference"), ("group_id", .string groupId)]
  | .missingRouteTable subnetId =>
      .map [("kind", .string "missing_route_table"), ("subnet_id", .string subnetId)]
  | .other detail => .map [("kind", .string "other"), ("detail", .string detail)]

def layerCauseFields := (field "layer" EvaluationLayer.decode).both (field "cause" IndeterminateCause.decode)

def LayerCause.decode (value : Value) : Option LayerCause := do
  let (layer, cause) ← layerCauseFields.struct value
  return { layer, cause }

def LayerCause.encode (cause : LayerCause) : Value :=
  .map [("layer", cause.layer.encode), ("cause", cause.cause.encode)]

theorem IndeterminateCause.tolerant : Tolerant IndeterminateCause.decode := by
  refine tolerant_tagged fun kind => ?_
  unfold IndeterminateCause.variant
  split
  · exact (tolerant_asString.field _).bind _
  · exact (tolerant_asString.field _).bind _
  · exact (tolerant_asString.field _).bind _
  · exact (tolerant_asString.field _).bind _
  · exact tolerantRead_const none

theorem IndeterminateCause.roundTrips : RoundTrips decode encode := by
  intro cause
  cases cause <;>
  · rw [encode, decode, tagged_cons (by simp)]
    rfl

theorem LayerCause.tolerant : Tolerant LayerCause.decode := by
  have fields : layerCauseFields.Tolerant :=
    EvaluationLayer.tolerant.field_both (IndeterminateCause.tolerant.field _) rfl
  exact fields.struct.bind _

theorem LayerCause.roundTrips : RoundTrips decode encode := by
  intro cause
  have read : layerCauseFields.struct cause.encode = some (cause.layer, cause.cause) :=
    struct_reads <| field_both_reads rfl rfl (EvaluationLayer.roundTrips _)
      (field_reads rfl (IndeterminateCause.roundTrips _))
  rw [decode, read]
  rfl

/-! ## Wire types -/

def findingWireFields := field "finding" ReachabilityFinding.decode

def FindingWire.decode (value : Value) : Option FindingWire := do
  let finding ← findingWireFields.struct value
  return { finding }

def FindingWire.encode (wire : FindingWire) : Value := .map [("finding", wire.finding.encode)]

def indeterminateWireFields :=
  (field "finding" ReachabilityFinding.decode).both (field "causes" (Value.asList LayerCause.decode))

def IndeterminateWire.decode (value : Value) : Option IndeterminateWire := do
  let (finding, causes) ← indeterminateWireFields.struct value
  return { finding, causes }

def IndeterminateWire.encode (wire : IndeterminateWire) : Value :=
  .map [("finding", wire.finding.encode), ("causes", Value.ofList LayerCause.encode wire.causes)]

def scopeFields :=
  (field "accounts" (Value.asList Value.asString)).both
    ((field "regions" (Value.asList Value.asString)).both (field "unresolved_reference_count" decodeUsize))

def Document.Scope.decode (value : Value) : Option Scope := do
  let (accounts, regions, unresolvedReferenceCount) ← scopeFields.struct value
  return { accounts, regions, unresolvedReferenceCount }

def Document.Scope.encode (scope : Scope) : Value :=
  .map [("accounts", Value.ofList .string scope.accounts), ("regions", Value.ofList .string scope.regions),
    ("unresolved_reference_count", encodeUsize scope.unresolvedReferenceCount)]

def countsFields :=
  (field "reachable" decodeUsize).both
    ((field "not_reachable" decodeUsize).both (field "indeterminate" decodeUsize))

def ReportCounts.decode (value : Value) : Option ReportCounts := do
  let (reachable, notReachable, indeterminate) ← countsFields.struct value
  return { reachable, notReachable, indeterminate }

def ReportCounts.encode (counts : ReportCounts) : Value :=
  .map [("reachable", encodeUsize counts.reachable), ("not_reachable", encodeUsize counts.notReachable),
    ("indeterminate", encodeUsize counts.indeterminate)]

section Times

variable (rfc3339 : Rfc3339)

def Rfc3339.decode (value : Value) : Option OffsetDateTime := value.asString.bind rfc3339.parse

def summaryFields :=
  (field "generated_at" rfc3339.decode).both
    ((field "scope" Document.Scope.decode).both
      ((field "counts" ReportCounts.decode).both (field "tool_version" Value.asString)))

def Document.Summary.decode (value : Value) : Option Summary := do
  let (generatedAt, scope, counts, toolVersion) ← (summaryFields rfc3339).struct value
  return { generatedAt, scope, counts, toolVersion }

/-- The encoding of a summary whose time can be written. -/
def Document.Summary.encode (summary : Summary) : Option Value := do
  let generatedAt ← rfc3339.format summary.generatedAt
  return .map [("generated_at", .string generatedAt), ("scope", summary.scope.encode),
    ("counts", summary.counts.encode), ("tool_version", .string summary.toolVersion)]

def documentFields :=
  (field "summary" (Document.Summary.decode rfc3339)).both
    ((field "reachable" (Value.asList FindingWire.decode)).both
      ((field "not_reachable" (Value.asList FindingWire.decode)).both
        (field "indeterminate" (Value.asList IndeterminateWire.decode))))

def Document.decode (value : Value) : Option Document := do
  let (summary, reachable, notReachable, indeterminate) ← (documentFields rfc3339).struct value
  return { summary, reachable, notReachable, indeterminate }

def Document.encode (document : Document) : Option Value := do
  let summary ← document.summary.encode rfc3339
  return .map [("summary", summary), ("reachable", Value.ofList FindingWire.encode document.reachable),
    ("not_reachable", Value.ofList FindingWire.encode document.notReachable),
    ("indeterminate", Value.ofList IndeterminateWire.encode document.indeterminate)]

def AuditReport.serialize (report : AuditReport) : Option Value := report.encode.encode rfc3339

/-- A report read off a document, through every check of its parts. -/
def AuditReport.deserialize (value : Value) : Option AuditReport := do
  let document ← Document.decode rfc3339 value
  (AuditReport.decode document).toOption

end Times

/-! ## Tolerance -/

theorem FindingWire.tolerant : Tolerant FindingWire.decode := by
  have fields : findingWireFields.Tolerant := ReachabilityFinding.tolerant.field _
  exact fields.struct.bind _

theorem IndeterminateWire.tolerant : Tolerant IndeterminateWire.decode := by
  have fields : indeterminateWireFields.Tolerant :=
    ReachabilityFinding.tolerant.field_both (LayerCause.tolerant.asList.field _) rfl
  exact fields.struct.bind _

theorem Document.Scope.tolerant : Tolerant Document.Scope.decode := by
  have fields : scopeFields.Tolerant :=
    tolerant_asString.asList.field_both
      (tolerant_asString.asList.field_both (tolerant_decodeUsize.field _) rfl) rfl
  exact fields.struct.bind _

theorem ReportCounts.tolerant : Tolerant ReportCounts.decode := by
  have fields : countsFields.Tolerant :=
    tolerant_decodeUsize.field_both (tolerant_decodeUsize.field_both (tolerant_decodeUsize.field _) rfl) rfl
  exact fields.struct.bind _

theorem Document.Summary.tolerant (rfc3339 : Rfc3339) : Tolerant (Document.Summary.decode rfc3339) := by
  have time : Tolerant rfc3339.decode := tolerant_asString.bind _
  have fields : (summaryFields rfc3339).Tolerant :=
    time.field_both (Document.Scope.tolerant.field_both
      (ReportCounts.tolerant.field_both (tolerant_asString.field _) rfl) rfl) rfl
  exact fields.struct.bind _

theorem Document.tolerant (rfc3339 : Rfc3339) : Tolerant (Document.decode rfc3339) := by
  have fields : (documentFields rfc3339).Tolerant :=
    (Document.Summary.tolerant rfc3339).field_both (FindingWire.tolerant.asList.field_both
      (FindingWire.tolerant.asList.field_both (IndeterminateWire.tolerant.asList.field _) rfl) rfl) rfl
  exact fields.struct.bind _

/-- A report is read the same off every document that says more. -/
theorem AuditReport.tolerant (rfc3339 : Rfc3339) : Tolerant (AuditReport.deserialize rfc3339) :=
  (Document.tolerant rfc3339).bind _

/-! ## Reading back -/

theorem FindingWire.decode_encode {wire : FindingWire} (sized : wire.finding.Sized) :
    FindingWire.decode wire.encode = some wire := by
  have read : findingWireFields.struct wire.encode = some wire.finding :=
    struct_reads <| field_reads rfl (ReachabilityFinding.decode_encode sized)
  rw [decode, read]
  rfl

theorem IndeterminateWire.decode_encode {wire : IndeterminateWire} (sized : wire.finding.Sized) :
    IndeterminateWire.decode wire.encode = some wire := by
  have read : indeterminateWireFields.struct wire.encode = some (wire.finding, wire.causes) :=
    struct_reads <| field_both_reads rfl rfl (ReachabilityFinding.decode_encode sized)
      (field_reads rfl (LayerCause.roundTrips.asList _))
  rw [decode, read]
  rfl

theorem Document.Scope.decode_encode {scope : Document.Scope}
    (sized : FitsUsize scope.unresolvedReferenceCount) :
    Document.Scope.decode scope.encode = some scope := by
  have read : scopeFields.struct scope.encode =
      some (scope.accounts, scope.regions, scope.unresolvedReferenceCount) :=
    struct_reads <| field_both_reads rfl rfl (roundTrips_string.asList _)
      (field_both_reads rfl rfl (roundTrips_string.asList _) (field_reads rfl (decodeUsize_encodeUsize sized)))
  rw [decode, read]
  rfl

/-- Every count fits its machine word. -/
structure ReportCounts.Sized (counts : ReportCounts) : Prop where
  reachable : FitsUsize counts.reachable
  notReachable : FitsUsize counts.notReachable
  indeterminate : FitsUsize counts.indeterminate

theorem ReportCounts.decode_encode {counts : ReportCounts} (sized : counts.Sized) :
    ReportCounts.decode counts.encode = some counts := by
  have read : countsFields.struct counts.encode =
      some (counts.reachable, counts.notReachable, counts.indeterminate) :=
    struct_reads <| field_both_reads rfl rfl (decodeUsize_encodeUsize sized.reachable)
      (field_both_reads rfl rfl (decodeUsize_encodeUsize sized.notReachable)
        (field_reads rfl (decodeUsize_encodeUsize sized.indeterminate)))
  rw [decode, read]
  rfl

theorem Document.Summary.decode_encode {rfc3339 : Rfc3339} (lossless : rfc3339.Lossless)
    {summary : Document.Summary} (inUtc : summary.generatedAt.offset = utc)
    (scope : FitsUsize summary.scope.unresolvedReferenceCount) (counts : summary.counts.Sized) {value : Value}
    (written : summary.encode rfc3339 = some value) :
    Document.Summary.decode rfc3339 value = some summary := by
  obtain ⟨text, formatted, rest⟩ := Option.bind_eq_some_iff.mp written
  cases rest
  have time : rfc3339.decode (.string text) = some summary.generatedAt :=
    lossless summary.generatedAt text inUtc formatted
  have read : (summaryFields rfc3339).struct (.map [("generated_at", .string text), ("scope", summary.scope.encode),
      ("counts", summary.counts.encode), ("tool_version", .string summary.toolVersion)]) =
        some (summary.generatedAt, summary.scope, summary.counts, summary.toolVersion) :=
    struct_reads <| field_both_reads rfl rfl time
      (field_both_reads rfl rfl (Document.Scope.decode_encode scope)
        (field_both_reads rfl rfl (ReportCounts.decode_encode counts) (field_reads rfl rfl)))
  rw [decode, read]
  rfl

/-- Every number in a report fits its machine word. -/
structure AuditReport.Sized (report : AuditReport) : Prop where
  reachable : ∀ wrapped ∈ report.reachable, wrapped.finding.Sized
  notReachable : ∀ wrapped ∈ report.notReachable, wrapped.finding.Sized
  indeterminate : ∀ wrapped ∈ report.indeterminate, wrapped.finding.Sized
  counts : report.summary.counts.Sized
  unresolvedReferenceCount : FitsUsize report.summary.scope.unresolvedReferenceCount

private theorem asList_decided {reachability : Reachability} {population : List (DecidedFinding reachability)}
    (sized : ∀ wrapped ∈ population, wrapped.finding.Sized) :
    Value.asList FindingWire.decode (Value.ofList FindingWire.encode (population.map DecidedFinding.encode)) =
      some (population.map DecidedFinding.encode) := by
  apply asList_ofList
  rw [List.forall_mem_map]
  exact fun wrapped member => FindingWire.decode_encode (sized wrapped member)

/-- A report that can be written is read back. -/
theorem AuditReport.deserialize_serialize {rfc3339 : Rfc3339} (lossless : rfc3339.Lossless)
    {report : AuditReport} (sized : report.Sized) {value : Value}
    (written : report.serialize rfc3339 = some value) :
    AuditReport.deserialize rfc3339 value = some report := by
  obtain ⟨summary, writtenSummary, rest⟩ := Option.bind_eq_some_iff.mp written
  cases rest
  have readSummary := Document.Summary.decode_encode lossless report.inUtc sized.unresolvedReferenceCount
    sized.counts writtenSummary
  have undecided : Value.asList IndeterminateWire.decode
      (Value.ofList IndeterminateWire.encode report.encode.indeterminate) = some report.encode.indeterminate := by
    apply asList_ofList
    change ∀ wire ∈ report.indeterminate.map IndeterminateFinding.encode, _
    rw [List.forall_mem_map]
    exact fun wrapped member => IndeterminateWire.decode_encode (sized.indeterminate wrapped member)
  have read : (documentFields rfc3339).struct (.map [("summary", summary),
      ("reachable", Value.ofList FindingWire.encode report.encode.reachable),
      ("not_reachable", Value.ofList FindingWire.encode report.encode.notReachable),
      ("indeterminate", Value.ofList IndeterminateWire.encode report.encode.indeterminate)]) =
        some (report.encode.summary, report.encode.reachable, report.encode.notReachable,
          report.encode.indeterminate) :=
    struct_reads <| field_both_reads rfl rfl readSummary
      (field_both_reads rfl rfl (asList_decided sized.reachable)
        (field_both_reads rfl rfl (asList_decided sized.notReachable) (field_reads rfl undecided)))
  have checked : AuditReport.decode report.encode = .ok report :=
    AuditReport.decode_eq_ok_iff.mpr report.encode_denotes
  rw [deserialize, Document.decode, read]
  change (AuditReport.decode report.encode).toOption = some report
  rw [checked]
  rfl

end NetHound.Report
