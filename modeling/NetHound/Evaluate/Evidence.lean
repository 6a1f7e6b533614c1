import NetHound.Domain.Encode
import NetHound.Evaluate.Path
import NetHound.Serde.Within

/-! # Encoding evidence and findings

The derived encoders and decoders of the evidence in `evaluate/mod.rs` and `evaluate/path.rs` and of
`domain/finding.rs`. What is encoded is read back when its rule indices fit their machine word, and every
decoder is tolerant.
-/

namespace NetHound.Evaluate

open Domain Serde

/-- A `usize` of 64 bits. -/
def FitsUsize (value : ℕ) : Prop := value < UInt64.size

/-- `usize::try_from`. -/
def usizeTryFrom (value : ℤ) : Option ℕ :=
  if 0 ≤ value ∧ value < UInt64.size then some value.toNat else none

def decodeUsize (value : Value) : Option ℕ := value.asInteger.bind usizeTryFrom

def encodeUsize (value : ℕ) : Value := .integer value

theorem decodeUsize_encodeUsize {value : ℕ} (fits : FitsUsize value) :
    decodeUsize (encodeUsize value) = some value := by
  have small : (0 : ℤ) ≤ value ∧ (value : ℤ) < UInt64.size := ⟨Int.natCast_nonneg _, Int.ofNat_lt.mpr fits⟩
  rw [encodeUsize, decodeUsize, Value.asInteger, Option.bind_some, usizeTryFrom, if_pos small, Int.toNat_natCast]

theorem tolerant_decodeUsize : Tolerant decodeUsize := tolerant_asInteger.bind _

private theorem tolerant_u16 : Tolerant decodeU16 := tolerant_asInteger.bind _

/-! ## Layers and severities -/

def EvaluationLayer.name : EvaluationLayer → String
  | .sgEgress => "sg_egress"
  | .naclEgress => "nacl_egress"
  | .naclIngress => "nacl_ingress"
  | .sgIngress => "sg_ingress"

def EvaluationLayer.ofName : String → Option EvaluationLayer
  | "sg_egress" => some .sgEgress
  | "nacl_egress" => some .naclEgress
  | "nacl_ingress" => some .naclIngress
  | "sg_ingress" => some .sgIngress
  | _ => none

def EvaluationLayer.decode (value : Value) : Option EvaluationLayer := value.asString.bind ofName

def EvaluationLayer.encode (layer : EvaluationLayer) : Value := .string layer.name

theorem EvaluationLayer.roundTrips : RoundTrips decode encode := by
  intro layer
  cases layer <;> rfl

theorem EvaluationLayer.tolerant : Tolerant decode := tolerant_asString.bind _

def Severity.name : Severity → String
  | .low => "low"
  | .medium => "medium"
  | .high => "high"
  | .critical => "critical"

def Severity.ofName : String → Option Severity
  | "low" => some .low
  | "medium" => some .medium
  | "high" => some .high
  | "critical" => some .critical
  | _ => none

def Severity.decode (value : Value) : Option Severity := value.asString.bind ofName

def Severity.encode (severity : Severity) : Value := .string severity.name

theorem Severity.roundTrips : RoundTrips decode encode := by
  intro severity
  cases severity <;> rfl

theorem Severity.tolerant : Tolerant decode := tolerant_asString.bind _

/-! ## Verdicts -/

def securityGroupRefFields :=
  (field "security_group_id" Value.asString).both (field "rule_index" decodeUsize)

def networkAclRefFields :=
  (field "network_acl_id" Value.asString).both (field "rule_number" decodeU16)

def RuleRef.variant : String → Entries → Option RuleRef
  | "security_group" => fun content => do
      let (securityGroupId, ruleIndex) ← (securityGroupRefFields.read content).1
      return .securityGroup securityGroupId ruleIndex
  | "network_acl" => fun content => do
      let (networkAclId, ruleNumber) ← (networkAclRefFields.read content).1
      return .networkAcl networkAclId ruleNumber
  | _ => fun _ => none

/-- A rule reference, internally tagged `layer`. -/
def RuleRef.decode : Value → Option RuleRef := tagged "layer" RuleRef.variant

def RuleRef.encode : RuleRef → Value
  | .securityGroup securityGroupId ruleIndex =>
      .map [("layer", .string "security_group"), ("security_group_id", .string securityGroupId),
        ("rule_index", encodeUsize ruleIndex)]
  | .networkAcl networkAclId ruleNumber =>
      .map [("layer", .string "network_acl"), ("network_acl_id", .string networkAclId),
        ("rule_number", encodeU16 ruleNumber)]

def DenyReason.variant : String → Entries → Option DenyReason
  | "no_matching_rule" => fun _ => some .noMatchingRule
  | "explicit_deny" => fun content => do
      let matchedBy ← ((field "matched_by" RuleRef.decode).read content).1
      return .explicitDeny matchedBy
  | _ => fun _ => none

/-- A reason to deny, internally tagged `kind`. -/
def DenyReason.decode : Value → Option DenyReason := tagged "kind" DenyReason.variant

def DenyReason.encode : DenyReason → Value
  | .noMatchingRule => .map [("kind", .string "no_matching_rule")]
  | .explicitDeny matchedBy => .map [("kind", .string "explicit_deny"), ("matched_by", matchedBy.encode)]

def IndeterminateReason.variant : String → Entries → Option IndeterminateReason
  | "unresolved_reference" => fun content => do
      let securityGroupId ← ((field "security_group_id" Value.asString).read content).1
      return .unresolvedReference securityGroupId
  | _ => fun _ => none

/-- A reason not to decide, internally tagged `kind`. -/
def IndeterminateReason.decode : Value → Option IndeterminateReason := tagged "kind" IndeterminateReason.variant

def IndeterminateReason.encode : IndeterminateReason → Value
  | .unresolvedReference securityGroupId =>
      .map [("kind", .string "unresolved_reference"), ("security_group_id", .string securityGroupId)]

def Verdict.variant : String → Entries → Option Verdict
  | "allowed" => fun content => do
      let matchedBy ← ((field "matched_by" RuleRef.decode).read content).1
      return .allowed matchedBy
  | "denied" => fun content => do
      let reason ← ((field "reason" DenyReason.decode).read content).1
      return .denied reason
  | "indeterminate" => fun content => do
      let reason ← ((field "reason" IndeterminateReason.decode).read content).1
      return .indeterminate reason
  | _ => fun _ => none

/-- A verdict, internally tagged `verdict`. -/
def Verdict.decode : Value → Option Verdict := tagged "verdict" Verdict.variant

def Verdict.encode : Verdict → Value
  | .allowed matchedBy => .map [("verdict", .string "allowed"), ("matched_by", matchedBy.encode)]
  | .denied reason => .map [("verdict", .string "denied"), ("reason", reason.encode)]
  | .indeterminate reason => .map [("verdict", .string "indeterminate"), ("reason", reason.encode)]

theorem RuleRef.tolerant : Tolerant RuleRef.decode := by
  have securityGroup : securityGroupRefFields.Tolerant :=
    tolerant_asString.field_both (tolerant_decodeUsize.field _) rfl
  have networkAcl : networkAclRefFields.Tolerant := tolerant_asString.field_both (tolerant_u16.field _) rfl
  refine tolerant_tagged fun kind => ?_
  unfold RuleRef.variant
  split
  · exact securityGroup.bind _
  · exact networkAcl.bind _
  · exact tolerantRead_const none

theorem DenyReason.tolerant : Tolerant DenyReason.decode := by
  refine tolerant_tagged fun kind => ?_
  unfold DenyReason.variant
  split
  · exact tolerantRead_const _
  · exact (RuleRef.tolerant.field _).bind _
  · exact tolerantRead_const none

theorem IndeterminateReason.tolerant : Tolerant IndeterminateReason.decode := by
  refine tolerant_tagged fun kind => ?_
  unfold IndeterminateReason.variant
  split
  · exact (tolerant_asString.field _).bind _
  · exact tolerantRead_const none

theorem Verdict.tolerant : Tolerant Verdict.decode := by
  refine tolerant_tagged fun kind => ?_
  unfold Verdict.variant
  split
  · exact (RuleRef.tolerant.field _).bind _
  · exact (DenyReason.tolerant.field _).bind _
  · exact (IndeterminateReason.tolerant.field _).bind _
  · exact tolerantRead_const none

/-- Every number in it fits its machine word. -/
def RuleRef.Sized : RuleRef → Prop
  | .securityGroup _ ruleIndex => FitsUsize ruleIndex
  | .networkAcl _ _ => True

/-- The rule a verdict names. -/
def Verdict.ruleRef : Verdict → Option RuleRef
  | .allowed matchedBy => some matchedBy
  | .denied (.explicitDeny matchedBy) => some matchedBy
  | _ => none

def Verdict.Sized (verdict : Verdict) : Prop := ∀ ruleRef ∈ verdict.ruleRef, ruleRef.Sized

theorem RuleRef.decode_encode {ruleRef : RuleRef} (sized : ruleRef.Sized) :
    RuleRef.decode ruleRef.encode = some ruleRef := by
  cases ruleRef with
  | securityGroup securityGroupId ruleIndex =>
    rw [encode, decode, tagged_cons (by simp)]
    have read : (securityGroupRefFields.read [("security_group_id", .string securityGroupId),
        ("rule_index", encodeUsize ruleIndex)]).1 = some (securityGroupId, ruleIndex) :=
      field_both_reads rfl rfl rfl (field_reads rfl (decodeUsize_encodeUsize sized))
    simp only [variant, read]
    rfl
  | networkAcl networkAclId ruleNumber =>
    rw [encode, decode, tagged_cons (by simp)]
    have read : (networkAclRefFields.read [("network_acl_id", .string networkAclId),
        ("rule_number", encodeU16 ruleNumber)]).1 = some (networkAclId, ruleNumber) :=
      field_both_reads rfl rfl rfl (field_reads rfl (roundTrips_u16 ruleNumber))
    simp only [variant, read]
    rfl

theorem DenyReason.decode_encode {reason : DenyReason} (sized : (Verdict.denied reason).Sized) :
    DenyReason.decode reason.encode = some reason := by
  cases reason with
  | noMatchingRule =>
    rw [encode, decode, tagged_cons (by simp)]
    rfl
  | explicitDeny matchedBy =>
    rw [encode, decode, tagged_cons (by simp)]
    have read : ((field "matched_by" RuleRef.decode).read [("matched_by", matchedBy.encode)]).1 = some matchedBy :=
      field_reads rfl (RuleRef.decode_encode (sized matchedBy rfl))
    simp only [variant, read]
    rfl

theorem IndeterminateReason.roundTrips : RoundTrips decode encode := by
  rintro ⟨securityGroupId⟩
  rw [encode, decode, tagged_cons (by simp)]
  rfl

theorem Verdict.decode_encode {verdict : Verdict} (sized : verdict.Sized) :
    Verdict.decode verdict.encode = some verdict := by
  cases verdict with
  | allowed matchedBy =>
    rw [encode, decode, tagged_cons (by simp)]
    have read : ((field "matched_by" RuleRef.decode).read [("matched_by", matchedBy.encode)]).1 = some matchedBy :=
      field_reads rfl (RuleRef.decode_encode (sized matchedBy rfl))
    simp only [variant, read]
    rfl
  | denied reason =>
    rw [encode, decode, tagged_cons (by simp)]
    have read : ((field "reason" DenyReason.decode).read [("reason", reason.encode)]).1 = some reason :=
      field_reads rfl (DenyReason.decode_encode sized)
    simp only [variant, read]
    rfl
  | indeterminate reason =>
    rw [encode, decode, tagged_cons (by simp)]
    have read : ((field "reason" IndeterminateReason.decode).read [("reason", reason.encode)]).1 = some reason :=
      field_reads rfl (IndeterminateReason.roundTrips reason)
    simp only [variant, read]
    rfl

/-! ## Findings -/

def evaluationStepFields :=
  (field "layer" EvaluationLayer.decode).both
    ((field "resource_id" Value.asString).both (field "verdict" Verdict.decode))

def EvaluationStep.decode (value : Value) : Option EvaluationStep := do
  let (layer, resourceId, verdict) ← evaluationStepFields.struct value
  return { layer, resourceId, verdict }

def EvaluationStep.encode (step : EvaluationStep) : Value :=
  .map [("layer", step.layer.encode), ("resource_id", .string step.resourceId), ("verdict", step.verdict.encode)]

def pathEvidenceFields := field "steps" (Value.asList EvaluationStep.decode)

def PathEvidence.decode (value : Value) : Option PathEvidence := do
  let steps ← pathEvidenceFields.struct value
  return { steps }

def PathEvidence.encode (evidence : PathEvidence) : Value :=
  .map [("steps", Value.ofList EvaluationStep.encode evidence.steps)]

def Reachability.variant : String → Entries → Option Reachability
  | "reachable" => fun _ => some .reachable
  | "not_reachable" => fun _ => some .notReachable
  | "indeterminate" => fun content => do
      let layers ← ((field "layers" (Value.asList EvaluationLayer.decode)).read content).1
      return .indeterminate layers
  | _ => fun _ => none

/-- A reachability, internally tagged `outcome`. -/
def Reachability.decode : Value → Option Reachability := tagged "outcome" Reachability.variant

def Reachability.encode : Reachability → Value
  | .reachable => .map [("outcome", .string "reachable")]
  | .notReachable => .map [("outcome", .string "not_reachable")]
  | .indeterminate layers =>
      .map [("outcome", .string "indeterminate"), ("layers", Value.ofList EvaluationLayer.encode layers)]

def findingFields :=
  (field "computed_at" Value.asString).both
    ((field "source" Value.asString).both
      ((field "destination_boundary" Value.asString).both
        ((field "path_evidence" PathEvidence.decode).both
          ((field "reachability" Reachability.decode).both (field "severity" Severity.decode)))))

def ReachabilityFinding.decode (value : Value) : Option ReachabilityFinding := do
  let (computedAt, source, destinationBoundary, pathEvidence, reachability, severity) ←
    findingFields.struct value
  return { computedAt, source, destinationBoundary, pathEvidence, reachability, severity }

def ReachabilityFinding.encode (finding : ReachabilityFinding) : Value :=
  .map [("computed_at", .string finding.computedAt), ("source", .string finding.source),
    ("destination_boundary", .string finding.destinationBoundary),
    ("path_evidence", finding.pathEvidence.encode), ("reachability", finding.reachability.encode),
    ("severity", finding.severity.encode)]

theorem EvaluationStep.tolerant : Tolerant EvaluationStep.decode := by
  have fields : evaluationStepFields.Tolerant :=
    EvaluationLayer.tolerant.field_both (tolerant_asString.field_both (Verdict.tolerant.field _) rfl) rfl
  exact fields.struct.bind _

theorem PathEvidence.tolerant : Tolerant PathEvidence.decode := by
  have fields : pathEvidenceFields.Tolerant := EvaluationStep.tolerant.asList.field _
  exact fields.struct.bind _

theorem Reachability.tolerant : Tolerant Reachability.decode := by
  refine tolerant_tagged fun kind => ?_
  unfold Reachability.variant
  split
  · exact tolerantRead_const _
  · exact tolerantRead_const _
  · exact (EvaluationLayer.tolerant.asList.field _).bind _
  · exact tolerantRead_const none

theorem ReachabilityFinding.tolerant : Tolerant ReachabilityFinding.decode := by
  have outcome : ((field "reachability" Reachability.decode).both (field "severity" Severity.decode)).Tolerant :=
    Reachability.tolerant.field_both (Severity.tolerant.field _) rfl
  have fields : findingFields.Tolerant :=
    tolerant_asString.field_both (tolerant_asString.field_both (tolerant_asString.field_both
      (PathEvidence.tolerant.field_both outcome rfl) rfl) rfl) rfl
  exact fields.struct.bind _

def ReachabilityFinding.Sized (finding : ReachabilityFinding) : Prop :=
  ∀ step ∈ finding.pathEvidence.steps, step.verdict.Sized

theorem EvaluationStep.decode_encode {step : EvaluationStep} (sized : step.verdict.Sized) :
    EvaluationStep.decode step.encode = some step := by
  have read : evaluationStepFields.struct step.encode = some (step.layer, step.resourceId, step.verdict) :=
    struct_reads <| field_both_reads rfl rfl (EvaluationLayer.roundTrips _)
      (field_both_reads rfl rfl rfl (field_reads rfl (Verdict.decode_encode sized)))
  rw [decode, read]
  rfl

theorem PathEvidence.decode_encode {evidence : PathEvidence}
    (sized : ∀ step ∈ evidence.steps, step.verdict.Sized) : PathEvidence.decode evidence.encode = some evidence := by
  have steps : Value.asList EvaluationStep.decode (Value.ofList EvaluationStep.encode evidence.steps) =
      some evidence.steps := asList_ofList fun step member => EvaluationStep.decode_encode (sized step member)
  have read : pathEvidenceFields.struct evidence.encode = some evidence.steps := struct_reads <| field_reads rfl steps
  rw [decode, read]
  rfl

theorem Reachability.roundTrips : RoundTrips decode encode := by
  intro reachability
  cases reachability with
  | reachable =>
    rw [encode, decode, tagged_cons (by simp)]
    rfl
  | notReachable =>
    rw [encode, decode, tagged_cons (by simp)]
    rfl
  | indeterminate layers =>
    rw [encode, decode, tagged_cons (by simp)]
    have read : ((field "layers" (Value.asList EvaluationLayer.decode)).read
        [("layers", Value.ofList EvaluationLayer.encode layers)]).1 = some layers :=
      field_reads rfl (EvaluationLayer.roundTrips.asList layers)
    simp only [variant, read]
    rfl

/-- A finding is read back with all its evidence. -/
theorem ReachabilityFinding.decode_encode {finding : ReachabilityFinding} (sized : finding.Sized) :
    ReachabilityFinding.decode finding.encode = some finding := by
  have read : findingFields.struct finding.encode = some (finding.computedAt, finding.source,
      finding.destinationBoundary, finding.pathEvidence, finding.reachability, finding.severity) :=
    struct_reads <| field_both_reads rfl rfl rfl (field_both_reads rfl rfl rfl (field_both_reads rfl rfl rfl
      (field_both_reads rfl rfl (PathEvidence.decode_encode sized)
        (field_both_reads rfl rfl (Reachability.roundTrips _)
          (field_reads rfl (Severity.roundTrips _))))))
  rw [decode, read]
  rfl

end NetHound.Evaluate
