import NetHound.Domain.Decode
import NetHound.Serde.Encode

/-! # Encoding rules

The derived encoders of `domain/rule.rs`. The port range and the target of a rule are flattened, so their
entries stand among the rule's own, and a range that is absent has none.
-/

namespace NetHound.Domain

open Serde

def encodeU16 (value : UInt16) : Value := .integer value.toNat

def Direction.encode : Direction → Value
  | .ingress => .string "ingress"
  | .egress => .string "egress"

def Action.encode : Action → Value
  | .allow => .string "allow"
  | .deny => .string "deny"

def PortRange.encodeFlat : Option PortRange → Entries
  | none => []
  | some range => [("from_port", encodeU16 range.fromPort), ("to_port", encodeU16 range.toPort)]

def RuleTarget.encodeFlat : RuleTarget → Entries
  | .cidr block => [("target_kind", .string "cidr"), ("cidr", .string block)]
  | .securityGroupRef securityGroupId =>
      [("target_kind", .string "security_group_ref"), ("security_group_id", .string securityGroupId)]

def SgRule.entries (rule : SgRule) : Entries :=
  [("direction", rule.direction.encode), ("protocol", .string rule.protocol)] ++
    PortRange.encodeFlat rule.portRange ++ rule.target.encodeFlat ++ [("resolved", .bool rule.resolved)]

def SgRule.encode (rule : SgRule) : Value := .map rule.entries

def NaclRule.entries (rule : NaclRule) : Entries :=
  [("rule_number", encodeU16 rule.ruleNumber), ("direction", rule.direction.encode),
      ("protocol", .string rule.protocol)] ++
    PortRange.encodeFlat rule.portRange ++ [("cidr", .string rule.cidr), ("action", rule.action.encode)]

def NaclRule.encode (rule : NaclRule) : Value := .map rule.entries

/-! ## Scalars -/

theorem roundTrips_string : RoundTrips Value.asString .string := fun _ => rfl

theorem roundTrips_bool : RoundTrips Value.asBool .bool := fun _ => rfl

theorem roundTrips_u16 : RoundTrips decodeU16 encodeU16 := fun _ => decodeU16_eq_some_iff.mpr rfl

theorem Direction.roundTrips : RoundTrips Direction.decode Direction.encode := by
  intro direction
  cases direction <;> rfl

theorem Action.roundTrips : RoundTrips Action.decode Action.encode := by
  intro action
  cases action <;> rfl

/-! ## Flattened parts -/

def portKeys : List String := ["from_port", "to_port"]

def targetKeys : List String := ["target_kind", "cidr", "security_group_id"]

theorem PortRange.keyed_encodeFlat (range : Option PortRange) :
    Keyed portKeys (PortRange.encodeFlat range) := by
  cases range with
  | none => exact List.forall_mem_nil _
  | some range => simp [PortRange.encodeFlat, Keyed, portKeys]

theorem RuleTarget.keyed_encodeFlat (target : RuleTarget) : Keyed targetKeys target.encodeFlat := by
  cases target <;> simp [RuleTarget.encodeFlat, Keyed, targetKeys]

/-- A range is read back from any entries that have its values under the port keys, also an absent one. -/
theorem PortRange.ofEntries_of_valuesAt {range : Option PortRange} {entries : Entries}
    (same : ∀ name ∈ portKeys, valuesAt name entries = valuesAt name (PortRange.encodeFlat range)) :
    PortRange.ofEntries entries = range := by
  rw [PortRange.ofEntries_congr same]
  cases range with
  | none => rfl
  | some range => exact PortRange.ofEntries_eq_some_iff.mpr ⟨rfl, rfl⟩

/-- A target is read back from any entries that have its values under the target keys. -/
theorem RuleTarget.ofEntries_of_valuesAt {target : RuleTarget} {entries : Entries}
    (same : ∀ name ∈ targetKeys, valuesAt name entries = valuesAt name target.encodeFlat) :
    RuleTarget.ofEntries entries = some target := by
  rw [RuleTarget.ofEntries_congr same]
  cases target <;> rfl

/-! ## Security group rules -/

/-- Under its own keys a security group rule has its own fields. -/
private theorem SgRule.valuesAt_own (rule : SgRule) {name : String} (foreign : name ∉ portKeys ++ targetKeys) :
    valuesAt name rule.entries = valuesAt name [("direction", rule.direction.encode),
      ("protocol", .string rule.protocol), ("resolved", .bool rule.resolved)] := by
  rw [List.mem_append, not_or] at foreign
  have ports := (PortRange.keyed_encodeFlat rule.portRange).valuesAt_eq_nil foreign.1
  have target := (RuleTarget.keyed_encodeFlat rule.target).valuesAt_eq_nil foreign.2
  simp only [SgRule.entries, valuesAt_append, ports, target, List.append_nil]
  rw [← valuesAt_append]
  rfl

private theorem SgRule.valuesAt_ports (rule : SgRule) :
    ∀ name ∈ portKeys, valuesAt name rule.entries = valuesAt name (PortRange.encodeFlat rule.portRange) := by
  intro name member
  have foreign : ∀ name ∈ portKeys, name ∉ targetKeys ∧ name ≠ "direction" ∧ name ≠ "protocol" ∧
      name ≠ "resolved" := by decide
  obtain ⟨noTarget, noDirection, noProtocol, noResolved⟩ := foreign name member
  have target := (RuleTarget.keyed_encodeFlat rule.target).valuesAt_eq_nil noTarget
  simp only [SgRule.entries, valuesAt_append, target, valuesAt_cons, if_neg noDirection.symm,
    if_neg noProtocol.symm, if_neg noResolved.symm, valuesAt_nil, List.append_nil, List.nil_append]

private theorem SgRule.valuesAt_target (rule : SgRule) :
    ∀ name ∈ targetKeys, valuesAt name rule.entries = valuesAt name rule.target.encodeFlat := by
  intro name member
  have foreign : ∀ name ∈ targetKeys, name ∉ portKeys ∧ name ≠ "direction" ∧ name ≠ "protocol" ∧
      name ≠ "resolved" := by decide
  obtain ⟨noPorts, noDirection, noProtocol, noResolved⟩ := foreign name member
  have ports := (PortRange.keyed_encodeFlat rule.portRange).valuesAt_eq_nil noPorts
  simp only [SgRule.entries, valuesAt_append, ports, valuesAt_cons, if_neg noDirection.symm,
    if_neg noProtocol.symm, if_neg noResolved.symm, valuesAt_nil, List.append_nil, List.nil_append]

/-- A security group rule is read back. -/
theorem SgRule.roundTrips : RoundTrips SgRule.decode SgRule.encode := by
  intro rule
  have direction : required "direction" Direction.decode rule.entries = some rule.direction :=
    Direction.roundTrips.required (rule.valuesAt_own (by decide))
  have protocol : required "protocol" Value.asString rule.entries = some rule.protocol :=
    roundTrips_string.required (rule.valuesAt_own (by decide))
  have resolved : required "resolved" Value.asBool rule.entries = some rule.resolved :=
    roundTrips_bool.required (rule.valuesAt_own (by decide))
  have ports := PortRange.ofEntries_of_valuesAt rule.valuesAt_ports
  have target := RuleTarget.ofEntries_of_valuesAt rule.valuesAt_target
  rw [SgRule.encode, SgRule.decode_map, SgRule.ofEntries, direction, protocol, resolved, ports, target]
  rfl

example : SgRule.encode ⟨.egress, "-1", none, .securityGroupRef "sg-1", false⟩ =
    .map [("direction", .string "egress"), ("protocol", .string "-1"),
      ("target_kind", .string "security_group_ref"), ("security_group_id", .string "sg-1"),
      ("resolved", .bool false)] := rfl

/-! ## Network ACL rules -/

/-- Under its own keys a network ACL rule has its own fields. -/
private theorem NaclRule.valuesAt_own (rule : NaclRule) {name : String} (foreign : name ∉ portKeys) :
    valuesAt name rule.entries = valuesAt name [("rule_number", encodeU16 rule.ruleNumber),
      ("direction", rule.direction.encode), ("protocol", .string rule.protocol),
      ("cidr", .string rule.cidr), ("action", rule.action.encode)] := by
  have ports := (PortRange.keyed_encodeFlat rule.portRange).valuesAt_eq_nil foreign
  simp only [NaclRule.entries, valuesAt_append, ports, List.append_nil]
  rw [← valuesAt_append]
  rfl

private theorem NaclRule.valuesAt_ports (rule : NaclRule) :
    ∀ name ∈ portKeys, valuesAt name rule.entries = valuesAt name (PortRange.encodeFlat rule.portRange) := by
  intro name member
  have foreign : ∀ name ∈ portKeys, name ≠ "rule_number" ∧ name ≠ "direction" ∧ name ≠ "protocol" ∧
      name ≠ "cidr" ∧ name ≠ "action" := by decide
  obtain ⟨noNumber, noDirection, noProtocol, noCidr, noAction⟩ := foreign name member
  simp only [NaclRule.entries, valuesAt_append, valuesAt_cons, if_neg noNumber.symm,
    if_neg noDirection.symm, if_neg noProtocol.symm, if_neg noCidr.symm, if_neg noAction.symm,
    valuesAt_nil, List.append_nil, List.nil_append]

/-- A network ACL rule is read back. -/
theorem NaclRule.roundTrips : RoundTrips NaclRule.decode NaclRule.encode := by
  intro rule
  have ruleNumber : required "rule_number" decodeU16 rule.entries = some rule.ruleNumber :=
    roundTrips_u16.required (rule.valuesAt_own (by decide))
  have direction : required "direction" Direction.decode rule.entries = some rule.direction :=
    Direction.roundTrips.required (rule.valuesAt_own (by decide))
  have protocol : required "protocol" Value.asString rule.entries = some rule.protocol :=
    roundTrips_string.required (rule.valuesAt_own (by decide))
  have cidr : required "cidr" Value.asString rule.entries = some rule.cidr :=
    roundTrips_string.required (rule.valuesAt_own (by decide))
  have action : required "action" Action.decode rule.entries = some rule.action :=
    Action.roundTrips.required (rule.valuesAt_own (by decide))
  have ports := PortRange.ofEntries_of_valuesAt rule.valuesAt_ports
  rw [NaclRule.encode, NaclRule.decode_map, NaclRule.ofEntries, ruleNumber, direction, protocol, cidr,
    action, ports]
  rfl

end NetHound.Domain
