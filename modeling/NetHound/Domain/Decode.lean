import NetHound.Domain.Rule
import NetHound.Serde.Value

/-! # Decoding rules

The derived decoders of `domain/rule.rs`. A port range decodes through `PortRangeData`, so its bounds are
checked; on the rules it is a flattened option, which is absent where the range does not decode, and the
target is a flattened enumeration tagged `target_kind`. `ofEntries` is what each decoder amounts to, every
field read by its own key.
-/

namespace NetHound.Domain

open Serde

def decodeU16 (value : Value) : Option UInt16 := value.asInteger.bind u16TryFrom

def Direction.decode : Value → Option Direction
  | .string "ingress" => some .ingress
  | .string "egress" => some .egress
  | _ => none

def Action.decode : Value → Option Action
  | .string "allow" => some .allow
  | .string "deny" => some .deny
  | _ => none

/-- The shadow type a port range decodes through. -/
structure PortRangeData where
  fromPort : UInt16
  toPort : UInt16

def PortRange.tryFrom (data : PortRangeData) : Except RuleError PortRange :=
  PortRange.new data.fromPort data.toPort

def portRangeFields := (field "from_port" decodeU16).both (field "to_port" decodeU16)

/-- A flattened port range and the entries it leaves; none where it does not decode. -/
def PortRange.decodeFlat (entries : Entries) : Option PortRange × Entries :=
  let (data, left) := portRangeFields.read entries
  (data.bind fun bounds => (PortRange.tryFrom ⟨bounds.1, bounds.2⟩).toOption, left)

def targetKinds : List String := ["cidr", "security_group_ref"]

/-- A flattened target. -/
def RuleTarget.decodeFlat (entries : Entries) : Option RuleTarget := do
  let (kind, content) := (field "target_kind" (Value.asVariant targetKinds)).read entries
  match ← kind with
  | "cidr" => return .cidr (← ((field "cidr" Value.asString).read content).1)
  | "security_group_ref" =>
      return .securityGroupRef (← ((field "security_group_id" Value.asString).read content).1)
  | _ => none

def sgRuleFields :=
  (field "direction" Direction.decode).both
    ((field "protocol" Value.asString).both (field "resolved" Value.asBool))

def SgRule.decode : Value → Option SgRule
  | .map entries => do
      let (named, collected) := sgRuleFields.read entries
      let (direction, protocol, resolved) ← named
      let (portRange, collected) := PortRange.decodeFlat collected
      let target ← RuleTarget.decodeFlat collected
      return { direction, protocol, portRange, target, resolved }
  | _ => none

def naclRuleFields :=
  (field "rule_number" decodeU16).both ((field "direction" Direction.decode).both
    ((field "protocol" Value.asString).both ((field "cidr" Value.asString).both
      (field "action" Action.decode))))

def NaclRule.decode : Value → Option NaclRule
  | .map entries => do
      let (named, collected) := naclRuleFields.read entries
      let (ruleNumber, direction, protocol, cidr, action) ← named
      let (portRange, _) := PortRange.decodeFlat collected
      return { ruleNumber, direction, protocol, portRange, cidr, action }
  | _ => none

/-! ## Field by field -/

theorem decodeU16_eq_some_iff {value : Value} {port : UInt16} :
    decodeU16 value = some port ↔ value = .integer port.toNat := by
  cases value with
  | integer number => simp [decodeU16, Value.asInteger, u16TryFrom_eq_some_iff]
  | null => simp [decodeU16, Value.asInteger]
  | bool value => simp [decodeU16, Value.asInteger]
  | string value => simp [decodeU16, Value.asInteger]
  | seq items => simp [decodeU16, Value.asInteger]
  | map entries => simp [decodeU16, Value.asInteger]

/-- The port range under its two keys. -/
def PortRange.ofEntries (entries : Entries) : Option PortRange := do
  let fromPort ← required "from_port" decodeU16 entries
  let toPort ← required "to_port" decodeU16 entries
  (PortRange.new fromPort toPort).toOption

private theorem required_decodeU16_iff {name : String} {entries : Entries} {port : UInt16} :
    required name decodeU16 entries = some port ↔ valuesAt name entries = [.integer port.toNat] := by
  rw [required]
  rcases valuesAt name entries with _ | ⟨value, _ | ⟨again, rest⟩⟩
  · simp
  · simp [decodeU16_eq_some_iff]
  · simp

/-- A port range is read exactly where each bound is written once and the two are in order. -/
theorem PortRange.ofEntries_eq_some_iff {entries : Entries} {range : PortRange} :
    PortRange.ofEntries entries = some range ↔
      valuesAt "from_port" entries = [.integer range.fromPort.toNat] ∧
        valuesAt "to_port" entries = [.integer range.toPort.toNat] := by
  rw [← required_decodeU16_iff, ← required_decodeU16_iff, PortRange.ofEntries]
  constructor
  · intro read
    obtain ⟨fromPort, fromRead, read⟩ := Option.bind_eq_some_iff.mp read
    obtain ⟨toPort, toRead, read⟩ := Option.bind_eq_some_iff.mp read
    cases built : PortRange.new fromPort toPort with
    | error error =>
      rw [built] at read
      cases read
    | ok own =>
      rw [built] at read
      cases read
      obtain ⟨sameFrom, sameTo⟩ := PortRange.new_eq_ok_iff.mp built
      rw [sameFrom, sameTo]
      exact ⟨fromRead, toRead⟩
  · rintro ⟨fromRead, toRead⟩
    rw [fromRead, toRead]
    simp [Except.toOption]

theorem PortRange.decodeFlat_fst (entries : Entries) :
    (PortRange.decodeFlat entries).1 = PortRange.ofEntries entries := by
  have read : (portRangeFields.read entries).1 = do
      return (← required "from_port" decodeU16 entries, ← required "to_port" decodeU16 entries) := by
    rw [portRangeFields, read_field_both (by decide), read_field]
  change (portRangeFields.read entries).1.bind _ = _
  rw [read, PortRange.ofEntries]
  cases required "from_port" decodeU16 entries with
  | none => rfl
  | some fromPort => cases required "to_port" decodeU16 entries <;> rfl

/-- The target under the keys of its variant. -/
def RuleTarget.ofEntries (entries : Entries) : Option RuleTarget := do
  match ← required "target_kind" (Value.asVariant targetKinds) entries with
  | "cidr" => return .cidr (← required "cidr" Value.asString entries)
  | "security_group_ref" =>
      return .securityGroupRef (← required "security_group_id" Value.asString entries)
  | _ => none

theorem RuleTarget.decodeFlat_eq (entries : Entries) :
    RuleTarget.decodeFlat entries = RuleTarget.ofEntries entries := by
  have tag := read_field "target_kind" (Value.asVariant targetKinds) entries
  have beside (name : String) (apart : name ≠ "target_kind") :
      required name Value.asString ((field "target_kind" (Value.asVariant targetKinds)).read entries).2 =
        required name Value.asString entries :=
    required_congr (valuesAt_read _ (beq_eq_false_iff_ne.mpr apart) entries)
  rw [RuleTarget.decodeFlat, RuleTarget.ofEntries, ← tag]
  simp only [read_field, beside "cidr" (by decide), beside "security_group_id" (by decide)]

theorem RuleTarget.ofEntries_congr {entries entries' : Entries}
    (same : ∀ name ∈ ["target_kind", "cidr", "security_group_id"],
      valuesAt name entries = valuesAt name entries') :
    RuleTarget.ofEntries entries = RuleTarget.ofEntries entries' := by
  simp only [List.forall_mem_cons, List.not_mem_nil, false_imp_iff, implies_true, and_true] at same
  obtain ⟨kind, cidr, group⟩ := same
  simp only [RuleTarget.ofEntries, required_congr kind, required_congr cidr, required_congr group]

/-- A security group rule, each part under its own keys. -/
def SgRule.ofEntries (entries : Entries) : Option SgRule := do
  let direction ← required "direction" Direction.decode entries
  let protocol ← required "protocol" Value.asString entries
  let resolved ← required "resolved" Value.asBool entries
  let target ← RuleTarget.ofEntries entries
  return { direction, protocol, portRange := PortRange.ofEntries entries, target, resolved }

theorem PortRange.ofEntries_congr {entries entries' : Entries}
    (same : ∀ name ∈ ["from_port", "to_port"], valuesAt name entries = valuesAt name entries') :
    PortRange.ofEntries entries = PortRange.ofEntries entries' := by
  simp only [List.forall_mem_cons, List.not_mem_nil, false_imp_iff, implies_true, and_true] at same
  simp only [PortRange.ofEntries, required_congr same.1, required_congr same.2]

/-- Decoding a security group rule reads every part under its own keys. -/
theorem SgRule.decode_map (entries : Entries) : SgRule.decode (.map entries) = SgRule.ofEntries entries := by
  have named : (sgRuleFields.read entries).1 = do
      return (← required "direction" Direction.decode entries,
        ← required "protocol" Value.asString entries, ← required "resolved" Value.asBool entries) := by
    rw [sgRuleFields, read_field_both (by decide), read_field_both (by decide), read_field]
    simp only [bind_assoc, pure_bind]
  have foreign : ∀ name ∈ ["from_port", "to_port"], sgRuleFields.recognizes name = false := by decide
  have ports : (PortRange.decodeFlat (sgRuleFields.read entries).2).1 = PortRange.ofEntries entries := by
    rw [PortRange.decodeFlat_fst]
    apply PortRange.ofEntries_congr
    intro name member
    exact valuesAt_read _ (foreign name member) entries
  have beyond : ∀ name ∈ ["target_kind", "cidr", "security_group_id"],
      sgRuleFields.recognizes name = false ∧ portRangeFields.recognizes name = false := by decide
  have target : RuleTarget.decodeFlat (PortRange.decodeFlat (sgRuleFields.read entries).2).2 =
      RuleTarget.ofEntries entries := by
    rw [RuleTarget.decodeFlat_eq]
    apply RuleTarget.ofEntries_congr
    intro name member
    calc
      valuesAt name (PortRange.decodeFlat (sgRuleFields.read entries).2).2 =
          valuesAt name (sgRuleFields.read entries).2 := valuesAt_read _ (beyond name member).2 _
      _ = valuesAt name entries := valuesAt_read _ (beyond name member).1 entries
  rw [SgRule.decode, SgRule.ofEntries]
  simp only [named, ports, target, bind_assoc, pure_bind]

/-- A network ACL rule, each part under its own keys. -/
def NaclRule.ofEntries (entries : Entries) : Option NaclRule := do
  let ruleNumber ← required "rule_number" decodeU16 entries
  let direction ← required "direction" Direction.decode entries
  let protocol ← required "protocol" Value.asString entries
  let cidr ← required "cidr" Value.asString entries
  let action ← required "action" Action.decode entries
  return { ruleNumber, direction, protocol, portRange := PortRange.ofEntries entries, cidr, action }

/-- Decoding a network ACL rule reads every part under its own keys. -/
theorem NaclRule.decode_map (entries : Entries) :
    NaclRule.decode (.map entries) = NaclRule.ofEntries entries := by
  have named : (naclRuleFields.read entries).1 = do
      return (← required "rule_number" decodeU16 entries, ← required "direction" Direction.decode entries,
        ← required "protocol" Value.asString entries, ← required "cidr" Value.asString entries,
        ← required "action" Action.decode entries) := by
    rw [naclRuleFields, read_field_both (by decide), read_field_both (by decide),
      read_field_both (by decide), read_field_both (by decide), read_field]
    simp only [bind_assoc, pure_bind]
  have foreign : ∀ name ∈ ["from_port", "to_port"], naclRuleFields.recognizes name = false := by decide
  have ports : (PortRange.decodeFlat (naclRuleFields.read entries).2).1 = PortRange.ofEntries entries := by
    rw [PortRange.decodeFlat_fst]
    apply PortRange.ofEntries_congr
    intro name member
    exact valuesAt_read _ (foreign name member) entries
  rw [NaclRule.decode, NaclRule.ofEntries]
  simp only [named, ports, bind_assoc, pure_bind]

end NetHound.Domain
