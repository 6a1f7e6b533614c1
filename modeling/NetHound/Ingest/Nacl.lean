import Mathlib.Data.List.Sort
import NetHound.Ingest.Map
import NetHound.ToMathlib.ExceptRun

/-! # Mapping network ACL entries to rules

`ingest/map/nacl.rs`. Entries map one by one, the first failing field deciding the error, and the
rules come back stably sorted by number.
-/

namespace NetHound.Ingest.Nacl

open Domain

def mapEntryAction (networkAclId : String) (ruleAction : Option Sdk.RuleAction) :
    Except MappingError Action :=
  match ruleAction with
  | some .allow => .ok .allow
  | some .deny => .ok .deny
  | _ => .error (.invalidField networkAclId "rule_action" "field is required and must be allow or deny")

def mapEntryDirection (networkAclId : String) (egress : Option Bool) : Except MappingError Direction :=
  match egress with
  | some true => .ok .egress
  | some false => .ok .ingress
  | none => .error (.invalidField networkAclId "egress" absentReason)

def mapRuleNumber (networkAclId : String) (ruleNumber : Option ℤ) : Except MappingError UInt16 :=
  match ruleNumber with
  | none => .error (.invalidField networkAclId "rule_number" absentReason)
  | some ruleNumber =>
      match u16TryFrom ruleNumber with
      | some ruleNumber => .ok ruleNumber
      | none =>
          .error (.invalidField networkAclId "rule_number" s!"rule_number {ruleNumber} exceeds u16 range")

/-- The body of the entry loop. -/
def mapEntry (networkAclId : String) (entry : Sdk.NetworkAclEntry) : Except MappingError NaclRule := do
  let ruleNumber ← mapRuleNumber networkAclId entry.ruleNumber
  let protocol := entry.protocol.getD "-1"
  let portRange ← buildPortRange networkAclId "port_range" protocol
    (entry.portRange.bind (·.fromPort)) (entry.portRange.bind (·.toPort))
  let cidr ← requireStr networkAclId "cidr_block" (entry.cidrBlock.or entry.ipv6CidrBlock)
  let direction ← mapEntryDirection networkAclId entry.egress
  let action ← mapEntryAction networkAclId entry.ruleAction
  return { ruleNumber, direction, protocol, portRange, cidr, action }

def mapNetworkAclRules (acl : Sdk.NetworkAcl) : Except MappingError (List NaclRule) := do
  let networkAclId ← requireStr "<unknown network acl>" "network_acl_id" acl.networkAclId
  let rules ← acl.entries.mapM (mapEntry networkAclId)
  return rules.insertionSort (fun a b => a.ruleNumber.toNat ≤ b.ruleNumber.toNat)

theorem mapRuleNumber_eq_ok_iff {networkAclId : String} {ruleNumber : Option ℤ} {mapped : UInt16} :
    mapRuleNumber networkAclId ruleNumber = .ok mapped ↔ ruleNumber = some (mapped.toNat : ℤ) := by
  rcases ruleNumber with _ | ruleNumber
  · exact ⟨fun run => (nomatch run), fun run => (nomatch run)⟩
  · rw [mapRuleNumber, Option.some_inj, ← u16TryFrom_eq_some_iff]
    rcases u16TryFrom ruleNumber with _ | converted
    · exact ⟨fun run => (nomatch run), fun run => (nomatch run)⟩
    · rw [Except.ok.injEq, Option.some_inj]

theorem mapEntryDirection_eq_ok_iff {networkAclId : String} {egress : Option Bool} {direction : Direction} :
    mapEntryDirection networkAclId egress = .ok direction ↔ egress = some (decide (direction = .egress)) := by
  rcases egress with _ | _ | _ <;> cases direction <;> simp [mapEntryDirection]

theorem mapEntryAction_eq_ok_iff {networkAclId : String} {ruleAction : Option Sdk.RuleAction}
    {action : Action} :
    mapEntryAction networkAclId ruleAction = .ok action ↔
      ruleAction = some (match action with
        | .allow => .allow
        | .deny => .deny) := by
  rcases ruleAction with _ | _ | _ | _ <;> cases action <;> simp [mapEntryAction]

/-- An entry maps field by field. -/
theorem mapEntry_eq_ok_iff {networkAclId : String} {entry : Sdk.NetworkAclEntry} {rule : NaclRule} :
    mapEntry networkAclId entry = .ok rule ↔
      mapRuleNumber networkAclId entry.ruleNumber = .ok rule.ruleNumber ∧
        rule.protocol = entry.protocol.getD "-1" ∧
        buildPortRange networkAclId "port_range" (entry.protocol.getD "-1")
          (entry.portRange.bind (·.fromPort)) (entry.portRange.bind (·.toPort)) = .ok rule.portRange ∧
        entry.cidrBlock.or entry.ipv6CidrBlock = some rule.cidr ∧
        mapEntryDirection networkAclId entry.egress = .ok rule.direction ∧
        mapEntryAction networkAclId entry.ruleAction = .ok rule.action := by
  constructor
  · intro mapped
    obtain ⟨ruleNumber, number, run⟩ := Except.bind_eq_ok_iff.mp mapped
    obtain ⟨portRange, ports, run⟩ := Except.bind_eq_ok_iff.mp run
    obtain ⟨cidr, block, run⟩ := Except.bind_eq_ok_iff.mp run
    obtain ⟨direction, egress, run⟩ := Except.bind_eq_ok_iff.mp run
    obtain ⟨action, ruleAction, run⟩ := Except.bind_eq_ok_iff.mp run
    cases run
    exact ⟨number, rfl, ports, requireStr_eq_ok_iff.mp block, egress, ruleAction⟩
  · obtain ⟨ruleNumber, direction, protocol, portRange, cidr, action⟩ := rule
    rintro ⟨number, rfl, ports, block, egress, ruleAction⟩
    refine Except.bind_eq_ok_iff.mpr ⟨_, number, Except.bind_eq_ok_iff.mpr ⟨_, ports, ?_⟩⟩
    refine Except.bind_eq_ok_iff.mpr ⟨_, requireStr_eq_ok_iff.mpr block, ?_⟩
    exact Except.bind_eq_ok_iff.mpr ⟨_, egress, Except.bind_eq_ok_iff.mpr ⟨_, ruleAction, rfl⟩⟩

/-- The mapped rules are the entries' rules in order, sorted by number. -/
theorem mapNetworkAclRules_eq_ok_iff {acl : Sdk.NetworkAcl} {rules : List NaclRule} :
    mapNetworkAclRules acl = .ok rules ↔
      ∃ networkAclId entryRules, acl.networkAclId = some networkAclId ∧
        acl.entries.mapM (mapEntry networkAclId) = .ok entryRules ∧
        rules = entryRules.insertionSort (fun a b => a.ruleNumber.toNat ≤ b.ruleNumber.toNat) := by
  constructor
  · intro mapped
    obtain ⟨networkAclId, required, run⟩ := Except.bind_eq_ok_iff.mp mapped
    obtain ⟨entryRules, entriesRun, run⟩ := Except.bind_eq_ok_iff.mp run
    exact ⟨networkAclId, entryRules, requireStr_eq_ok_iff.mp required, entriesRun, (Except.ok.inj run).symm⟩
  · rintro ⟨networkAclId, entryRules, named, entriesRun, rfl⟩
    refine Except.bind_eq_ok_iff.mpr ⟨networkAclId, requireStr_eq_ok_iff.mpr named, ?_⟩
    exact Except.bind_eq_ok_iff.mpr ⟨entryRules, entriesRun, rfl⟩

/-- The rules of a network ACL and its entries, each found from the other. -/
theorem mem_mapNetworkAclRules {acl : Sdk.NetworkAcl} {rules : List NaclRule}
    (mapped : mapNetworkAclRules acl = .ok rules) :
    ∃ networkAclId, acl.networkAclId = some networkAclId ∧
      (∀ rule ∈ rules, ∃ entry ∈ acl.entries, mapEntry networkAclId entry = .ok rule) ∧
      ∀ entry ∈ acl.entries, ∃ rule ∈ rules, mapEntry networkAclId entry = .ok rule := by
  obtain ⟨networkAclId, entryRules, named, entriesRun, rfl⟩ := mapNetworkAclRules_eq_ok_iff.mp mapped
  refine ⟨networkAclId, named, fun rule member => ?_, fun entry member => ?_⟩
  · exact List.exists_of_mem_mapM_ok entriesRun ((List.mem_insertionSort _).mp member)
  · obtain ⟨rule, present, each⟩ := List.exists_of_mapM_eq_ok entriesRun member
    exact ⟨rule, (List.mem_insertionSort _).mpr present, each⟩

end NetHound.Ingest.Nacl
