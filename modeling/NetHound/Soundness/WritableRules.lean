import NetHound.Graph.Statements
import NetHound.Ingest.Sg

/-! # Which mapped security group rules can be written

The mapper yields rules without a port range, the row builder turns the missing bounds into nulls,
and all six rule queries merge on both bounds. So a group's rules can all be written exactly when
every permission with a target carries a protocol other than `-1` and usable port bounds.
-/

namespace NetHound.Soundness

open Domain Graph Ingest

/-- Every row of a group's rules supplies the merge pattern of the query it is sent to. -/
def RulesWritable (securityGroupId : String) (rules : List SgRule) : Prop :=
  ∀ direction, ∀ statement ∈ sgRuleStatements direction
      [⟨securityGroupId, rules.filter fun rule => rule.direction = direction⟩],
    ∀ row ∈ statement.2, Supplies statement.1 row

/-- A row supplies its pattern exactly when its rule has a port range. -/
theorem rulesWritable_iff_ranged (securityGroupId : String) (rules : List SgRule) :
    RulesWritable securityGroupId rules ↔ ∀ rule ∈ rules, rule.portRange.isSome = true := by
  have owned (direction : Direction) : (∀ owned ∈ ownedRules
      [⟨securityGroupId, rules.filter fun rule => rule.direction = direction⟩],
        owned.2.portRange.isSome = true) ↔
      ∀ rule ∈ rules, rule.direction = direction → rule.portRange.isSome = true := by
    simp only [ownedRules, List.flatMap_cons, List.flatMap_nil, List.append_nil, List.forall_mem_map,
      List.mem_filter, decide_eq_true_eq, and_imp]
  simp only [RulesWritable, sgRuleStatements_supplied_iff, owned]
  constructor
  · intro ranged rule member
    exact ranged rule.direction rule member rfl
  · intro ranged direction rule member _
    exact ranged rule member

private theorem ranged_permissionRules {groupId currentAccountId : String} {permission : Sdk.IpPermission}
    {direction : Direction} {rules : List SgRule}
    (mapped : Sg.mapPermission groupId permission direction currentAccountId = .ok rules) :
    (∀ rule ∈ rules, rule.portRange.isSome = true) ↔
    (Sg.HasTargets permission → Sg.PortsBounded permission) := by
  obtain ⟨_, portRange, built, rfl⟩ := Sg.mapPermission_eq_ok_iff.mp mapped
  rw [Sg.PortsBounded, ← isSome_of_buildPortRange built,
    ← Sg.permissionRules_ne_nil_iff direction currentAccountId portRange]
  constructor
  · intro ranged nonempty
    obtain ⟨rule, member⟩ := List.exists_mem_of_ne_nil _ nonempty
    rw [← (Sg.direction_of_mem_permissionRules member).2.2]
    exact ranged rule member
  · intro bounded rule member
    rw [(Sg.direction_of_mem_permissionRules member).2.2]
    exact bounded (List.ne_nil_of_mem member)

/-- The rules a group maps to can be written exactly when all its permissions with a target carry
usable port bounds. -/
theorem mapSecurityGroupRules_writable_iff {sg : Sdk.SecurityGroup} {currentAccountId : String}
    {rules : List SgRule} (mapped : Sg.mapSecurityGroupRules sg currentAccountId = .ok rules)
    (securityGroupId : String) :
    RulesWritable securityGroupId rules ↔
      ∀ permission ∈ sg.ipPermissions ++ sg.ipPermissionsEgress,
        Sg.HasTargets permission → Sg.PortsBounded permission := by
  rw [rulesWritable_iff_ranged]
  apply Sg.forall_mem_rules_iff mapped
  exact fun _ _ _ _ permissionMapped => ranged_permissionRules permissionMapped

/-- One HTTPS permission from anywhere. -/
private def httpsGroup : Sdk.SecurityGroup :=
  { groupId := some "sg-1"
    ipPermissions := [{
      ipProtocol := some "tcp"
      fromPort := some 443
      toPort := some 443
      ipRanges := [⟨some "0.0.0.0/0"⟩] }] }

private def httpsRule : SgRule :=
  ⟨.ingress, "tcp", some (.single 443), .cidr "0.0.0.0/0", true⟩

theorem httpsGroup_writable :
    Sg.mapSecurityGroupRules httpsGroup "111122223333" = .ok [httpsRule] ∧
      RulesWritable "sg-1" [httpsRule] := by
  have mapped : Sg.mapSecurityGroupRules httpsGroup "111122223333" = .ok [httpsRule] := by decide
  refine ⟨mapped, (mapSecurityGroupRules_writable_iff mapped "sg-1").mpr ?_⟩
  intro permission member _
  obtain rfl := List.mem_singleton.mp member
  exact ⟨by decide, 443, 443, rfl, rfl, by decide⟩

/-- The egress permission AWS gives every new group. -/
private def defaultEgressGroup : Sdk.SecurityGroup :=
  { groupId := some "sg-1"
    ipPermissionsEgress := [{ ipProtocol := some "-1", ipRanges := [⟨some "0.0.0.0/0"⟩] }] }

/-- The default egress rule maps but cannot be written. -/
theorem defaultEgressGroup_not_writable :
    ¬ ∀ (sg : Sdk.SecurityGroup) (currentAccountId : String) (rules : List SgRule),
      Sg.mapSecurityGroupRules sg currentAccountId = .ok rules →
        ∀ securityGroupId, RulesWritable securityGroupId rules := by
  intro writable
  have mapped : Sg.mapSecurityGroupRules defaultEgressGroup "111122223333" =
      .ok [⟨.egress, "-1", none, .cidr "0.0.0.0/0", true⟩] := by decide
  have row := writable _ _ _ mapped "sg-1" .egress _ List.mem_cons_self _ List.mem_cons_self
  exact row .fromPort (by decide) (by decide)

end NetHound.Soundness
