import NetHound.Ingest.Map
import NetHound.ToMathlib.ExceptRun

/-! # Mapping security groups to rules

`ingest/map/sg.rs`. A permission fans out into one rule for each CIDR and each group pair; every
rule of a permission shares its protocol and port range.
-/

namespace NetHound.Ingest.Sg

open Domain

/-- A pair without an owner counts as same-account. -/
def pairResolved (currentAccountId : String) (pair : Sdk.UserIdGroupPair) : Bool :=
  match pair.userId with
  | none => true
  | some ownerId => ownerId == currentAccountId

def mapPermission (groupId : String) (permission : Sdk.IpPermission) (direction : Direction)
    (currentAccountId : String) : Except MappingError (List SgRule) := do
  let protocol := permission.ipProtocol.getD "-1"
  let portRange ← buildPortRange groupId "port_range" protocol permission.fromPort permission.toPort
  let ipv4Cidrs := permission.ipRanges.map fun range =>
    requireStr groupId "ip_ranges[].cidr_ip" range.cidrIp
  let ipv6Cidrs := permission.ipv6Ranges.map fun range =>
    requireStr groupId "ipv6_ranges[].cidr_ipv6" range.cidrIpv6
  let cidrRules ← (ipv4Cidrs ++ ipv6Cidrs).mapM fun cidr => do
    return { direction, protocol, portRange, target := .cidr (← cidr), resolved := true }
  let referenceRules ← permission.userIdGroupPairs.mapM fun pair => do
    let securityGroupId ← requireStr groupId "user_id_group_pairs[].group_id" pair.groupId
    return {
      direction
      protocol
      portRange
      target := .securityGroupRef securityGroupId
      resolved := pairResolved currentAccountId pair }
  return cidrRules ++ referenceRules

def mapSecurityGroupRules (sg : Sdk.SecurityGroup) (currentAccountId : String) :
    Except MappingError (List SgRule) := do
  let groupId ← requireStr "<unknown security group>" "group_id" sg.groupId
  let ingress ← sg.ipPermissions.mapM fun permission =>
    mapPermission groupId permission .ingress currentAccountId
  let egress ← sg.ipPermissionsEgress.mapM fun permission =>
    mapPermission groupId permission .egress currentAccountId
  return ingress.flatten ++ egress.flatten

/-! ## The rules of a permission -/

/-- The CIDRs a permission names. -/
def permissionCidrs (permission : Sdk.IpPermission) : List (Option String) :=
  permission.ipRanges.map (·.cidrIp) ++ permission.ipv6Ranges.map (·.cidrIpv6)

/-- Every target of a permission carries its CIDR or group id. -/
def TargetsPresent (permission : Sdk.IpPermission) : Prop :=
  (∀ cidr ∈ permissionCidrs permission, cidr.isSome) ∧
    ∀ pair ∈ permission.userIdGroupPairs, pair.groupId.isSome

instance (permission : Sdk.IpPermission) : Decidable (TargetsPresent permission) :=
  inferInstanceAs (Decidable (_ ∧ _))

/-- The rules of a permission whose targets are present. -/
def permissionRules (permission : Sdk.IpPermission) (direction : Direction) (currentAccountId : String)
    (portRange : Option PortRange) : List SgRule :=
  let protocol := permission.ipProtocol.getD "-1"
  (permissionCidrs permission).map (fun cidr =>
      { direction, protocol, portRange, target := .cidr (cidr.getD ""), resolved := true }) ++
    permission.userIdGroupPairs.map fun pair =>
      { direction
        protocol
        portRange
        target := .securityGroupRef (pair.groupId.getD "")
        resolved := pairResolved currentAccountId pair }

private theorem mapM_requireStr_ok {α β : Type} {l : List α} {resourceId : String} {field : α → String}
    {value : α → Option String} {build : α → String → β} {built : List β} :
    (l.mapM fun a => (requireStr resourceId (field a) (value a)).map (build a)) = .ok built ↔
      (∀ a ∈ l, (value a).isSome) ∧ built = l.map fun a => build a ((value a).getD "") := by
  rw [List.mapM_eq_ok_iff]
  induction l generalizing built with
  | nil => simp
  | cons a l ih =>
    rw [List.forall₂_cons_left_iff, List.forall_mem_cons, List.map_cons]
    constructor
    · rintro ⟨b, rest, head, tail, rfl⟩
      obtain ⟨present, rfl⟩ := ih.mp tail
      obtain ⟨text, required, rfl⟩ := Except.map_eq_ok_iff.mp head
      rw [requireStr_eq_ok_iff.mp required]
      exact ⟨⟨rfl, present⟩, rfl⟩
    · rintro ⟨⟨first, present⟩, rfl⟩
      obtain ⟨text, value⟩ := Option.isSome_iff_exists.mp first
      exact ⟨_, _, by rw [value]; rfl, ih.mpr ⟨present, rfl⟩, rfl⟩

private theorem cidrRules_ok {groupId protocol : String} {permission : Sdk.IpPermission}
    {direction : Direction} {portRange : Option PortRange} {cidrRules : List SgRule} :
    ((permission.ipRanges.map (fun range => requireStr groupId "ip_ranges[].cidr_ip" range.cidrIp) ++
        permission.ipv6Ranges.map fun range =>
          requireStr groupId "ipv6_ranges[].cidr_ipv6" range.cidrIpv6).mapM fun cidr => do
      return (⟨direction, protocol, portRange, .cidr (← cidr), true⟩ : SgRule)) = .ok cidrRules ↔
      (∀ cidr ∈ permissionCidrs permission, cidr.isSome) ∧
        cidrRules = (permissionCidrs permission).map fun cidr =>
          ⟨direction, protocol, portRange, .cidr (cidr.getD ""), true⟩ := by
  let named := permission.ipRanges.map (fun range => ("ip_ranges[].cidr_ip", range.cidrIp)) ++
    permission.ipv6Ranges.map fun range => ("ipv6_ranges[].cidr_ipv6", range.cidrIpv6)
  have values : permissionCidrs permission = named.map Prod.snd := by
    rw [List.map_append, List.map_map, List.map_map]
    rfl
  have results : (permission.ipRanges.map (fun range =>
        requireStr groupId "ip_ranges[].cidr_ip" range.cidrIp) ++
      permission.ipv6Ranges.map fun range =>
        requireStr groupId "ipv6_ranges[].cidr_ipv6" range.cidrIpv6) =
      named.map fun cidr => requireStr groupId cidr.1 cidr.2 := by
    rw [List.map_append, List.map_map, List.map_map]
    rfl
  rw [results, values, List.mapM_eq_ok_iff, List.forall₂_map_left_iff, ← List.mapM_eq_ok_iff,
    List.forall_mem_map, List.map_map]
  exact mapM_requireStr_ok

private theorem referenceRules_ok {groupId protocol currentAccountId : String}
    {permission : Sdk.IpPermission} {direction : Direction} {portRange : Option PortRange}
    {referenceRules : List SgRule} :
    (permission.userIdGroupPairs.mapM fun pair => do
      let securityGroupId ← requireStr groupId "user_id_group_pairs[].group_id" pair.groupId
      return (⟨direction, protocol, portRange, .securityGroupRef securityGroupId,
        pairResolved currentAccountId pair⟩ : SgRule)) = .ok referenceRules ↔
      (∀ pair ∈ permission.userIdGroupPairs, pair.groupId.isSome) ∧
        referenceRules = permission.userIdGroupPairs.map fun pair =>
          ⟨direction, protocol, portRange, .securityGroupRef (pair.groupId.getD ""),
            pairResolved currentAccountId pair⟩ :=
  mapM_requireStr_ok

/-- Mapping a permission succeeds exactly when its port range builds and every target is present. -/
theorem mapPermission_eq_ok_iff {groupId : String} {permission : Sdk.IpPermission}
    {direction : Direction} {currentAccountId : String} {rules : List SgRule} :
    mapPermission groupId permission direction currentAccountId = .ok rules ↔
      TargetsPresent permission ∧ ∃ portRange,
        buildPortRange groupId "port_range" (permission.ipProtocol.getD "-1") permission.fromPort
            permission.toPort = .ok portRange ∧
          rules = permissionRules permission direction currentAccountId portRange := by
  rw [mapPermission, Except.bind_eq_ok_iff]
  constructor
  · rintro ⟨portRange, built, run⟩
    obtain ⟨cidrRules, cidrRun, run⟩ := Except.bind_eq_ok_iff.mp run
    obtain ⟨referenceRules, referenceRun, run⟩ := Except.bind_eq_ok_iff.mp run
    obtain ⟨cidrsPresent, rfl⟩ := cidrRules_ok.mp cidrRun
    obtain ⟨pairsPresent, rfl⟩ := referenceRules_ok.mp referenceRun
    exact ⟨⟨cidrsPresent, pairsPresent⟩, portRange, built, (Except.ok.inj run).symm⟩
  · rintro ⟨⟨cidrsPresent, pairsPresent⟩, portRange, built, rfl⟩
    exact ⟨portRange, built, Except.bind_eq_ok_iff.mpr ⟨_, cidrRules_ok.mpr ⟨cidrsPresent, rfl⟩,
      Except.bind_eq_ok_iff.mpr ⟨_, referenceRules_ok.mpr ⟨pairsPresent, rfl⟩, rfl⟩⟩⟩

/-- The permission names a CIDR or a group. -/
def HasTargets (permission : Sdk.IpPermission) : Prop :=
  permissionCidrs permission ≠ [] ∨ permission.userIdGroupPairs ≠ []

/-- The permission names a protocol other than `-1` and two ports, not both the sentinel. -/
def PortsBounded (permission : Sdk.IpPermission) : Prop :=
  permission.ipProtocol.getD "-1" ≠ "-1" ∧ Bounded permission.fromPort permission.toPort

theorem permissionRules_ne_nil_iff {permission : Sdk.IpPermission} (direction : Direction)
    (currentAccountId : String) (portRange : Option PortRange) :
    permissionRules permission direction currentAccountId portRange ≠ [] ↔ HasTargets permission := by
  rw [permissionRules, HasTargets, ne_eq, List.append_eq_nil_iff, List.map_eq_nil_iff,
    List.map_eq_nil_iff, not_and_or]

theorem direction_of_mem_permissionRules {permission : Sdk.IpPermission} {direction : Direction}
    {currentAccountId : String} {portRange : Option PortRange} {rule : SgRule}
    (member : rule ∈ permissionRules permission direction currentAccountId portRange) :
    rule.direction = direction ∧ rule.protocol = permission.ipProtocol.getD "-1" ∧
      rule.portRange = portRange := by
  rcases List.mem_append.mp member with inCidrs | inPairs
  · obtain ⟨_, _, rfl⟩ := List.mem_map.mp inCidrs
    exact ⟨rfl, rfl, rfl⟩
  · obtain ⟨_, _, rfl⟩ := List.mem_map.mp inPairs
    exact ⟨rfl, rfl, rfl⟩

/-- A group's rules are those of its permissions, ingress first. -/
theorem mapSecurityGroupRules_ok {sg : Sdk.SecurityGroup} {currentAccountId : String}
    {rules : List SgRule} (mapped : mapSecurityGroupRules sg currentAccountId = .ok rules) :
    ∃ groupId ingress egress, sg.groupId = some groupId ∧
      List.Forall₂ (fun permission rules =>
        mapPermission groupId permission .ingress currentAccountId = .ok rules) sg.ipPermissions ingress ∧
      List.Forall₂ (fun permission rules =>
        mapPermission groupId permission .egress currentAccountId = .ok rules)
          sg.ipPermissionsEgress egress ∧
      rules = ingress.flatten ++ egress.flatten := by
  obtain ⟨groupId, required, run⟩ := Except.bind_eq_ok_iff.mp mapped
  obtain ⟨ingress, ingressRun, run⟩ := Except.bind_eq_ok_iff.mp run
  obtain ⟨egress, egressRun, run⟩ := Except.bind_eq_ok_iff.mp run
  exact ⟨groupId, ingress, egress, requireStr_eq_ok_iff.mp required, List.mapM_eq_ok_iff.mp ingressRun,
    List.mapM_eq_ok_iff.mp egressRun, (Except.ok.inj run).symm⟩

/-- What holds of every rule of a group, permission by permission. -/
theorem forall_mem_rules_iff {sg : Sdk.SecurityGroup} {currentAccountId : String} {rules : List SgRule}
    {ofRule : SgRule → Prop} {ofPermission : Sdk.IpPermission → Prop}
    (mapped : mapSecurityGroupRules sg currentAccountId = .ok rules)
    (each : ∀ groupId permission direction rules,
      mapPermission groupId permission direction currentAccountId = .ok rules →
        ((∀ rule ∈ rules, ofRule rule) ↔ ofPermission permission)) :
    (∀ rule ∈ rules, ofRule rule) ↔
      ∀ permission ∈ sg.ipPermissions ++ sg.ipPermissionsEgress, ofPermission permission := by
  obtain ⟨groupId, ingress, egress, _, ingressRules, egressRules, rfl⟩ := mapSecurityGroupRules_ok mapped
  rw [List.forall_mem_append, List.forall_mem_append]
  apply and_congr
  · apply List.forall_mem_flatten_iff ingressRules
    exact fun permission rules => each groupId permission .ingress rules
  · apply List.forall_mem_flatten_iff egressRules
    exact fun permission rules => each groupId permission .egress rules

/-- The permissions of one direction. -/
def permissionsOf (sg : Sdk.SecurityGroup) : Direction → List Sdk.IpPermission
  | .ingress => sg.ipPermissions
  | .egress => sg.ipPermissionsEgress

private theorem exists_mem_flatten_iff {groupId currentAccountId : String} {direction : Direction}
    {permissions : List Sdk.IpPermission} {rules : List (List SgRule)}
    (mapped : List.Forall₂ (fun permission rules =>
      mapPermission groupId permission direction currentAccountId = .ok rules) permissions rules)
    (p : SgRule → Prop) :
    (∃ rule ∈ rules.flatten, p rule) ↔ ∃ permission ∈ permissions, ∃ portRange,
      buildPortRange groupId "port_range" (permission.ipProtocol.getD "-1") permission.fromPort
          permission.toPort = .ok portRange ∧
        ∃ rule ∈ permissionRules permission direction currentAccountId portRange, p rule := by
  induction mapped with
  | nil => simp
  | @cons permission own permissions rules head _ ih =>
    obtain ⟨_, portRange, built, rfl⟩ := mapPermission_eq_ok_iff.mp head
    simp only [List.flatten_cons, List.mem_append, or_and_right, exists_or]
    rw [ih, List.exists_mem_cons_iff]
    refine or_congr ⟨fun found => ⟨portRange, built, found⟩, ?_⟩ Iff.rfl
    rintro ⟨portRange', built', found⟩
    rw [built] at built'
    cases built'
    exact found

/-- The rules of one direction, permission by permission. -/
theorem exists_rule_iff {sg : Sdk.SecurityGroup} {currentAccountId : String} {rules : List SgRule}
    (mapped : mapSecurityGroupRules sg currentAccountId = .ok rules) (direction : Direction)
    (p : SgRule → Prop) :
    ∃ groupId, (∃ rule ∈ rules, rule.direction = direction ∧ p rule) ↔
      ∃ permission ∈ permissionsOf sg direction, ∃ portRange,
        buildPortRange groupId "port_range" (permission.ipProtocol.getD "-1") permission.fromPort
            permission.toPort = .ok portRange ∧
          ∃ rule ∈ permissionRules permission direction currentAccountId portRange, p rule := by
  obtain ⟨groupId, ingress, egress, _, ingressRules, egressRules, rfl⟩ := mapSecurityGroupRules_ok mapped
  refine ⟨groupId, ?_⟩
  simp only [List.mem_append, or_and_right, exists_or]
  rw [exists_mem_flatten_iff ingressRules, exists_mem_flatten_iff egressRules]
  have own (direction direction' : Direction) (permissions : List Sdk.IpPermission) :
      (∃ permission ∈ permissions, ∃ portRange,
        buildPortRange groupId "port_range" (permission.ipProtocol.getD "-1") permission.fromPort
            permission.toPort = .ok portRange ∧
          ∃ rule ∈ permissionRules permission direction' currentAccountId portRange,
            rule.direction = direction ∧ p rule) ↔
        direction' = direction ∧ ∃ permission ∈ permissions, ∃ portRange,
          buildPortRange groupId "port_range" (permission.ipProtocol.getD "-1") permission.fromPort
              permission.toPort = .ok portRange ∧
            ∃ rule ∈ permissionRules permission direction' currentAccountId portRange, p rule := by
    constructor
    · rintro ⟨permission, member, portRange, built, rule, inRules, ofDirection, holds⟩
      refine ⟨?_, permission, member, portRange, built, rule, inRules, holds⟩
      rw [← (direction_of_mem_permissionRules inRules).1, ofDirection]
    · rintro ⟨same, permission, member, portRange, built, rule, inRules, holds⟩
      refine ⟨permission, member, portRange, built, rule, inRules, ?_, holds⟩
      rw [(direction_of_mem_permissionRules inRules).1, same]
  rw [own direction .ingress, own direction .egress]
  cases direction <;> simp [permissionsOf]

/-- A group with an id whose permissions all map is mapped. -/
theorem mapSecurityGroupRules_of_permissions {sg : Sdk.SecurityGroup} {currentAccountId : String}
    (named : sg.groupId.isSome = true)
    (each : ∀ groupId direction, ∀ permission ∈ permissionsOf sg direction,
      ∃ rules, mapPermission groupId permission direction currentAccountId = .ok rules) :
    ∃ rules, mapSecurityGroupRules sg currentAccountId = .ok rules := by
  obtain ⟨groupId, ofGroup⟩ := Option.isSome_iff_exists.mp named
  obtain ⟨ingress, ingressRun⟩ := List.exists_mapM_ok_iff.mpr (each groupId .ingress)
  obtain ⟨egress, egressRun⟩ := List.exists_mapM_ok_iff.mpr (each groupId .egress)
  apply Except.exists_bind_ok (requireStr_eq_ok_iff.mpr ofGroup)
  exact Except.exists_bind_ok ingressRun (Except.exists_bind_ok egressRun ⟨_, rfl⟩)

private theorem exists_mapPermission_iff {groupId currentAccountId : String} {direction : Direction}
    {permission : Sdk.IpPermission} :
    (∃ rules, mapPermission groupId permission direction currentAccountId = .ok rules) ↔
      TargetsPresent permission ∧
        ∃ portRange, buildPortRange groupId "port_range" (permission.ipProtocol.getD "-1")
          permission.fromPort permission.toPort = .ok portRange := by
  constructor
  · rintro ⟨rules, mapped⟩
    obtain ⟨present, portRange, built, -⟩ := mapPermission_eq_ok_iff.mp mapped
    exact ⟨present, portRange, built⟩
  · rintro ⟨present, portRange, built⟩
    exact ⟨_, mapPermission_eq_ok_iff.mpr ⟨present, portRange, built, rfl⟩⟩

/-- A group is mapped exactly when it has an id, every target is present and every port range builds. -/
theorem exists_mapSecurityGroupRules_iff {sg : Sdk.SecurityGroup} {groupId currentAccountId : String}
    (named : sg.groupId = some groupId) :
    (∃ rules, mapSecurityGroupRules sg currentAccountId = .ok rules) ↔
      ∀ permission ∈ sg.ipPermissions ++ sg.ipPermissionsEgress, TargetsPresent permission ∧
        ∃ portRange, buildPortRange groupId "port_range" (permission.ipProtocol.getD "-1")
          permission.fromPort permission.toPort = .ok portRange := by
  have each (direction : Direction) (permissions : List Sdk.IpPermission) :
      (∃ nested, (permissions.mapM fun permission =>
        mapPermission groupId permission direction currentAccountId) = .ok nested) ↔
        ∀ permission ∈ permissions, TargetsPresent permission ∧
          ∃ portRange, buildPortRange groupId "port_range" (permission.ipProtocol.getD "-1")
            permission.fromPort permission.toPort = .ok portRange := by
    rw [List.exists_mapM_ok_iff]
    exact forall₂_congr fun permission _ => exists_mapPermission_iff
  rw [List.forall_mem_append, ← each .ingress, ← each .egress]
  constructor
  · rintro ⟨rules, mapped⟩
    obtain ⟨groupId', required, run⟩ := Except.bind_eq_ok_iff.mp mapped
    rw [requireStr_eq_ok_iff, named] at required
    cases required
    obtain ⟨ingress, ingressRun, run⟩ := Except.bind_eq_ok_iff.mp run
    obtain ⟨egress, egressRun, _⟩ := Except.bind_eq_ok_iff.mp run
    exact ⟨⟨ingress, ingressRun⟩, egress, egressRun⟩
  · rintro ⟨⟨ingress, ingressRun⟩, egress, egressRun⟩
    apply Except.exists_bind_ok (requireStr_eq_ok_iff.mpr named)
    exact Except.exists_bind_ok ingressRun (Except.exists_bind_ok egressRun ⟨_, rfl⟩)

/-- A rule that carries a port range names a protocol other than `-1`. -/
theorem protocol_of_ranged {sg : Sdk.SecurityGroup} {currentAccountId : String} {rules : List SgRule}
    (mapped : mapSecurityGroupRules sg currentAccountId = .ok rules) :
    ∀ rule ∈ rules, rule.portRange.isSome = true → rule.protocol ≠ "-1" := by
  refine (@forall_mem_rules_iff _ _ _ _ (fun _ => True) mapped ?_).mpr fun _ _ => trivial
  intro groupId permission direction rules permissionMapped
  obtain ⟨_, portRange, built, rfl⟩ := mapPermission_eq_ok_iff.mp permissionMapped
  refine iff_of_true (fun rule member ranged => ?_) trivial
  obtain ⟨_, protocol, range⟩ := direction_of_mem_permissionRules member
  rw [range] at ranged
  rw [protocol]
  exact ((isSome_of_buildPortRange built).mp ranged).1

/-- The resolved references of a group's rules are its same-account pairs. -/
theorem forall_resolved_reference_iff {sg : Sdk.SecurityGroup} {currentAccountId : String}
    {rules : List SgRule} (mapped : mapSecurityGroupRules sg currentAccountId = .ok rules)
    (p : Option String → Prop) :
    (∀ rule ∈ rules, ∀ refId, rule.target = .securityGroupRef refId → rule.resolved = true → p (some refId)) ↔
      ∀ permission ∈ sg.ipPermissions ++ sg.ipPermissionsEgress, ∀ pair ∈ permission.userIdGroupPairs,
        pairResolved currentAccountId pair = true → p pair.groupId := by
  apply forall_mem_rules_iff mapped
  intro groupId permission direction rules permissionMapped
  obtain ⟨⟨_, pairsNamed⟩, portRange, _, rfl⟩ := mapPermission_eq_ok_iff.mp permissionMapped
  have named (pair : Sdk.UserIdGroupPair) (member : pair ∈ permission.userIdGroupPairs) :
      some (pair.groupId.getD "") = pair.groupId := by
    obtain ⟨groupId, present⟩ := Option.isSome_iff_exists.mp (pairsNamed pair member)
    rw [present, Option.getD_some]
  rw [permissionRules, List.forall_mem_append, List.forall_mem_map, List.forall_mem_map]
  constructor
  · rintro ⟨_, references⟩ pair member resolved
    rw [← named pair member]
    exact references pair member _ rfl resolved
  · intro references
    refine ⟨fun cidr _ refId target => ?_, fun pair member refId target resolved => ?_⟩
    · cases target
    · cases target
      rw [named pair member]
      exact references pair member resolved

end NetHound.Ingest.Sg
