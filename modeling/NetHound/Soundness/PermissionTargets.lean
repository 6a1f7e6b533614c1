import Mathlib.Data.List.Perm.Subperm
import NetHound.Evaluate.Sg
import NetHound.Ingest.Sg

/-! # The targets of a permission

A permission names its targets in four lists, and a group is documented to become one rule a target, with
a target that cannot be dereferenced kept as an unresolved rule. The mapper reads three of the lists: its
rules are, in order, those of the ranges and the group pairs. A prefix list has no rule, so a permission
that lets traffic through to a prefix list only is judged as if it were not there.
-/

namespace NetHound.Soundness

open Domain Net Ingest Evaluate

/-- A target of a permission, from whichever of its lists. -/
inductive PermissionTarget where
  | ipv4 (range : Sdk.IpRange)
  | ipv6 (range : Sdk.Ipv6Range)
  | group (pair : Sdk.UserIdGroupPair)
  | prefixList (entry : Sdk.PrefixListId)

/-- The targets the mapper reads. -/
def readTargets (permission : Sdk.IpPermission) : List PermissionTarget :=
  permission.ipRanges.map .ipv4 ++ permission.ipv6Ranges.map .ipv6 ++ permission.userIdGroupPairs.map .group

def permissionTargets (permission : Sdk.IpPermission) : List PermissionTarget :=
  readTargets permission ++ permission.prefixListIds.map .prefixList

/-- A target with the permission and the direction it belongs to. -/
abbrev GroupTarget := Direction × Sdk.IpPermission × PermissionTarget

/-- The targets of a group that `ofPermission` picks, ingress first. -/
def targetsBy (ofPermission : Sdk.IpPermission → List PermissionTarget) (sg : Sdk.SecurityGroup) :
    List GroupTarget :=
  (sg.ipPermissions.map fun permission => (ofPermission permission).map (.ingress, permission, ·)).flatten ++
    (sg.ipPermissionsEgress.map fun permission =>
      (ofPermission permission).map (.egress, permission, ·)).flatten

/-- Every target of a group. -/
def groupTargets : Sdk.SecurityGroup → List GroupTarget := targetsBy permissionTargets

/-- The rule target and flag a target asks for; a prefix list asks for an unresolved rule. -/
def Targets (accountId : String) (target : PermissionTarget) (rule : SgRule) : Prop :=
  match target with
  | .ipv4 range => ∃ cidr, range.cidrIp = some cidr ∧ rule.target = .cidr cidr ∧ rule.resolved = true
  | .ipv6 range => ∃ cidr, range.cidrIpv6 = some cidr ∧ rule.target = .cidr cidr ∧ rule.resolved = true
  | .group pair => ∃ refId, pair.groupId = some refId ∧ rule.target = .securityGroupRef refId ∧
      rule.resolved = Sg.pairResolved accountId pair
  | .prefixList _ => rule.resolved = false

/-- A rule of the target's direction, with its permission's protocol and port range. -/
structure Represents (accountId : String) (target : GroupTarget) (rule : SgRule) : Prop where
  direction : rule.direction = target.1
  protocol : rule.protocol = target.2.1.ipProtocol.getD "-1"
  portRange : ∃ groupId, buildPortRange groupId "port_range" (target.2.1.ipProtocol.getD "-1")
    target.2.1.fromPort target.2.1.toPort = .ok rule.portRange
  target : Targets accountId target.2.2 rule

/-- Every target has a rule of its own among the rules. -/
def AllRepresented (accountId : String) (sg : Sdk.SecurityGroup) (rules : List SgRule) : Prop :=
  ∃ own, List.Forall₂ (Represents accountId) (groupTargets sg) own ∧ own.Subperm rules

/-- A target the tool cannot dereference: another account's group, or a prefix list. -/
def NamesUnresolvable (accountId : String) (permission : Sdk.IpPermission) : Prop :=
  (∃ pair ∈ permission.userIdGroupPairs, Sg.pairResolved accountId pair = false) ∨
    permission.prefixListIds ≠ []

/-- The permission's protocol and ports cover the traffic. -/
def PermissionCovers (permission : Sdk.IpPermission) (traffic : Traffic) : Prop :=
  ∃ groupId portRange, buildPortRange groupId "port_range" (permission.ipProtocol.getD "-1")
      permission.fromPort permission.toPort = .ok portRange ∧
    ruleCovers (permission.ipProtocol.getD "-1") portRange traffic = true

/-- Traffic covered by a permission with a target that cannot be dereferenced is never denied. -/
def NeverDenied (accountId : String) (sg : Sdk.SecurityGroup) (rules : List SgRule) : Prop :=
  ∀ direction, ∀ permission ∈ Sg.permissionsOf sg direction, NamesUnresolvable accountId permission →
    ∀ traffic, PermissionCovers permission traffic → ∀ securityGroupId peer,
      (Sg.evaluate securityGroupId rules direction traffic peer).kind ≠ .no

section Mapped

variable {accountId : String} {sg : Sdk.SecurityGroup} {rules : List SgRule}

private theorem permission_represented {groupId : String} {permission : Sdk.IpPermission}
    {direction : Direction} {own : List SgRule}
    (mapped : Sg.mapPermission groupId permission direction accountId = .ok own) :
    List.Forall₂ (Represents accountId)
      ((readTargets permission).map (direction, permission, ·)) own := by
  obtain ⟨⟨cidrsPresent, pairsPresent⟩, portRange, built, rfl⟩ := Sg.mapPermission_eq_ok_iff.mp mapped
  rw [Sg.permissionCidrs, List.forall_mem_append, List.forall_mem_map, List.forall_mem_map] at cidrsPresent
  obtain ⟨ipv4Present, ipv6Present⟩ := cidrsPresent
  simp only [readTargets, Sg.permissionRules, Sg.permissionCidrs, List.map_append, List.map_map]
  apply List.rel_append
  · apply List.rel_append
    · rw [List.forall₂_map_left_iff, List.forall₂_map_right_iff, List.forall₂_same]
      intro range member
      obtain ⟨cidr, present⟩ := Option.isSome_iff_exists.mp (ipv4Present range member)
      refine ⟨rfl, rfl, ⟨groupId, built⟩, cidr, present, ?_, rfl⟩
      simp [present]
    · rw [List.forall₂_map_left_iff, List.forall₂_map_right_iff, List.forall₂_same]
      intro range member
      obtain ⟨cidr, present⟩ := Option.isSome_iff_exists.mp (ipv6Present range member)
      refine ⟨rfl, rfl, ⟨groupId, built⟩, cidr, present, ?_, rfl⟩
      simp [present]
  · rw [List.forall₂_map_left_iff, List.forall₂_map_right_iff, List.forall₂_same]
    intro pair member
    obtain ⟨refId, present⟩ := Option.isSome_iff_exists.mp (pairsPresent pair member)
    refine ⟨rfl, rfl, ⟨groupId, built⟩, refId, present, ?_, rfl⟩
    simp [present]

private theorem permissions_represented {groupId : String} {permissions : List Sdk.IpPermission}
    {direction : Direction} {own : List (List SgRule)}
    (mapped : List.Forall₂ (fun permission rules =>
      Sg.mapPermission groupId permission direction accountId = .ok rules) permissions own) :
    List.Forall₂ (Represents accountId)
      (permissions.map fun permission => (readTargets permission).map (direction, permission, ·)).flatten
      own.flatten := by
  induction mapped with
  | nil => exact .nil
  | cons head _ tail =>
    rw [List.map_cons, List.flatten_cons, List.flatten_cons]
    exact List.rel_append (permission_represented head) tail

/-- The rules of a group are, one by one, those of the targets the mapper reads. -/
theorem readTargets_represented (mapped : Sg.mapSecurityGroupRules sg accountId = .ok rules) :
    List.Forall₂ (Represents accountId) (targetsBy readTargets sg) rules := by
  obtain ⟨groupId, ingress, egress, -, ingressRules, egressRules, rfl⟩ :=
    Sg.mapSecurityGroupRules_ok mapped
  exact List.rel_append (permissions_represented ingressRules) (permissions_represented egressRules)

private theorem targets_sublist (direction : Direction) (permissions : List Sdk.IpPermission) :
    (permissions.map fun permission =>
        (readTargets permission).map ((direction, permission, ·) : _ → GroupTarget)).flatten.Sublist
      (permissions.map fun permission =>
        (permissionTargets permission).map (direction, permission, ·)).flatten := by
  induction permissions with
  | nil => exact .refl _
  | cons permission permissions ih =>
    rw [List.map_cons, List.map_cons, List.flatten_cons, List.flatten_cons]
    apply List.Sublist.append _ ih
    apply List.Sublist.map
    exact List.sublist_append_left _ _

private theorem readTargets_sublist (sg : Sdk.SecurityGroup) :
    (targetsBy readTargets sg).Sublist (groupTargets sg) :=
  List.Sublist.append (targets_sublist .ingress sg.ipPermissions)
    (targets_sublist .egress sg.ipPermissionsEgress)

/-- A group has as many targets as the mapper reads only if it names no prefix list. -/
private theorem no_prefixLists_of_length_le
    (short : (groupTargets sg).length ≤ (targetsBy readTargets sg).length) :
    ∀ permission ∈ sg.ipPermissions ++ sg.ipPermissionsEgress, permission.prefixListIds = [] := by
  have same := (readTargets_sublist sg).eq_of_length_le short
  have prefixFree : ∀ target ∈ targetsBy readTargets sg, ∀ entry, target.2.2 ≠ .prefixList entry := by
    intro target member entry
    simp only [targetsBy, readTargets, List.mem_append, List.mem_flatten, List.mem_map] at member
    rcases member with ⟨_, ⟨permission, -, rfl⟩, own⟩ | ⟨_, ⟨permission, -, rfl⟩, own⟩
    all_goals
      obtain ⟨target, inTargets, rfl⟩ := List.mem_map.mp own
      simp only [List.mem_append, List.mem_map] at inTargets
      rcases inTargets with (⟨_, -, rfl⟩ | ⟨_, -, rfl⟩) | ⟨_, -, rfl⟩ <;> simp
  intro permission member
  by_contra named
  obtain ⟨entry, listed⟩ := List.exists_mem_of_ne_nil _ named
  have inTargets : PermissionTarget.prefixList entry ∈ permissionTargets permission :=
    List.mem_append_right _ (List.mem_map_of_mem listed)
  have found : ∃ direction, (direction, permission, .prefixList entry) ∈ groupTargets sg := by
    simp only [groupTargets, targetsBy, List.mem_append, List.mem_flatten, List.mem_map]
    rcases List.mem_append.mp member with ingress | egress
    · exact ⟨.ingress, .inl ⟨_, ⟨permission, ingress, rfl⟩, List.mem_map_of_mem inTargets⟩⟩
    · exact ⟨.egress, .inr ⟨_, ⟨permission, egress, rfl⟩, List.mem_map_of_mem inTargets⟩⟩
  obtain ⟨direction, present⟩ := found
  rw [← same] at present
  exact prefixFree _ present entry rfl

private theorem groupTargets_of_no_prefixLists
    (none : ∀ permission ∈ sg.ipPermissions ++ sg.ipPermissionsEgress, permission.prefixListIds = []) :
    groupTargets sg = targetsBy readTargets sg := by
  have plain (permission : Sdk.IpPermission) (free : permission.prefixListIds = []) :
      permissionTargets permission = readTargets permission := by
    rw [permissionTargets, free, List.map_nil, List.append_nil]
  rw [List.forall_mem_append] at none
  rw [groupTargets, targetsBy, targetsBy]
  congr 2
  · apply List.map_congr_left
    intro permission member
    rw [plain permission (none.1 permission member)]
  · apply List.map_congr_left
    intro permission member
    rw [plain permission (none.2 permission member)]

/-- A pair of another account that its permission covers leaves the traffic undecided at least. -/
private theorem not_denied_of_crossAccount (mapped : Sg.mapSecurityGroupRules sg accountId = .ok rules)
    {direction : Direction} {permission : Sdk.IpPermission}
    (member : permission ∈ Sg.permissionsOf sg direction) {pair : Sdk.UserIdGroupPair}
    (inPairs : pair ∈ permission.userIdGroupPairs) (foreign : Sg.pairResolved accountId pair = false)
    {traffic : Traffic} (covers : PermissionCovers permission traffic) (securityGroupId : String)
    (peer : Sg.PeerIdentity) :
    (Sg.evaluate securityGroupId rules direction traffic peer).kind ≠ .no := by
  have listed : (direction, permission, PermissionTarget.group pair) ∈ targetsBy readTargets sg := by
    have inTargets : PermissionTarget.group pair ∈ readTargets permission :=
      List.mem_append_right _ (List.mem_map_of_mem inPairs)
    simp only [targetsBy, List.mem_append, List.mem_flatten, List.mem_map]
    cases direction with
    | ingress => exact .inl ⟨_, ⟨permission, member, rfl⟩, List.mem_map_of_mem inTargets⟩
    | egress => exact .inr ⟨_, ⟨permission, member, rfl⟩, List.mem_map_of_mem inTargets⟩
  obtain ⟨rule, inRules, represents⟩ := (readTargets_represented mapped).exists_right listed
  obtain ⟨refId, -, target, unresolved⟩ := represents.target
  rw [foreign] at unresolved
  obtain ⟨groupId, portRange, built, covered⟩ := covers
  obtain ⟨groupId', built'⟩ := represents.portRange
  have unknown : Sg.ruleKind traffic peer.securityGroupIds rule = .unknown := by
    have sameProtocol : rule.protocol = permission.ipProtocol.getD "-1" := represents.protocol
    rw [Sg.ruleKind, sameProtocol, buildPortRange_unique built' built, covered, target, unresolved]
    rfl
  rw [Sg.evaluate_kind, ne_eq, Kleene.any_eq_no_iff]
  intro denied
  have no := denied _ (List.mem_map_of_mem (List.mem_filter.mpr
    ⟨inRules, decide_eq_true represents.direction⟩))
  rw [unknown] at no
  cases no

/-- No target of a mapped group is dropped, and none it cannot dereference turns into a denial, exactly
when none of its permissions names a prefix list. -/
theorem targets_kept_iff (mapped : Sg.mapSecurityGroupRules sg accountId = .ok rules) :
    (AllRepresented accountId sg rules ∧ NeverDenied accountId sg rules) ↔
      ∀ permission ∈ sg.ipPermissions ++ sg.ipPermissionsEgress, permission.prefixListIds = [] := by
  constructor
  · rintro ⟨⟨own, represented, within⟩, -⟩
    apply no_prefixLists_of_length_le
    rw [represented.length_eq, (readTargets_represented mapped).length_eq]
    exact within.length_le
  · intro none
    constructor
    · refine ⟨rules, ?_, .refl _⟩
      rw [groupTargets_of_no_prefixLists none]
      exact readTargets_represented mapped
    · intro direction permission member unresolvable traffic covers securityGroupId peer
      have free : permission.prefixListIds = [] := by
        apply none
        rw [List.mem_append]
        cases direction with
        | ingress => exact .inl member
        | egress => exact .inr member
      obtain ⟨pair, inPairs, foreign⟩ := unresolvable.resolve_right fun named => named free
      exact not_denied_of_crossAccount mapped member inPairs foreign covers securityGroupId peer

/-- A mapped group cannot be told from the group without its prefix lists. -/
theorem mapSecurityGroupRules_forget_prefixLists (sg : Sdk.SecurityGroup) (accountId : String) :
    Sg.mapSecurityGroupRules
        { sg with
          ipPermissions := sg.ipPermissions.map fun permission => { permission with prefixListIds := [] }
          ipPermissionsEgress :=
            sg.ipPermissionsEgress.map fun permission => { permission with prefixListIds := [] } }
        accountId =
      Sg.mapSecurityGroupRules sg accountId := by
  simp only [Sg.mapSecurityGroupRules, List.mapM_map]
  rfl

end Mapped

section Endpoint

/-- Web traffic to a gateway endpoint's prefix list. -/
private def endpointPermission : Sdk.IpPermission where
  ipProtocol := some "tcp"
  fromPort := some 443
  toPort := some 443
  prefixListIds := [⟨some "pl-1"⟩]

private def endpointGroup : Sdk.SecurityGroup where
  groupId := some "sg-1"
  vpcId := some "vpc-1"
  groupName := some "endpoint"
  ipPermissionsEgress := [endpointPermission]

private theorem endpointGroup_mapped :
    Sg.mapSecurityGroupRules endpointGroup "111122223333" = .ok [] := by decide

/-- A group whose only egress is to a prefix list becomes no rule at all, and its traffic is denied. -/
theorem targets_dropped_endpoint :
    ¬ ∀ sg accountId rules, Sg.mapSecurityGroupRules sg accountId = .ok rules →
      AllRepresented accountId sg rules ∧ NeverDenied accountId sg rules := by
  intro kept
  obtain ⟨-, neverDenied⟩ := kept endpointGroup "111122223333" [] endpointGroup_mapped
  refine neverDenied .egress endpointPermission (List.mem_singleton_self _) (.inr (by decide))
    ⟨.tcp, some 443, .v4 0x0A000001⟩ ?_ "sg-1" ⟨[]⟩ ?_
  · exact ⟨"sg-1", some (.single 443), by decide, by decide⟩
  · decide

/-- A database in the account and one in a partner's. -/
private def partnerPermission : Sdk.IpPermission where
  ipProtocol := some "tcp"
  fromPort := some 5432
  toPort := some 5432
  ipRanges := [⟨some "10.2.0.0/16"⟩]
  userIdGroupPairs := [⟨some "sg-9", some "444455556666"⟩]

private def partnerGroup : Sdk.SecurityGroup where
  groupId := some "sg-1"
  vpcId := some "vpc-1"
  groupName := some "partner"
  ipPermissionsEgress := [partnerPermission]

private def partnerRules : List SgRule :=
  [⟨.egress, "tcp", some (.single 5432), .cidr "10.2.0.0/16", true⟩,
    ⟨.egress, "tcp", some (.single 5432), .securityGroupRef "sg-9", false⟩]

/-- Without prefix lists every target is kept, the partner's group as an unresolved rule; the gateway's
prefix list is not. -/
theorem targets_kept_partner :
    (AllRepresented "111122223333" partnerGroup partnerRules ∧
        NeverDenied "111122223333" partnerGroup partnerRules) ∧
      ¬ (AllRepresented "111122223333" endpointGroup [] ∧ NeverDenied "111122223333" endpointGroup []) := by
  constructor
  · exact (targets_kept_iff (by decide)).mpr (by decide)
  · intro kept
    have none := (targets_kept_iff endpointGroup_mapped).mp kept endpointPermission (List.mem_singleton_self _)
    cases none

end Endpoint

end NetHound.Soundness
