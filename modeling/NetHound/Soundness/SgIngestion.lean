import NetHound.Evaluate.Sg
import NetHound.Ingest.Sg

/-! # Security group permissions through ingestion

A permission means its targets: a flow it covers is let through from an address in one of its ranges
or from a member of one of the account's own groups, and a pair another account owns leaves the flow
open. The mapper fans a permission out into one rule for each target and the evaluator joins the
rules again. On permissions that name tcp, udp or every protocol, the two cancel out.
-/

namespace NetHound.Soundness

open Domain Net Ingest Evaluate

/-! ## What permissions mean -/

def permissionProtocol (permission : Sdk.IpPermission) (protocol : Protocol) : Bool :=
  match permission.ipProtocol.getD "-1" with
  | "-1" => true
  | "tcp" => protocol == .tcp
  | "udp" => protocol == .udp
  | _ => false

/-- No ports means every port, and a permission for every protocol has none that count. -/
def permissionPort (permission : Sdk.IpPermission) (port : UInt16) : Bool :=
  if permission.ipProtocol.getD "-1" = "-1" then true
  else
    match permission.fromPort, permission.toPort with
    | some low, some high => decide (low ≤ port.toNat ∧ (port.toNat : ℤ) ≤ high)
    | _, _ => true

def permissionCovers (protocol : Protocol) (port : UInt16) (permission : Sdk.IpPermission) : Bool :=
  permissionProtocol permission protocol && permissionPort permission port

/-- The account owns the group of the pair; a pair without an owner is its own. -/
def ownPair (account : String) (pair : Sdk.UserIdGroupPair) : Bool :=
  pair.userId.all fun owner => owner == account

/-- An IPv4 or IPv6 range contains the peer, or the peer is in a group of the account. -/
def namesPeer (account : String) (peerAddress : IpAddr) (groups : List String)
    (permission : Sdk.IpPermission) : Bool :=
  (permission.ipRanges.any fun range => range.cidrIp.any fun cidr => cidrAdmits cidr peerAddress) ||
    (permission.ipv6Ranges.any fun range => range.cidrIpv6.any fun cidr => cidrAdmits cidr peerAddress) ||
    permission.userIdGroupPairs.any fun pair =>
      ownPair account pair && pair.groupId.any fun groupId => groups.contains groupId

/-- What a group's permissions of a direction say about a flow. -/
def permissionsAllow (account : String) (permissions : List Sdk.IpPermission) (protocol : Protocol)
    (port : UInt16) (peerAddress : IpAddr) (groups : List String) : Kleene :=
  if permissions.any fun permission =>
      permissionCovers protocol port permission && namesPeer account peerAddress groups permission
    then .yes
  else if permissions.any fun permission => permissionCovers protocol port permission &&
      permission.userIdGroupPairs.any fun pair => !ownPair account pair
    then .unknown
  else .no

/-- Permissions the domain can express: tcp, udp or every protocol, a range of ports or none, and no
target left out. -/
structure WellFormed (permission : Sdk.IpPermission) : Prop where
  protocol : permission.ipProtocol.getD "-1" ∈ ["tcp", "udp", "-1"]
  ports : permission.fromPort = none ∧ permission.toPort = none ∨
    ∃ low high, permission.fromPort = some low ∧ permission.toPort = some high ∧
      0 ≤ low ∧ low ≤ high ∧ high ≤ 65535
  noPrefixLists : permission.prefixListIds = []
  targets : Ingest.Sg.TargetsPresent permission

def evaluateSg : Direction → String → List SgRule → Traffic → Sg.PeerIdentity → Verdict
  | .egress => Sg.evaluateSgEgress
  | .ingress => Sg.evaluateSgIngress

/-! ## One permission -/

private theorem pairResolved_eq (account : String) (pair : Sdk.UserIdGroupPair) :
    Ingest.Sg.pairResolved account pair = ownPair account pair := by
  rw [Ingest.Sg.pairResolved, ownPair]
  cases pair.userId <;> rfl

private theorem namesPeer_iff {account : String} {peerAddress : IpAddr} {groups : List String}
    {permission : Sdk.IpPermission} : namesPeer account peerAddress groups permission = true ↔
      (∃ cidr, some cidr ∈ Ingest.Sg.permissionCidrs permission ∧ cidrAdmits cidr peerAddress = true) ∨
        ∃ pair ∈ permission.userIdGroupPairs, Ingest.Sg.pairResolved account pair = true ∧
          ∃ refId, pair.groupId = some refId ∧ refId ∈ groups := by
  have ranges : ((permission.ipRanges.any fun range =>
        range.cidrIp.any fun cidr => cidrAdmits cidr peerAddress) ||
      permission.ipv6Ranges.any fun range =>
        range.cidrIpv6.any fun cidr => cidrAdmits cidr peerAddress) =
      (Ingest.Sg.permissionCidrs permission).any fun cidr =>
        cidr.any fun cidr => cidrAdmits cidr peerAddress := by
    rw [Ingest.Sg.permissionCidrs, List.any_append, List.any_map, List.any_map]
    rfl
  rw [namesPeer, ranges, Bool.or_eq_true, List.any_eq_true, List.any_eq_true]
  apply or_congr
  · constructor
    · rintro ⟨cidr, named, contains⟩
      obtain ⟨text, rfl, contains⟩ := (Option.any_eq_true _ _).mp contains
      exact ⟨text, named, contains⟩
    · rintro ⟨text, named, contains⟩
      exact ⟨some text, named, contains⟩
  · refine exists_congr fun pair => and_congr_right fun _ => ?_
    rw [Bool.and_eq_true, pairResolved_eq]
    refine and_congr_right fun _ => ?_
    cases pair.groupId <;> simp

section Permission

variable {permission : Sdk.IpPermission} (wellFormed : WellFormed permission)

include wellFormed

/-- The ports of a permission other than `-1` are a range the domain has, or absent. -/
private theorem WellFormed.exists_range :
    (permission.fromPort = none ∧ permission.toPort = none) ∨ ∃ range : PortRange,
      permission.fromPort = some (range.fromPort.toNat : ℤ) ∧
        permission.toPort = some (range.toPort.toNat : ℤ) := by
  rcases wellFormed.ports with absent | ⟨low, high, ofLow, ofHigh, nonneg, ordered, bounded⟩
  · exact Or.inl absent
  · right
    have lowNat : (UInt16.ofNat low.toNat).toNat = low.toNat := UInt16.toNat_ofNat_of_lt' (by
      change low.toNat < 65536
      omega)
    have highNat : (UInt16.ofNat high.toNat).toNat = high.toNat := UInt16.toNat_ofNat_of_lt' (by
      change high.toNat < 65536
      omega)
    refine ⟨⟨.ofNat low.toNat, .ofNat high.toNat, ?_⟩, ?_, ?_⟩
    · rw [UInt16.le_iff_toNat_le, lowNat, highNat]
      omega
    · rw [ofLow, lowNat, Int.toNat_of_nonneg nonneg]
    · rw [ofHigh, highNat, Int.toNat_of_nonneg (by omega)]

/-- The port range builds. -/
private theorem WellFormed.exists_portRange (groupId : String) : ∃ portRange,
    buildPortRange groupId "port_range" (permission.ipProtocol.getD "-1") permission.fromPort
      permission.toPort = .ok portRange := by
  by_cases sentinel : permission.ipProtocol.getD "-1" = "-1"
  · exact ⟨none, if_pos sentinel⟩
  · rcases wellFormed.exists_range with ⟨ofLow, ofHigh⟩ | ⟨range, ofLow, ofHigh⟩
    · exact ⟨none, by rw [ofLow, ofHigh, buildPortRange_none]⟩
    · exact ⟨some range, by rw [ofLow, ofHigh, buildPortRange_of_ordered _ _ sentinel]⟩

/-- The rules cover what the permission covers. -/
private theorem ruleCovers_permission {groupId : String} {portRange : Option PortRange}
    (built : buildPortRange groupId "port_range" (permission.ipProtocol.getD "-1") permission.fromPort
      permission.toPort = .ok portRange) (protocol : Protocol) (port : UInt16) (peerAddress : IpAddr) :
    ruleCovers (permission.ipProtocol.getD "-1") portRange ⟨protocol, some port, peerAddress⟩ =
      permissionCovers protocol port permission := by
  have named : ruleProtocolMatches (permission.ipProtocol.getD "-1") protocol =
      permissionProtocol permission protocol := by
    have known := wellFormed.protocol
    simp only [List.mem_cons, List.not_mem_nil, or_false] at known
    rw [permissionProtocol]
    rcases known with tcp | udp | sentinel
    · rw [tcp]
      cases protocol <;> rfl
    · rw [udp]
      cases protocol <;> rfl
    · rw [sentinel]
      rfl
  rw [ruleCovers, permissionCovers, named]
  congr 1
  rw [permissionPort]
  by_cases sentinel : permission.ipProtocol.getD "-1" = "-1"
  · rw [if_pos sentinel, sentinel]
    rfl
  · rw [if_neg sentinel, beq_eq_false_iff_ne.mpr sentinel, Bool.false_or]
    rcases wellFormed.exists_range with ⟨ofLow, ofHigh⟩ | ⟨range, ofLow, ofHigh⟩
    · rw [ofLow, ofHigh, buildPortRange_none] at built
      cases built
      rw [ofLow, ofHigh]
      rfl
    · rw [ofLow, ofHigh, buildPortRange_of_ordered _ _ sentinel] at built
      cases built
      rw [ofLow, ofHigh]
      change portMatches (some range) (some port) = decide _
      rw [portMatches, decide_eq_decide, UInt16.le_iff_toNat_le, UInt16.le_iff_toNat_le]
      omega

/-- A permission's rules admit the flow exactly when it covers the flow and names the peer. -/
private theorem exists_admitting_iff {groupId account : String} {portRange : Option PortRange}
    (built : buildPortRange groupId "port_range" (permission.ipProtocol.getD "-1") permission.fromPort
      permission.toPort = .ok portRange) (direction : Direction) (protocol : Protocol) (port : UInt16)
    (peerAddress : IpAddr) (groups : List String) :
    (∃ rule ∈ Ingest.Sg.permissionRules permission direction account portRange,
        Sg.ruleKind ⟨protocol, some port, peerAddress⟩ groups rule = .yes) ↔
      (permissionCovers protocol port permission && namesPeer account peerAddress groups permission) =
        true := by
  obtain ⟨cidrs, pairs⟩ := wellFormed.targets
  rw [Bool.and_eq_true, ← ruleCovers_permission wellFormed built protocol port peerAddress,
    namesPeer_iff]
  constructor
  · rintro ⟨rule, member, admitted⟩
    rcases List.mem_append.mp member with inCidrs | inPairs
    · obtain ⟨cidr, named, rfl⟩ := List.mem_map.mp inCidrs
      obtain ⟨text, rfl⟩ := Option.isSome_iff_exists.mp (cidrs cidr named)
      simp only [Sg.ruleKind, Option.getD_some] at admitted
      split_ifs at admitted with covers contains
      exact ⟨covers, Or.inl ⟨text, named, contains⟩⟩
    · obtain ⟨pair, listed, rfl⟩ := List.mem_map.mp inPairs
      obtain ⟨refId, ofPair⟩ := Option.isSome_iff_exists.mp (pairs pair listed)
      simp only [Sg.ruleKind, ofPair, Option.getD_some] at admitted
      split_ifs at admitted with covers own present
      exact ⟨covers, Or.inr ⟨pair, listed, own, refId, ofPair, present⟩⟩
  · rintro ⟨covers, ⟨text, named, contains⟩ | ⟨pair, listed, own, refId, ofPair, present⟩⟩
    · refine ⟨_, List.mem_append_left _ (List.mem_map.mpr ⟨some text, named, rfl⟩), ?_⟩
      simp only [Sg.ruleKind, Option.getD_some]
      rw [if_pos covers, if_pos contains]
    · refine ⟨_, List.mem_append_right _ (List.mem_map.mpr ⟨pair, listed, rfl⟩), ?_⟩
      simp only [Sg.ruleKind, ofPair, Option.getD_some]
      rw [if_pos covers, if_pos own, if_pos present]

/-- They leave it undecided exactly when it covers the flow and lists a pair of another account. -/
private theorem exists_undecided_iff {groupId account : String} {portRange : Option PortRange}
    (built : buildPortRange groupId "port_range" (permission.ipProtocol.getD "-1") permission.fromPort
      permission.toPort = .ok portRange) (direction : Direction) (protocol : Protocol) (port : UInt16)
    (peerAddress : IpAddr) (groups : List String) :
    (∃ rule ∈ Ingest.Sg.permissionRules permission direction account portRange,
        Sg.ruleKind ⟨protocol, some port, peerAddress⟩ groups rule = .unknown) ↔
      (permissionCovers protocol port permission &&
        permission.userIdGroupPairs.any fun pair => !ownPair account pair) = true := by
  rw [Bool.and_eq_true, ← ruleCovers_permission wellFormed built protocol port peerAddress,
    List.any_eq_true]
  constructor
  · rintro ⟨rule, member, undecided⟩
    rcases List.mem_append.mp member with inCidrs | inPairs
    · obtain ⟨cidr, _, rfl⟩ := List.mem_map.mp inCidrs
      simp only [Sg.ruleKind] at undecided
      split_ifs at undecided
    · obtain ⟨pair, listed, rfl⟩ := List.mem_map.mp inPairs
      simp only [Sg.ruleKind] at undecided
      split_ifs at undecided with covers own
      rw [pairResolved_eq] at own
      exact ⟨covers, pair, listed, by simpa using own⟩
  · rintro ⟨covers, pair, listed, foreign⟩
    refine ⟨_, List.mem_append_right _ (List.mem_map.mpr ⟨pair, listed, rfl⟩), ?_⟩
    simp only [Sg.ruleKind]
    rw [if_pos covers, if_neg]
    rw [pairResolved_eq]
    simpa using foreign

end Permission

/-! ## A whole group -/

private theorem any_iff_exists_rule {sg : Sdk.SecurityGroup} {account : String} {rules : List SgRule}
    (mapped : Ingest.Sg.mapSecurityGroupRules sg account = .ok rules) (direction : Direction)
    (wellFormed : ∀ permission ∈ Ingest.Sg.permissionsOf sg direction, WellFormed permission)
    {ofRule : SgRule → Prop} {ofPermission : Sdk.IpPermission → Bool}
    (each : ∀ permission groupId portRange, WellFormed permission →
      buildPortRange groupId "port_range" (permission.ipProtocol.getD "-1") permission.fromPort
          permission.toPort = .ok portRange →
        ((∃ rule ∈ Ingest.Sg.permissionRules permission direction account portRange, ofRule rule) ↔
          ofPermission permission = true)) :
    (∃ rule ∈ rules, rule.direction = direction ∧ ofRule rule) ↔
      (Ingest.Sg.permissionsOf sg direction).any ofPermission = true := by
  obtain ⟨groupId, byPermission⟩ := Ingest.Sg.exists_rule_iff mapped direction ofRule
  rw [byPermission, List.any_eq_true]
  refine exists_congr fun permission => and_congr_right fun member => ?_
  have shaped := wellFormed permission member
  constructor
  · rintro ⟨portRange, built, found⟩
    exact (each permission groupId portRange shaped built).mp found
  · intro holds
    obtain ⟨portRange, built⟩ := shaped.exists_portRange groupId
    exact ⟨portRange, built, (each permission groupId portRange shaped built).mpr holds⟩

/-- A group with an id whose permissions are well formed is mapped, and evaluating its rules says
what its permissions say. -/
theorem evaluateSg_mapped {sg : Sdk.SecurityGroup} {account : String}
    (wellFormed : ∀ direction, ∀ permission ∈ Ingest.Sg.permissionsOf sg direction,
      WellFormed permission) :
    (sg.groupId.isSome = true →
        ∃ rules, Ingest.Sg.mapSecurityGroupRules sg account = .ok rules) ∧
      ∀ rules, Ingest.Sg.mapSecurityGroupRules sg account = .ok rules →
        ∀ (direction : Direction) (securityGroupId : String) (protocol : Protocol) (port : UInt16)
          (peerAddress : IpAddr) (groups : List String),
          (evaluateSg direction securityGroupId rules ⟨protocol, some port, peerAddress⟩ ⟨groups⟩).kind =
            permissionsAllow account (Ingest.Sg.permissionsOf sg direction) protocol port peerAddress
              groups := by
  constructor
  · intro named
    apply Ingest.Sg.mapSecurityGroupRules_of_permissions named
    intro groupId direction permission member
    have shaped := wellFormed direction permission member
    obtain ⟨portRange, built⟩ := shaped.exists_portRange groupId
    exact ⟨_, Ingest.Sg.mapPermission_eq_ok_iff.mpr ⟨shaped.targets, portRange, built, rfl⟩⟩
  · intro rules mapped direction securityGroupId protocol port peerAddress groups
    have admitted := any_iff_exists_rule mapped direction (wellFormed direction)
      fun permission groupId portRange shaped built =>
        exists_admitting_iff shaped built direction protocol port peerAddress groups
    have undecided := any_iff_exists_rule mapped direction (wellFormed direction)
      fun permission groupId portRange shaped built =>
        exists_undecided_iff shaped built direction protocol port peerAddress groups
    have evaluated : evaluateSg direction securityGroupId rules ⟨protocol, some port, peerAddress⟩
          ⟨groups⟩ =
        Sg.evaluate securityGroupId rules direction ⟨protocol, some port, peerAddress⟩ ⟨groups⟩ := by
      cases direction <;> rfl
    rw [evaluated, permissionsAllow]
    split_ifs with allows leaves
    · exact (Sg.evaluate_kind_yes_iff _ _ _ _ _).mpr (admitted.mpr allows)
    · exact (Sg.evaluate_kind_unknown_iff _ _ _ _ _).mpr ⟨mt admitted.mp allows, undecided.mpr leaves⟩
    · cases outcome : (Sg.evaluate securityGroupId rules direction
        ⟨protocol, some port, peerAddress⟩ ⟨groups⟩).kind with
      | no => rfl
      | unknown =>
        exact absurd (undecided.mp ((Sg.evaluate_kind_unknown_iff _ _ _ _ _).mp outcome).2) leaves
      | yes => exact absurd (admitted.mp ((Sg.evaluate_kind_yes_iff _ _ _ _ _).mp outcome)) allows

/-- Ranges of both families beside an own and a foreign group, and every protocol with stray ports. -/
def mixedGroup : Sdk.SecurityGroup where
  groupId := some "sg-1"
  ipPermissions := [
    { ipProtocol := some "tcp"
      fromPort := some 443
      toPort := some 443
      ipRanges := [⟨some "10.0.0.0/16"⟩]
      ipv6Ranges := [⟨some "::1/128"⟩]
      userIdGroupPairs := [⟨some "sg-2", none⟩, ⟨some "sg-3", some "999900001111"⟩] }]
  ipPermissionsEgress := [
    { ipProtocol := some "-1", fromPort := some 0, toPort := some 0, ipRanges := [⟨some "0.0.0.0/0"⟩] }]

theorem evaluateSg_mixedGroup : ∃ rules,
    Ingest.Sg.mapSecurityGroupRules mixedGroup "111122223333" = .ok rules ∧
      (Sg.evaluateSgIngress "sg-1" rules ⟨.tcp, some 443, .v4 0xC0A80001⟩ ⟨["sg-9"]⟩).kind = .unknown := by
  have wellFormed : ∀ direction, ∀ permission ∈ Ingest.Sg.permissionsOf mixedGroup direction,
      WellFormed permission := by
    intro direction permission member
    cases direction
    · obtain rfl := List.mem_singleton.mp member
      exact ⟨by decide, Or.inr ⟨443, 443, rfl, rfl, by decide⟩, rfl, by decide⟩
    · obtain rfl := List.mem_singleton.mp member
      exact ⟨by decide, Or.inr ⟨0, 0, rfl, rfl, by decide⟩, rfl, by decide⟩
  obtain ⟨succeeds, means⟩ := evaluateSg_mapped wellFormed
  obtain ⟨rules, mapped⟩ := succeeds rfl
  exact ⟨rules, mapped, (means rules mapped .ingress "sg-1" .tcp 443 (.v4 0xC0A80001) ["sg-9"]).trans
    (by decide)⟩

end NetHound.Soundness
