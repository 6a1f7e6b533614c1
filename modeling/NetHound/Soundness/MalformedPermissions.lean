import NetHound.Ingest.Batch
import NetHound.Soundness.IcmpRules

/-! # Permissions that ingestion rejects

A rejected port pair fails its permission, its group, the batch and with it the whole run, so a rejection
has to be a malformed pair. One normaliser reads every pair as an ordered range. For ports that is right;
for ICMP the pair is a type and a code, which stand in no order, and a code below its type (an echo
request of code zero) is rejected as an inverted range. That is the only well-formed pair it rejects.
-/

namespace NetHound.Soundness

open Domain Graph Ingest Topology

/-- The protocols whose bounds are a type and a code. -/
def IsIcmp (protocol : String) : Prop := protocol = "icmp" ∨ protocol = "icmpv6"

/-- A bound exceeds `u16`, or the pair is inverted. -/
def PortsMalformed (fromPort toPort : Option ℤ) : Prop :=
  (∃ bound, fromPort = some bound ∧ 65535 < bound) ∨ (∃ bound, toPort = some bound ∧ 65535 < bound) ∨
    ∃ low high, fromPort = some low ∧ toPort = some high ∧ high < low

/-- One half is neither the sentinel nor a byte. -/
def TypeCodeMalformed (fromPort toPort : Option ℤ) : Prop :=
  (∃ half, fromPort = some half ∧ ¬ IcmpHalf half) ∨ ∃ half, toPort = some half ∧ ¬ IcmpHalf half

/-- What is wrong with a pair of bounds under a protocol; nothing under all protocols. -/
def Malformed (protocol : String) (fromPort toPort : Option ℤ) : Prop :=
  (IsIcmp protocol ∧ TypeCodeMalformed fromPort toPort) ∨
    (protocol ≠ "-1" ∧ ¬ IsIcmp protocol ∧ PortsMalformed fromPort toPort)

/-- A type and a code, each a byte, with the code the smaller. -/
def CodeBelowType (protocol : String) (fromPort toPort : Option ℤ) : Prop :=
  IsIcmp protocol ∧ ∃ icmpType code, fromPort = some icmpType ∧ toPort = some code ∧
    0 ≤ code ∧ code < icmpType ∧ icmpType ≤ 255

section Pair

variable (resourceId field : String) {protocol : String} {fromPort toPort : Option ℤ}

private theorem rejected_of_codeBelowType (below : CodeBelowType protocol fromPort toPort) :
    ∃ error, buildPortRange resourceId field protocol fromPort toPort = .error error := by
  obtain ⟨icmp, icmpType, code, fromSome, toSome, nonneg, smaller, -⟩ := below
  rw [buildPortRange_error_iff]
  constructor
  · rcases icmp with rfl | rfl <;> decide
  · refine ⟨icmpType, code, icmpType, code, fromSome, toSome, ?_, .inl smaller⟩
    rw [effectiveBounds_eq, if_neg (by omega), if_neg (by omega)]

private theorem wellFormed_of_codeBelowType (below : CodeBelowType protocol fromPort toPort) :
    ¬ Malformed protocol fromPort toPort := by
  obtain ⟨icmp, icmpType, code, rfl, rfl, nonneg, smaller, small⟩ := below
  rintro (⟨-, ⟨half, same, invalid⟩ | ⟨half, same, invalid⟩⟩ | ⟨-, ports, -⟩)
  · cases same
    apply invalid
    right
    omega
  · cases same
    apply invalid
    right
    omega
  · exact ports icmp

private theorem malformed_of_rejected (apart : ¬ CodeBelowType protocol fromPort toPort)
    (rejected : ∃ error, buildPortRange resourceId field protocol fromPort toPort = .error error) :
    Malformed protocol fromPort toPort := by
  obtain ⟨named, fromBound, toBound, low, high, rfl, rfl, effective, wrong⟩ :=
    (buildPortRange_error_iff _ _ _ _ _).mp rejected
  rw [effectiveBounds_eq] at effective
  by_cases icmp : IsIcmp protocol
  · refine .inl ⟨icmp, ?_⟩
    by_contra valid
    simp only [TypeCodeMalformed, Option.some.injEq, exists_eq_left', not_or, not_not] at valid
    obtain ⟨typeValid, codeValid⟩ := valid
    unfold IcmpHalf at typeValid codeValid
    apply apart
    refine ⟨icmp, fromBound, toBound, rfl, rfl, ?_⟩
    split_ifs at effective <;> cases effective <;> omega
  · refine .inr ⟨named, icmp, ?_⟩
    simp only [PortsMalformed, Option.some.injEq, exists_eq_left', exists_and_left]
    split_ifs at effective <;> cases effective <;> omega

/-- A rejected pair is a malformed one except for a code below its type. -/
private theorem onlyMalformed_iff :
    ((∃ error, buildPortRange resourceId field protocol fromPort toPort = .error error) →
        Malformed protocol fromPort toPort) ↔ ¬ CodeBelowType protocol fromPort toPort := by
  constructor
  · intro only below
    exact wellFormed_of_codeBelowType below (only (rejected_of_codeBelowType resourceId field below))
  · exact malformed_of_rejected resourceId field

/-- A well-formed pair builds exactly when it is not a code below its type. -/
private theorem exists_portRange_of_wellFormed (wellFormed : ¬ Malformed protocol fromPort toPort) :
    (∃ portRange, buildPortRange resourceId field protocol fromPort toPort = .ok portRange) ↔
      ¬ CodeBelowType protocol fromPort toPort := by
  have rejected : (∃ error, buildPortRange resourceId field protocol fromPort toPort = .error error) ↔
      CodeBelowType protocol fromPort toPort := by
    constructor
    · intro rejected
      by_contra apart
      exact wellFormed (malformed_of_rejected resourceId field apart rejected)
    · exact rejected_of_codeBelowType resourceId field
  rw [← rejected]
  rcases buildPortRange resourceId field protocol fromPort toPort with error | portRange
  · simp
  · simp

end Pair

/-! ## Groups, batches and runs -/

/-- A permission of a known protocol with a well-formed pair and all its target ids. -/
def PermissionWellFormed (permission : Sdk.IpPermission) : Prop :=
  permission.ipProtocol.getD "-1" ∈ ["tcp", "udp", "icmp", "icmpv6", "-1"] ∧
    ¬ Malformed (permission.ipProtocol.getD "-1") permission.fromPort permission.toPort ∧
    Sg.TargetsPresent permission

/-- Every permission of the group is well-formed. -/
def GroupWellFormed (sg : Sdk.SecurityGroup) : Prop :=
  ∀ permission ∈ sg.ipPermissions ++ sg.ipPermissionsEgress, PermissionWellFormed permission

/-- Some permission of the group names an ICMP code below its type. -/
def HasCodeBelowType (sg : Sdk.SecurityGroup) : Prop :=
  ∃ permission ∈ sg.ipPermissions ++ sg.ipPermissionsEgress,
    CodeBelowType (permission.ipProtocol.getD "-1") permission.fromPort permission.toPort

/-- A well-formed group maps exactly when none of its permissions names a code below its type. -/
private theorem exists_rules_of_wellFormed {sg : Sdk.SecurityGroup} (named : sg.groupId.isSome = true)
    (wellFormed : GroupWellFormed sg) (accountId : String) :
    (∃ rules, Sg.mapSecurityGroupRules sg accountId = .ok rules) ↔ ¬ HasCodeBelowType sg := by
  obtain ⟨groupId, ofGroup⟩ := Option.isSome_iff_exists.mp named
  rw [Sg.exists_mapSecurityGroupRules_iff ofGroup, HasCodeBelowType]
  constructor
  · rintro mapped ⟨permission, member, below⟩
    obtain ⟨-, builds⟩ := mapped permission member
    exact (exists_portRange_of_wellFormed groupId "port_range" (wellFormed permission member).2.1).mp builds
      below
  · intro apart permission member
    obtain ⟨-, sound, present⟩ := wellFormed permission member
    refine ⟨present, (exists_portRange_of_wellFormed groupId "port_range" sound).mpr fun below => ?_⟩
    exact apart ⟨permission, member, below⟩

/-- Collections whose groups are well-formed and whose other resources map. -/
structure CollectionsWellFormed (accountId : String) (collections : Sdk.Collections) : Prop where
  groups : ∀ pair ∈ (keptCollections accountId collections).securityGroups, GroupWellFormed pair.1
  attached : ∀ pair ∈ (keptCollections accountId collections).enis,
    ∀ group ∈ pair.1.groups, group.groupId.isSome
  networkAcls : ∀ pair ∈ (keptCollections accountId collections).networkAcls,
    ∃ rules, Nacl.mapNetworkAclRules pair.1 = .ok rules

/-- Some group that is not left out names an ICMP code below its type. -/
def CollectsCodeBelowType (accountId : String) (collections : Sdk.Collections) : Prop :=
  ∃ pair ∈ (keptCollections accountId collections).securityGroups, HasCodeBelowType pair.1

private theorem exists_batch_of_wellFormed {accountId : String} {collections : Sdk.Collections}
    (wellFormed : CollectionsWellFormed accountId collections) :
    (∃ batch, (buildGraphBatch accountId collections).2 = .ok batch) ↔
      ¬ CollectsCodeBelowType accountId collections := by
  have named (pair : Sdk.SecurityGroup × SecurityGroupRecord)
      (member : pair ∈ (keptCollections accountId collections).securityGroups) :
      pair.1.groupId.isSome = true := by
    obtain ⟨-, mapped⟩ := mem_kept_iff.mp member
    exact (mapSecurityGroupNode_maps_iff.mp ⟨_, mapped⟩).1
  rw [exists_buildGraphBatch_iff, and_iff_right wellFormed.attached, and_iff_left wellFormed.networkAcls,
    CollectsCodeBelowType]
  constructor
  · rintro mapped ⟨pair, member, below⟩
    exact (exists_rules_of_wellFormed (named pair member) (wellFormed.groups pair member) accountId).mp
      (mapped pair member) below
  · intro apart pair member
    apply (exists_rules_of_wellFormed (named pair member) (wellFormed.groups pair member) accountId).mpr
    intro below
    exact apart ⟨pair, member, below⟩

/-- A run fails on mapping exactly when its batch does not build. -/
private theorem run_mapping_iff (accountId : String) (collections : Sdk.Collections) (graph : Neo4jGraph) :
    (∀ source, runFullIngestWithClient accountId collections graph ≠ .error (.mapping source)) ↔
      ∃ batch, (buildGraphBatch accountId collections).2 = .ok batch := by
  rcases mapped : buildGraphBatch accountId collections with ⟨errors, error | batch⟩
  · refine iff_of_false ?_ ?_
    · intro passed
      apply passed error
      rw [runFullIngestWithClient, mapped]
    · rintro ⟨batch, built⟩
      cases built
  · refine iff_of_true ?_ ⟨batch, rfl⟩
    intro source failed
    rw [runFullIngestWithClient, mapped] at failed
    dsimp only at failed
    split at failed <;> cases failed

/-- Only malformed pairs are rejected, well-formed groups map, and a run over them does not fail on
mapping, each exactly when no ICMP permission names a code below its type. -/
theorem rejects_only_malformed_iff (resourceId field protocol : String) (fromPort toPort : Option ℤ)
    (sg : Sdk.SecurityGroup) (accountId : String) (collections : Sdk.Collections) (graph : Neo4jGraph) :
    (((∃ error, buildPortRange resourceId field protocol fromPort toPort = .error error) →
        Malformed protocol fromPort toPort) ↔ ¬ CodeBelowType protocol fromPort toPort) ∧
    (sg.groupId.isSome = true → GroupWellFormed sg →
      ((∃ rules, Sg.mapSecurityGroupRules sg accountId = .ok rules) ↔ ¬ HasCodeBelowType sg)) ∧
    (CollectionsWellFormed accountId collections →
      ((∃ batch, (buildGraphBatch accountId collections).2 = .ok batch) ↔
        ¬ CollectsCodeBelowType accountId collections) ∧
      ((∀ source, runFullIngestWithClient accountId collections graph ≠ .error (.mapping source)) ↔
        ¬ CollectsCodeBelowType accountId collections)) := by
  refine ⟨onlyMalformed_iff resourceId field, ?_, ?_⟩
  · intro named wellFormed
    exact exists_rules_of_wellFormed named wellFormed accountId
  · intro wellFormed
    rw [run_mapping_iff]
    exact ⟨exists_batch_of_wellFormed wellFormed, exists_batch_of_wellFormed wellFormed⟩

section Echo

/-- Echo requests of a code, from anywhere. -/
private def echoPermissionOf (code : ℤ) : Sdk.IpPermission where
  ipProtocol := some "icmp"
  fromPort := some 8
  toPort := some code
  ipRanges := [⟨some "0.0.0.0/0"⟩]

private def echoGroup (code : ℤ) : Sdk.SecurityGroup where
  groupId := some "sg-1"
  vpcId := some "vpc-1"
  groupName := some "ping"
  ipPermissions := [echoPermissionOf code]

private def echoCollections (code : ℤ) : Sdk.Collections where
  securityGroups := [echoGroup code]

variable {code : ℤ}

private theorem echoCode_below_iff : CodeBelowType "icmp" (some 8) (some code) ↔ 0 ≤ code ∧ code < 8 := by
  constructor
  · rintro ⟨-, _, _, ofType, ofCode, nonneg, smaller, -⟩
    cases ofType
    cases ofCode
    exact ⟨nonneg, smaller⟩
  · exact fun ⟨nonneg, smaller⟩ => ⟨.inl rfl, 8, code, rfl, rfl, nonneg, smaller, by omega⟩

private theorem echoGroup_below_iff : HasCodeBelowType (echoGroup code) ↔ 0 ≤ code ∧ code < 8 := by
  rw [← echoCode_below_iff]
  constructor
  · rintro ⟨permission, member, below⟩
    rw [List.mem_singleton.mp member] at below
    exact below
  · exact fun below => ⟨echoPermissionOf code, List.mem_singleton_self _, below⟩

private theorem echoCollections_below (below : CollectsCodeBelowType "111122223333" (echoCollections code)) :
    0 ≤ code ∧ code < 8 := by
  obtain ⟨pair, member, ofGroup⟩ := below
  rw [List.mem_singleton.mp (mem_kept_iff.mp member).1] at ofGroup
  exact echoGroup_below_iff.mp ofGroup

private theorem echoGroup_wellFormed (half : IcmpHalf code) : GroupWellFormed (echoGroup code) := by
  intro permission member
  obtain rfl := List.mem_singleton.mp member
  have named : "icmp" ∈ ["tcp", "udp", "icmp", "icmpv6", "-1"] := by decide
  have present : Sg.TargetsPresent (echoPermissionOf 0) := by decide
  refine ⟨named, ?_, present⟩
  rintro (⟨-, ⟨_, same, invalid⟩ | ⟨_, same, invalid⟩⟩ | ⟨-, ports, -⟩)
  · cases same
    exact invalid (by decide)
  · cases same
    exact invalid half
  · exact ports (.inl rfl)

private theorem echoCollections_wellFormed (half : IcmpHalf code) :
    CollectionsWellFormed "111122223333" (echoCollections code) := by
  constructor
  · intro pair member
    have same := List.mem_singleton.mp (mem_kept_iff.mp member).1
    rw [same]
    exact echoGroup_wellFormed half
  · intro pair member
    cases (mem_kept_iff.mp member).1
  · intro pair member
    cases (mem_kept_iff.mp member).1

/-- The permission for echo requests of code zero is well-formed, and its group is rejected. -/
theorem rejects_echoCode :
    (¬ ∀ resourceId field protocol fromPort toPort,
      (∃ error, buildPortRange resourceId field protocol fromPort toPort = .error error) →
        Malformed protocol fromPort toPort) ∧
    ¬ ∀ sg accountId, sg.groupId.isSome = true → GroupWellFormed sg →
      ∃ rules, Sg.mapSecurityGroupRules sg accountId = .ok rules := by
  have below : CodeBelowType "icmp" (some 8) (some 0) := echoCode_below_iff.mpr (by decide)
  have wellFormed : GroupWellFormed (echoGroup 0) := echoGroup_wellFormed (by decide)
  constructor
  · intro only
    exact wellFormed_of_codeBelowType below
      (only "sg-1" "port_range" _ _ _ (rejected_of_codeBelowType "sg-1" "port_range" below))
  · intro maps
    exact (exists_rules_of_wellFormed rfl wellFormed "111122223333").mp
      (maps (echoGroup 0) "111122223333" rfl wellFormed) (echoGroup_below_iff.mpr (by decide))

/-- A group for echo requests of any code maps, and one for those of code zero does not. -/
theorem rejects_only_malformed_echo :
    (∃ rules, Sg.mapSecurityGroupRules (echoGroup (-1)) "111122223333" = .ok rules) ∧
      (∃ batch, (buildGraphBatch "111122223333" (echoCollections (-1))).2 = .ok batch) ∧
        ¬ ∃ rules, Sg.mapSecurityGroupRules (echoGroup 0) "111122223333" = .ok rules := by
  obtain ⟨-, groups, batches⟩ := rejects_only_malformed_iff "sg-1" "port_range" "icmp" (some 8) (some (-1))
    (echoGroup (-1)) "111122223333" (echoCollections (-1)) .empty
  obtain ⟨-, groups', -⟩ := rejects_only_malformed_iff "sg-1" "port_range" "icmp" (some 8) (some 0)
    (echoGroup 0) "111122223333" (echoCollections 0) .empty
  refine ⟨(groups rfl (echoGroup_wellFormed (by decide))).mpr ?_,
    (batches (echoCollections_wellFormed (by decide))).1.mpr ?_, fun mapped => ?_⟩
  · exact fun below => absurd (echoGroup_below_iff.mp below) (by decide)
  · exact fun below => absurd (echoCollections_below below) (by decide)
  · exact (groups' rfl (echoGroup_wellFormed (by decide))).mp mapped (echoGroup_below_iff.mpr (by decide))

end Echo

end NetHound.Soundness
