import NetHound.Ingest.Closure
import NetHound.Ingest.Port
import NetHound.ToMathlib.ListPieces

/-! # No resource is lost or misread while nodes map

`map_nodes` splits its slice into the resources that map, beside their records, and the errors of the
others. Everything later zipped from the two lists therefore carries the id of the resource itself, and
records and warnings together count what was collected.
-/

namespace NetHound.Soundness

open Domain Graph Ingest Topology

/-! ## Mapping one slice -/

section Slice

variable {T R : Type} (mapOne : T → String → Except MappingError R) (accountId : String)

/-- The resources of a slice that map, in order. -/
def mappedItems (raw : List T) : List T := raw.filter fun item => (mapOne item accountId).isOk

/-- The errors of the others, in order. -/
def mappingErrors (raw : List T) : List MappingError :=
  raw.filterMap fun item =>
    match mapOne item accountId with
    | .ok _ => none
    | .error error => some error

/-- The slice is split, and each record stands beside its own resource. -/
structure Aligned (raw : List T) (mapped : MappedNodes T R) : Prop where
  lengths : mapped.items.length = mapped.records.length
  records : ∀ (i : ℕ) (item : T) (record : R), mapped.items[i]? = some item →
    mapped.records[i]? = some record → mapOne item accountId = .ok record
  items : mapped.items = mappedItems mapOne accountId raw
  errors : mapped.errors = mappingErrors mapOne accountId raw

variable {mapOne accountId}

private theorem forall₂_mapNodes (raw : List T) :
    List.Forall₂ (fun item record => mapOne item accountId = .ok record)
      (mapNodes mapOne accountId raw).items (mapNodes mapOne accountId raw).records := by
  induction raw with
  | nil => exact .nil
  | cons item raw ih =>
    rcases mapped : mapOne item accountId with error | record
    · simp only [mapNodes, mapped]
      exact ih
    · simp only [mapNodes, mapped]
      exact .cons mapped ih

private theorem items_mapNodes (raw : List T) :
    (mapNodes mapOne accountId raw).items = mappedItems mapOne accountId raw := by
  induction raw with
  | nil => rfl
  | cons item raw ih =>
    rcases mapped : mapOne item accountId with error | record
    · simp only [mapNodes, mapped, mappedItems, List.filter_cons]
      exact ih
    · simp only [mapNodes, mapped, mappedItems, List.filter_cons]
      exact congrArg (item :: ·) ih

private theorem errors_mapNodes (raw : List T) :
    (mapNodes mapOne accountId raw).errors = mappingErrors mapOne accountId raw := by
  induction raw with
  | nil => rfl
  | cons item raw ih =>
    rcases mapped : mapOne item accountId with error | record
    · simp only [mapNodes, mapped, mappingErrors, List.filterMap_cons]
      exact congrArg (error :: ·) ih
    · simp only [mapNodes, mapped, mappingErrors, List.filterMap_cons]
      exact ih

theorem mapNodes_aligned (raw : List T) : Aligned mapOne accountId raw (mapNodes mapOne accountId raw) := by
  have beside : List.Forall₂ (fun item record => mapOne item accountId = .ok record) _ _ :=
    forall₂_mapNodes raw
  refine ⟨beside.length_eq, fun i item record foundItem foundRecord => ?_, items_mapNodes raw,
    errors_mapNodes raw⟩
  obtain ⟨inItems, rfl⟩ := List.getElem?_eq_some_iff.mp foundItem
  obtain ⟨inRecords, rfl⟩ := List.getElem?_eq_some_iff.mp foundRecord
  exact beside.get inItems inRecords

/-- Records and errors together are as many as the slice. -/
theorem length_mapNodes (raw : List T) :
    (mapNodes mapOne accountId raw).records.length + (mapNodes mapOne accountId raw).errors.length =
      raw.length := by
  induction raw with
  | nil => rfl
  | cons item raw ih =>
    rcases mapped : mapOne item accountId with error | record <;>
      simp only [mapNodes, mapped, List.length_cons] <;> omega

theorem map_fst_kept (raw : List T) :
    (kept mapOne accountId raw).map Prod.fst = mappedItems mapOne accountId raw := by
  rw [← (mapNodes_items_records mapOne accountId raw).1]
  exact items_mapNodes raw

/-- What is read off each kept pair is read off the resource alone. -/
private theorem map_flatMap_kept {E V : Type} {edges : T × R → List E} {read : E → V} {own : T → List V}
    {raw : List T} (same : ∀ pair ∈ kept mapOne accountId raw, (edges pair).map read = own pair.1) :
    ((kept mapOne accountId raw).flatMap edges).map read =
      (mappedItems mapOne accountId raw).flatMap own := by
  rw [List.map_flatMap, ← map_fst_kept, List.flatMap_map]
  exact List.flatMap_congr same

end Slice

/-! ## The owners of the edges -/

/-- The rules of a group that maps them. -/
def rulesOfGroup (accountId : String) (sg : Sdk.SecurityGroup) : List SgRule :=
  (Sg.mapSecurityGroupRules sg accountId).toOption.getD []

/-- The rules of a network ACL that maps them. -/
def rulesOfAcl (acl : Sdk.NetworkAcl) : List NaclRule := (Nacl.mapNetworkAclRules acl).toOption.getD []

def destinationOf (route : Sdk.Route) : Option String :=
  route.destinationCidrBlock.or route.destinationIpv6CidrBlock

/-- The edges of a batch by kind, each with the ids of the resource it was read from: one for each group,
association, route and rule of the resources that map, in order. -/
structure EdgesOwned (accountId : String) (collections : Sdk.Collections) (batch : GraphBatch) : Prop where
  hasSg : (batch.edges.filterMap asHasSg).map (fun edge => (some edge.eniId, some edge.securityGroupId)) =
    (mappedItems mapEniNode accountId collections.networkInterfaces).flatMap fun eni =>
      eni.groups.map fun group => (eni.networkInterfaceId, group.groupId)
  protectedBy : (batch.edges.filterMap asProtectedBy).map
      (fun edge => (some edge.networkAclId, some edge.subnetId)) =
    (mappedItems mapNetworkAclNode accountId collections.networkAcls).flatMap fun acl =>
      (acl.associations.filter fun association => association.subnetId.isSome).map fun association =>
        (acl.networkAclId, association.subnetId)
  usesRouteTable : (batch.edges.filterMap asUsesRouteTable).map
      (fun edge => (some edge.routeTableId, some edge.subnetId)) =
    (mappedItems mapRouteTableNode accountId collections.routeTables).flatMap fun routeTable =>
      (routeTable.associations.filter fun association => association.subnetId.isSome).map fun association =>
        (routeTable.routeTableId, association.subnetId)
  routesTo : (batch.edges.filterMap asRoutesTo).map (fun edge =>
      (some edge.routeTableId, some edge.destinationCidr, some (edge.targetVpcId, edge.resolved))) =
    (mappedItems mapRouteTableNode accountId collections.routeTables).flatMap fun routeTable =>
      (routeTable.routes.filter fun route => (destinationOf route).isSome).map fun route =>
        (routeTable.routeTableId, destinationOf route, routeTable.vpcId.map fun rtVpcId =>
          resolveRouteTarget accountId rtVpcId route collections.vpcPeeringConnections)
  sgRulesMap : ∀ sg ∈ mappedItems mapSecurityGroupNode accountId collections.securityGroups,
    Sg.mapSecurityGroupRules sg accountId = .ok (rulesOfGroup accountId sg)
  allowsIngress : (batch.edges.filterMap asAllowsIngress).map (fun owned => (some owned.1, owned.2)) =
    (mappedItems mapSecurityGroupNode accountId collections.securityGroups).flatMap fun sg =>
      ((rulesOfGroup accountId sg).filter fun rule => rule.direction = .ingress).map (sg.groupId, ·)
  allowsEgress : (batch.edges.filterMap asAllowsEgress).map (fun owned => (some owned.1, owned.2)) =
    (mappedItems mapSecurityGroupNode accountId collections.securityGroups).flatMap fun sg =>
      ((rulesOfGroup accountId sg).filter fun rule => rule.direction = .egress).map (sg.groupId, ·)
  aclRulesMap : ∀ acl ∈ mappedItems mapNetworkAclNode accountId collections.networkAcls,
    Nacl.mapNetworkAclRules acl = .ok (rulesOfAcl acl)
  hasRule : (batch.edges.filterMap asHasRule).map (fun owned => (some owned.1, owned.2)) =
    (mappedItems mapNetworkAclNode accountId collections.networkAcls).flatMap fun acl =>
      (rulesOfAcl acl).map (acl.networkAclId, ·)

private theorem allows_owned {accountId : String} {raw : List Sdk.SecurityGroup} (direction : Direction) :
    ((kept mapSecurityGroupNode accountId raw).flatMap (ownedSgRules accountId direction)).map
        (fun owned => (some owned.1, owned.2)) =
      (mappedItems mapSecurityGroupNode accountId raw).flatMap fun sg =>
        ((rulesOfGroup accountId sg).filter fun rule => rule.direction = direction).map (sg.groupId, ·) := by
  refine map_flatMap_kept fun pair member => ?_
  rw [(mapSecurityGroupNode_ok (mem_kept_iff.mp member).2).1, ownedSgRules, List.map_map]
  rfl

theorem edgesOwned_of_built {accountId : String} {collections : Sdk.Collections} {batch : GraphBatch}
    (built : Built accountId collections batch) : EdgesOwned accountId collections batch where
  hasSg := by
    rw [built.edges, edges_asHasSg]
    refine map_flatMap_kept fun pair member => ?_
    rw [eniGroups, List.map_map]
    refine List.map_congr_left fun group inGroups => ?_
    obtain ⟨groupId, named⟩ := Option.isSome_iff_exists.mp (built.groupsNamed pair member group inGroups)
    rw [Function.comp_apply, (mapEniNode_ok (mem_kept_iff.mp member).2).1, named, Option.getD_some]
  protectedBy := by
    rw [built.edges, edges_asProtectedBy]
    refine map_flatMap_kept fun pair member => ?_
    refine List.map_filterMap_map (fun association subnetId present => ?_) _
    rw [(mapNetworkAclNode_ok (mem_kept_iff.mp member).2).1, present]
  usesRouteTable := by
    rw [built.edges, edges_asUsesRouteTable]
    refine map_flatMap_kept fun pair member => ?_
    refine List.map_filterMap_map (fun association subnetId present => ?_) _
    rw [(mapRouteTableNode_ok (mem_kept_iff.mp member).2).1, present]
  routesTo := by
    rw [built.edges, edges_asRoutesTo]
    refine map_flatMap_kept fun pair member => ?_
    refine List.map_filterMap_map (fun route destinationCidr present => ?_) _
    obtain ⟨id, vpcId⟩ := mapRouteTableNode_ok (mem_kept_iff.mp member).2
    rw [id, vpcId, destinationOf, present]
    rfl
  sgRulesMap := fun sg member => by
    rw [← map_fst_kept] at member
    obtain ⟨pair, inKept, rfl⟩ := List.mem_map.mp member
    exact built.sgRulesMapped pair inKept
  allowsIngress := by
    rw [built.edges, edges_asAllowsIngress]
    exact allows_owned .ingress
  allowsEgress := by
    rw [built.edges, edges_asAllowsEgress]
    exact allows_owned .egress
  aclRulesMap := fun acl member => by
    rw [← map_fst_kept] at member
    obtain ⟨pair, inKept, rfl⟩ := List.mem_map.mp member
    exact built.aclRulesMapped pair inKept
  hasRule := by
    rw [built.edges, edges_asHasRule]
    refine map_flatMap_kept fun pair member => ?_
    rw [(mapNetworkAclNode_ok (mem_kept_iff.mp member).2).1, List.map_map]
    rfl

/-! ## The report -/

/-- The count of one kind. -/
def countOf (report : IngestReport) (kind : ResourceKind) : ℕ := (report.counts.lookup kind).getD 0

/-- Each resource of the four kinds is counted or warned about. -/
def Accounted (collections : Sdk.Collections) (report : IngestReport) : Prop :=
  countOf report .eni + countOf report .securityGroup + countOf report .networkAcl +
      countOf report .routeTable + report.nonFatal.length =
    collections.networkInterfaces.length + collections.securityGroups.length +
      collections.networkAcls.length + collections.routeTables.length

/-- The warnings of a batch, slice by slice. -/
theorem buildGraphBatch_errors (accountId : String) (collections : Sdk.Collections) :
    (buildGraphBatch accountId collections).1 =
      mappingErrors mapEniNode accountId collections.networkInterfaces ++
        mappingErrors mapSecurityGroupNode accountId collections.securityGroups ++
        mappingErrors mapNetworkAclNode accountId collections.networkAcls ++
        mappingErrors mapRouteTableNode accountId collections.routeTables := by
  rw [← (mapNodes_aligned collections.networkInterfaces).errors,
    ← (mapNodes_aligned collections.securityGroups).errors,
    ← (mapNodes_aligned collections.networkAcls).errors, ← (mapNodes_aligned collections.routeTables).errors]
  rfl

private theorem length_kept {T R : Type} (mapOne : T → String → Except MappingError R) (accountId : String)
    (raw : List T) :
    ((kept mapOne accountId raw).map Prod.snd).length + (mappingErrors mapOne accountId raw).length =
      raw.length := by
  rw [← (mapNodes_items_records mapOne accountId raw).2, ← (mapNodes_aligned raw).errors, length_mapNodes]

theorem accounted_of_runFullIngestWith {σ ε : Type} {writer : GraphWriter σ ε} {accountId : String}
    {collections : Sdk.Collections} {state state' : σ} {report : IngestReport}
    (ran : runFullIngestWith writer accountId collections state = .ok (report, state')) :
    Accounted collections report := by
  unfold runFullIngestWith at ran
  rcases built : (buildGraphBatch accountId collections).2 with source | batch
  · simp only [built] at ran
    cases ran
  · simp only [built] at ran
    split at ran
    · cases ran
    · cases ran
      have parts := buildGraphBatch_ok built
      change batch.enis.length + batch.securityGroups.length + batch.networkAcls.length +
        batch.routeTables.length + (List.map _ _).length = _
      rw [List.length_map, buildGraphBatch_errors, List.length_append, List.length_append,
        List.length_append, parts.enis, parts.securityGroups, parts.networkAcls, parts.routeTables]
      have enis := length_kept mapEniNode accountId collections.networkInterfaces
      have sgs := length_kept mapSecurityGroupNode accountId collections.securityGroups
      have acls := length_kept mapNetworkAclNode accountId collections.networkAcls
      have routeTables := length_kept mapRouteTableNode accountId collections.routeTables
      simp only [keptCollections]
      omega

/-- Every slice is split in order and record beside resource; so the edges of a batch belong to the
resources they were read from, and a run's counts and warnings cover what was collected. -/
theorem nodeMapping_lossless :
    (∀ {T R : Type} (mapOne : T → String → Except MappingError R) (accountId : String) (raw : List T),
      Aligned mapOne accountId raw (mapNodes mapOne accountId raw)) ∧
    ∀ (accountId : String) (collections : Sdk.Collections),
      (buildGraphBatch accountId collections).1 =
        mappingErrors mapEniNode accountId collections.networkInterfaces ++
          mappingErrors mapSecurityGroupNode accountId collections.securityGroups ++
          mappingErrors mapNetworkAclNode accountId collections.networkAcls ++
          mappingErrors mapRouteTableNode accountId collections.routeTables ∧
      (∀ batch, (buildGraphBatch accountId collections).2 = .ok batch →
        EdgesOwned accountId collections batch) ∧
      ∀ {σ ε : Type} (writer : GraphWriter σ ε) (state state' : σ) (report : IngestReport),
        runFullIngestWith writer accountId collections state = .ok (report, state') →
          Accounted collections report :=
  ⟨fun _ _ raw => mapNodes_aligned raw, fun accountId collections =>
    ⟨buildGraphBatch_errors accountId collections, fun _ built => edgesOwned_of_built (buildGraphBatch_ok built),
      fun _ _ _ _ => accounted_of_runFullIngestWith⟩⟩

/-- The first interface has no subnet, so only the second one lists its group. -/
private def skippedCollections : Sdk.Collections :=
  { networkInterfaces := [
      { networkInterfaceId := some "eni-1", groups := [⟨some "sg-9"⟩] },
      { networkInterfaceId := some "eni-2"
        vpcId := some "vpc-1"
        subnetId := some "subnet-1"
        privateIpAddress := some "10.0.0.1"
        groups := [⟨some "sg-1"⟩] }] }

private def skippedBatch : GraphBatch :=
  { enis := [⟨"eni-2", "111122223333", "vpc-1", "subnet-1", "10.0.0.1", none⟩]
    securityGroups := []
    networkAcls := []
    subnets := [⟨"subnet-1", "111122223333", "vpc-1", "", ""⟩]
    vpcs := [⟨"vpc-1", "111122223333", ""⟩]
    routeTables := []
    edges := [.hasSg ⟨"eni-2", "sg-1"⟩, .inSubnet ⟨"eni-2", "subnet-1"⟩] }

theorem nodeMapping_lossless_skipped :
    Aligned mapEniNode "111122223333" skippedCollections.networkInterfaces
        (mapNodes mapEniNode "111122223333" skippedCollections.networkInterfaces) ∧
      EdgesOwned "111122223333" skippedCollections skippedBatch ∧
      ∃ report, runFullIngestWith (fun _ state => (.ok state : Except Unit Unit)) "111122223333"
          skippedCollections () = .ok (report, ()) ∧ Accounted skippedCollections report := by
  obtain ⟨aligned, runs⟩ := nodeMapping_lossless
  obtain ⟨-, owned, accounted⟩ := runs "111122223333" skippedCollections
  have ran : runFullIngestWith (fun _ state => (.ok state : Except Unit Unit)) "111122223333"
      skippedCollections () = .ok ({
        counts := [(.eni, 1), (.securityGroup, 0), (.networkAcl, 0), (.routeTable, 0),
          (.vpcPeeringConnection, 0)]
        unresolvedReferences := 0
        nonFatal := [⟨"eni-1", "vpc_id", absentReason⟩] }, ()) := by decide
  exact ⟨aligned _ _ _, owned skippedBatch (by decide), _, ran, accounted _ _ _ _ ran⟩

end NetHound.Soundness
