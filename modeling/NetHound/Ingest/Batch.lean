import NetHound.Graph.Upserts
import NetHound.Ingest.Pipeline
import NetHound.ToMathlib.ExceptRun
import NetHound.ToMathlib.OrderedMap

/-! # The shape of a batch

What a batch that builds consists of, in terms of the resources whose nodes map: every edge list is
one piece a resource, so leaving a resource out takes its pieces out and nothing else. Stubs are
collected by id, and every id an edge needs a stub for is sighted by the resource of that edge.
-/

namespace NetHound.Ingest

open Domain Graph Topology

/-! ## Kept resources -/

section Kept

variable {T R : Type} (mapOne : T → String → Except MappingError R) (accountId : String)

/-- The resources that map, with their records. -/
def kept (raw : List T) : List (T × R) :=
  raw.filterMap fun item => (mapOne item accountId).toOption.map (item, ·)

theorem mapNodes_items_records (raw : List T) :
    (mapNodes mapOne accountId raw).items = (kept mapOne accountId raw).map Prod.fst ∧
      (mapNodes mapOne accountId raw).records = (kept mapOne accountId raw).map Prod.snd := by
  induction raw with
  | nil => exact ⟨rfl, rfl⟩
  | cons item raw ih =>
    rcases mapped : mapOne item accountId with error | record
    · simp only [mapNodes, mapped, kept, List.filterMap_cons, Except.toOption, Option.map_none]
      exact ih
    · simp only [mapNodes, mapped, kept, List.filterMap_cons, Except.toOption, Option.map_some,
        List.map_cons, ih.1, ih.2]
      trivial

theorem mapNodes_zip (raw : List T) :
    (mapNodes mapOne accountId raw).items.zip (mapNodes mapOne accountId raw).records =
      kept mapOne accountId raw := by
  obtain ⟨items, records⟩ := mapNodes_items_records mapOne accountId raw
  exact (List.zip_of_prod items.symm records.symm).symm

variable {mapOne accountId}

theorem mem_kept_iff {raw : List T} {pair : T × R} :
    pair ∈ kept mapOne accountId raw ↔ pair.1 ∈ raw ∧ mapOne pair.1 accountId = .ok pair.2 := by
  obtain ⟨item, record⟩ := pair
  rw [kept, List.mem_filterMap]
  constructor
  · rintro ⟨item', member, found⟩
    rcases mapped : mapOne item' accountId with error | record'
    · rw [mapped] at found
      cases found
    · rw [mapped] at found
      cases found
      exact ⟨member, mapped⟩
  · rintro ⟨member, mapped⟩
    exact ⟨item, member, by rw [mapped]; rfl⟩

theorem kept_append (raw more : List T) :
    kept mapOne accountId (raw ++ more) = kept mapOne accountId raw ++ kept mapOne accountId more :=
  List.filterMap_append

theorem kept_cons_of_error {item : T} {error : MappingError} (failed : mapOne item accountId = .error error)
    (raw : List T) : kept mapOne accountId (item :: raw) = kept mapOne accountId raw :=
  List.filterMap_cons_none (by rw [failed]; rfl)

end Kept

/-- The kept resources of all four kinds. -/
structure KeptCollections where
  enis : List (Sdk.NetworkInterface × EniRecord)
  securityGroups : List (Sdk.SecurityGroup × SecurityGroupRecord)
  networkAcls : List (Sdk.NetworkAcl × NetworkAclRecord)
  routeTables : List (Sdk.RouteTable × RouteTableRecord)

def keptCollections (accountId : String) (collections : Sdk.Collections) : KeptCollections where
  enis := kept mapEniNode accountId collections.networkInterfaces
  securityGroups := kept mapSecurityGroupNode accountId collections.securityGroups
  networkAcls := kept mapNetworkAclNode accountId collections.networkAcls
  routeTables := kept mapRouteTableNode accountId collections.routeTables

/-! ## Mapped nodes -/

section Nodes

variable {accountId : String}

/-- An interface with the fields `map_eni_node` requires. -/
def EniMappable (eni : Sdk.NetworkInterface) : Prop :=
  eni.networkInterfaceId.isSome ∧ eni.vpcId.isSome ∧ eni.subnetId.isSome ∧ eni.privateIpAddress.isSome

/-- A group with the fields `map_security_group_node` requires. -/
def SecurityGroupMappable (sg : Sdk.SecurityGroup) : Prop :=
  sg.groupId.isSome ∧ sg.vpcId.isSome ∧ sg.groupName.isSome

/-- A network ACL with the fields `map_network_acl_node` requires. -/
def NetworkAclMappable (acl : Sdk.NetworkAcl) : Prop :=
  acl.networkAclId.isSome ∧ acl.vpcId.isSome ∧ acl.isDefault.isSome

/-- A route table with the fields `map_route_table_node` requires. -/
def RouteTableMappable (routeTable : Sdk.RouteTable) : Prop :=
  routeTable.routeTableId.isSome ∧ routeTable.vpcId.isSome

theorem mapEniNode_maps_iff {eni : Sdk.NetworkInterface} :
    (∃ record, mapEniNode eni accountId = .ok record) ↔ EniMappable eni := by
  obtain ⟨_ | id, _ | vpcId, _ | subnetId, _ | privateIp, _, _⟩ := eni <;>
    simp [mapEniNode, EniMappable, requireStr, bind, Except.bind, pure, Except.pure]

theorem mapSecurityGroupNode_maps_iff {sg : Sdk.SecurityGroup} :
    (∃ record, mapSecurityGroupNode sg accountId = .ok record) ↔ SecurityGroupMappable sg := by
  obtain ⟨_ | id, _ | vpcId, _ | name, _, _, _⟩ := sg <;>
    simp [mapSecurityGroupNode, SecurityGroupMappable, requireStr, bind, Except.bind, pure, Except.pure]

theorem mapNetworkAclNode_maps_iff {acl : Sdk.NetworkAcl} :
    (∃ record, mapNetworkAclNode acl accountId = .ok record) ↔ NetworkAclMappable acl := by
  obtain ⟨_ | id, _ | vpcId, _ | isDefault, _, _⟩ := acl <;>
    simp [mapNetworkAclNode, NetworkAclMappable, requireStr, requireBool, bind, Except.bind, pure,
      Except.pure]

theorem mapRouteTableNode_maps_iff {routeTable : Sdk.RouteTable} :
    (∃ record, mapRouteTableNode routeTable accountId = .ok record) ↔ RouteTableMappable routeTable := by
  obtain ⟨_ | id, _ | vpcId, _, _⟩ := routeTable <;>
    simp [mapRouteTableNode, RouteTableMappable, requireStr, bind, Except.bind, pure, Except.pure]

theorem mapEniNode_ok {eni : Sdk.NetworkInterface} {record : EniRecord}
    (mapped : mapEniNode eni accountId = .ok record) :
    eni.networkInterfaceId = some record.id ∧ eni.vpcId = some record.vpcId ∧
      eni.subnetId = some record.subnetId ∧ eni.privateIpAddress = some record.privateIp := by
  obtain ⟨_, id, run⟩ := Except.bind_eq_ok_iff.mp mapped
  obtain ⟨_, vpcId, run⟩ := Except.bind_eq_ok_iff.mp run
  obtain ⟨_, subnetId, run⟩ := Except.bind_eq_ok_iff.mp run
  obtain ⟨_, privateIp, done⟩ := Except.bind_eq_ok_iff.mp run
  cases done
  exact ⟨requireStr_eq_ok_iff.mp id, requireStr_eq_ok_iff.mp vpcId, requireStr_eq_ok_iff.mp subnetId,
    requireStr_eq_ok_iff.mp privateIp⟩

theorem mapSecurityGroupNode_ok {sg : Sdk.SecurityGroup} {record : SecurityGroupRecord}
    (mapped : mapSecurityGroupNode sg accountId = .ok record) :
    sg.groupId = some record.id ∧ sg.vpcId = some record.vpcId := by
  obtain ⟨_, id, run⟩ := Except.bind_eq_ok_iff.mp mapped
  obtain ⟨_, vpcId, run⟩ := Except.bind_eq_ok_iff.mp run
  obtain ⟨_, _, done⟩ := Except.bind_eq_ok_iff.mp run
  cases done
  exact ⟨requireStr_eq_ok_iff.mp id, requireStr_eq_ok_iff.mp vpcId⟩

theorem mapNetworkAclNode_ok {acl : Sdk.NetworkAcl} {record : NetworkAclRecord}
    (mapped : mapNetworkAclNode acl accountId = .ok record) :
    acl.networkAclId = some record.id ∧ acl.vpcId = some record.vpcId := by
  obtain ⟨_, id, run⟩ := Except.bind_eq_ok_iff.mp mapped
  obtain ⟨_, vpcId, run⟩ := Except.bind_eq_ok_iff.mp run
  obtain ⟨_, _, done⟩ := Except.bind_eq_ok_iff.mp run
  cases done
  exact ⟨requireStr_eq_ok_iff.mp id, requireStr_eq_ok_iff.mp vpcId⟩

theorem mapRouteTableNode_ok {routeTable : Sdk.RouteTable} {record : RouteTableRecord}
    (mapped : mapRouteTableNode routeTable accountId = .ok record) :
    routeTable.routeTableId = some record.id ∧ routeTable.vpcId = some record.vpcId := by
  obtain ⟨_, id, run⟩ := Except.bind_eq_ok_iff.mp mapped
  obtain ⟨_, vpcId, done⟩ := Except.bind_eq_ok_iff.mp run
  cases done
  exact ⟨requireStr_eq_ok_iff.mp id, requireStr_eq_ok_iff.mp vpcId⟩

end Nodes

/-! ## The edges of one resource -/

def eniGroups (pair : Sdk.NetworkInterface × EniRecord) : List HasSgEdge :=
  pair.1.groups.map fun group => ⟨pair.2.id, group.groupId.getD ""⟩

def aclSubnets (pair : Sdk.NetworkAcl × NetworkAclRecord) : List ProtectedByEdge :=
  pair.1.associations.filterMap fun association =>
    association.subnetId.map fun subnetId => ⟨subnetId, pair.2.id⟩

def routeTableSubnets (pair : Sdk.RouteTable × RouteTableRecord) : List UsesRouteTableEdge :=
  pair.1.associations.filterMap fun association =>
    association.subnetId.map fun subnetId => ⟨subnetId, pair.2.id⟩

def routeTableRoutes (accountId : String) (peerings : List Sdk.VpcPeeringConnection)
    (pair : Sdk.RouteTable × RouteTableRecord) : List RoutesToEdge :=
  pair.1.routes.filterMap fun route =>
    (route.destinationCidrBlock.or route.destinationIpv6CidrBlock).map fun destinationCidr =>
      let (targetVpcId, resolved) := resolveRouteTarget accountId pair.2.vpcId route peerings
      ⟨pair.2.id, destinationCidr, targetVpcId, resolved⟩

/-- A group's rules, none where they do not map. -/
def sgRules (accountId : String) (pair : Sdk.SecurityGroup × SecurityGroupRecord) : List SgRule :=
  (Sg.mapSecurityGroupRules pair.1 accountId).toOption.getD []

/-- A network ACL's rules, none where they do not map. -/
def aclRules (pair : Sdk.NetworkAcl × NetworkAclRecord) : List NaclRule :=
  (Nacl.mapNetworkAclRules pair.1).toOption.getD []

/-- The owned rules of one direction. -/
def ownedSgRules (accountId : String) (direction : Direction)
    (pair : Sdk.SecurityGroup × SecurityGroupRecord) : List (String × SgRule) :=
  ((sgRules accountId pair).filter fun rule => rule.direction = direction).map (pair.2.id, ·)

def KeptCollections.edges (collections : KeptCollections) (accountId : String)
    (peerings : List Sdk.VpcPeeringConnection) : List Edge :=
  collections.enis.flatMap (fun pair => (eniGroups pair).map .hasSg) ++
    (inSubnetEdges (collections.enis.map Prod.snd) ++
      collections.networkAcls.flatMap (fun pair => (aclSubnets pair).map .protectedBy) ++
      collections.routeTables.flatMap (fun pair => (routeTableSubnets pair).map .usesRouteTable) ++
      collections.routeTables.flatMap fun pair => (routeTableRoutes accountId peerings pair).map .routesTo) ++
    collections.securityGroups.flatMap (fun pair => (sgRules accountId pair).map (allowsEdge pair.2.id)) ++
    collections.networkAcls.flatMap fun pair => (aclRules pair).map (.hasRule pair.2.id)

section ByKind

variable (collections : KeptCollections) (accountId : String) (peerings : List Sdk.VpcPeeringConnection)

private theorem filterMap_edges {V : Type} (as : Edge → Option V) :
    (collections.edges accountId peerings).filterMap as =
      collections.enis.flatMap (fun pair => (eniGroups pair).filterMap fun edge => as (.hasSg edge)) ++
        ((collections.enis.filterMap fun pair => as (.inSubnet ⟨pair.2.id, pair.2.subnetId⟩)) ++
          collections.networkAcls.flatMap
            (fun pair => (aclSubnets pair).filterMap fun edge => as (.protectedBy edge)) ++
          collections.routeTables.flatMap
            (fun pair => (routeTableSubnets pair).filterMap fun edge => as (.usesRouteTable edge)) ++
          collections.routeTables.flatMap fun pair =>
            (routeTableRoutes accountId peerings pair).filterMap fun edge => as (.routesTo edge)) ++
        collections.securityGroups.flatMap (fun pair =>
          (sgRules accountId pair).filterMap fun rule => as (allowsEdge pair.2.id rule)) ++
        collections.networkAcls.flatMap fun pair =>
          (aclRules pair).filterMap fun rule => as (.hasRule pair.2.id rule) := by
  simp only [KeptCollections.edges, inSubnetEdges, List.filterMap_append, List.filterMap_flatMap,
    List.filterMap_map, Function.comp_def]

private theorem filterMap_allowsEdge {V : Type} (as : Edge → Option V)
    (ingress : ∀ id rule, as (.allowsIngress id rule) = none)
    (egress : ∀ id rule, as (.allowsEgress id rule) = none) (securityGroupId : String)
    (rules : List SgRule) : (rules.filterMap fun rule => as (allowsEdge securityGroupId rule)) = [] := by
  rw [List.filterMap_eq_nil_iff]
  intro rule _
  rw [allowsEdge]
  split
  · exact ingress _ _
  · exact egress _ _

private theorem flatMap_empty {α β : Type} (l : List α) : l.flatMap (fun _ => ([] : List β)) = [] :=
  List.flatMap_eq_nil_iff.mpr fun _ _ => rfl

private theorem filterMap_direction (pair : Sdk.SecurityGroup × SecurityGroupRecord) (direction : Direction) :
    ((sgRules accountId pair).filterMap fun rule =>
      if rule.direction = direction then some (pair.2.id, rule) else none) =
        ownedSgRules accountId direction pair := by
  rw [ownedSgRules, ← List.filterMap_eq_map, List.filterMap_filter]
  simp only [decide_eq_true_eq, Function.comp_apply]

theorem edges_asHasSg :
    (collections.edges accountId peerings).filterMap asHasSg = collections.enis.flatMap eniGroups := by
  rw [filterMap_edges]
  simp only [filterMap_allowsEdge asHasSg (fun _ _ => rfl) fun _ _ => rfl]
  simp [asHasSg, flatMap_empty]

theorem edges_asProtectedBy :
    (collections.edges accountId peerings).filterMap asProtectedBy =
      collections.networkAcls.flatMap aclSubnets := by
  rw [filterMap_edges]
  simp only [filterMap_allowsEdge asProtectedBy (fun _ _ => rfl) fun _ _ => rfl]
  simp [asProtectedBy, flatMap_empty]

theorem edges_asUsesRouteTable :
    (collections.edges accountId peerings).filterMap asUsesRouteTable =
      collections.routeTables.flatMap routeTableSubnets := by
  rw [filterMap_edges]
  simp only [filterMap_allowsEdge asUsesRouteTable (fun _ _ => rfl) fun _ _ => rfl]
  simp [asUsesRouteTable, flatMap_empty]

theorem edges_asHasRule :
    (collections.edges accountId peerings).filterMap asHasRule =
      collections.networkAcls.flatMap fun pair => (aclRules pair).map (pair.2.id, ·) := by
  rw [filterMap_edges]
  simp only [filterMap_allowsEdge asHasRule (fun _ _ => rfl) fun _ _ => rfl]
  simp [asHasRule, flatMap_empty]

theorem edges_asRoutesTo :
    (collections.edges accountId peerings).filterMap asRoutesTo =
      collections.routeTables.flatMap (routeTableRoutes accountId peerings) := by
  rw [filterMap_edges]
  simp only [filterMap_allowsEdge asRoutesTo (fun _ _ => rfl) fun _ _ => rfl]
  simp [asRoutesTo, flatMap_empty]

theorem edges_asAllowsIngress :
    (collections.edges accountId peerings).filterMap asAllowsIngress =
      collections.securityGroups.flatMap (ownedSgRules accountId .ingress) := by
  have allows (securityGroupId : String) (rule : SgRule) : asAllowsIngress (allowsEdge securityGroupId rule) =
      if rule.direction = .ingress then some (securityGroupId, rule) else none := by
    rcases direction : rule.direction with _ | _ <;> simp [allowsEdge, asAllowsIngress, direction]
  rw [filterMap_edges]
  simp only [allows, filterMap_direction]
  simp [asAllowsIngress, flatMap_empty]

theorem edges_asAllowsEgress :
    (collections.edges accountId peerings).filterMap asAllowsEgress =
      collections.securityGroups.flatMap (ownedSgRules accountId .egress) := by
  have allows (securityGroupId : String) (rule : SgRule) : asAllowsEgress (allowsEdge securityGroupId rule) =
      if rule.direction = .egress then some (securityGroupId, rule) else none := by
    rcases direction : rule.direction with _ | _ <;> simp [allowsEdge, asAllowsEgress, direction]
  rw [filterMap_edges]
  simp only [allows, filterMap_direction]
  simp [asAllowsEgress, flatMap_empty]

end ByKind

/-! ## A batch that builds -/

/-- The parts of a batch that builds; every kept group, rule set and rule list has mapped. -/
structure Built (accountId : String) (collections : Sdk.Collections) (batch : GraphBatch) : Prop where
  enis : batch.enis = (keptCollections accountId collections).enis.map Prod.snd
  securityGroups : batch.securityGroups = (keptCollections accountId collections).securityGroups.map Prod.snd
  networkAcls : batch.networkAcls = (keptCollections accountId collections).networkAcls.map Prod.snd
  routeTables : batch.routeTables = (keptCollections accountId collections).routeTables.map Prod.snd
  vpcs : batch.vpcs = (collectVpcStubs accountId
    ((keptCollections accountId collections).securityGroups.map Prod.fst)
    ((keptCollections accountId collections).networkAcls.map Prod.fst)
    ((keptCollections accountId collections).routeTables.map Prod.fst)
    ((keptCollections accountId collections).enis.map Prod.fst)
    collections.vpcPeeringConnections).toList.map Prod.snd
  subnets : batch.subnets = (collectSubnetStubs accountId
    ((keptCollections accountId collections).enis.map Prod.fst)
    ((keptCollections accountId collections).networkAcls.map Prod.fst)
    ((keptCollections accountId collections).routeTables.map Prod.fst)).toList.map Prod.snd
  edges : batch.edges =
    (keptCollections accountId collections).edges accountId collections.vpcPeeringConnections
  groupsNamed : ∀ pair ∈ (keptCollections accountId collections).enis,
    ∀ group ∈ pair.1.groups, group.groupId.isSome
  sgRulesMapped : ∀ pair ∈ (keptCollections accountId collections).securityGroups,
    Sg.mapSecurityGroupRules pair.1 accountId = .ok (sgRules accountId pair)
  aclRulesMapped : ∀ pair ∈ (keptCollections accountId collections).networkAcls,
    Nacl.mapNetworkAclRules pair.1 = .ok (aclRules pair)

private theorem hasSgEdgesOf_ok {pair : Sdk.NetworkInterface × EniRecord} {edges : List Edge}
    (mapped : hasSgEdgesOf pair = .ok edges) :
    (∀ group ∈ pair.1.groups, group.groupId.isSome) ∧ edges = (eniGroups pair).map .hasSg := by
  refine ⟨fun group member => ?_, ?_⟩
  · obtain ⟨edge, _, each⟩ := List.exists_of_mapM_eq_ok mapped member
    obtain ⟨securityGroupId, required, _⟩ := Except.bind_eq_ok_iff.mp each
    rw [requireStr_eq_ok_iff.mp required]
    rfl
  · rw [eniGroups, List.map_map]
    apply List.eq_map_of_mapM_ok mapped
    intro group edge each
    obtain ⟨securityGroupId, required, done⟩ := Except.bind_eq_ok_iff.mp each
    cases done
    rw [Function.comp_apply, requireStr_eq_ok_iff.mp required]
    rfl

/-- What both rule loops over zipped pairs return. -/
private theorem ruleEdges_ok {P V : Type} {pairs : List P} {rules : P → Except MappingError (List V)}
    {edge : P → V → Edge} {nested : List (List Edge)}
    (run : (pairs.mapM fun pair => do return (← rules pair).map (edge pair)) = .ok nested) :
    (∀ pair ∈ pairs, rules pair = .ok ((rules pair).toOption.getD [])) ∧
      nested.flatten = pairs.flatMap fun pair => ((rules pair).toOption.getD []).map (edge pair) := by
  constructor
  · intro pair member
    obtain ⟨_, _, each⟩ := List.exists_of_mapM_eq_ok run member
    obtain ⟨mapped, mappedRules, _⟩ := Except.bind_eq_ok_iff.mp each
    rw [mappedRules]
    rfl
  · rw [List.flatMap_def]
    congr 1
    apply List.eq_map_of_mapM_ok run
    intro pair edges each
    obtain ⟨mapped, mappedRules, done⟩ := Except.bind_eq_ok_iff.mp each
    cases done
    rw [mappedRules]
    rfl

private theorem exists_ruleEdges {P V : Type} {pairs : List P} {rules : P → Except MappingError (List V)}
    (edge : P → V → Edge) (mapped : ∀ pair ∈ pairs, ∃ own, rules pair = .ok own) :
    ∃ nested, (pairs.mapM fun pair => do return (← rules pair).map (edge pair)) = .ok nested := by
  apply List.exists_mapM_ok_iff.mpr
  intro pair member
  obtain ⟨own, ownRun⟩ := mapped pair member
  exact Except.exists_bind_ok ownRun ⟨_, rfl⟩

private theorem zip_mapCollections (accountId : String) (collections : Sdk.Collections) :
    let mapped := mapCollections accountId collections
    mapped.enis.items.zip mapped.enis.records = (keptCollections accountId collections).enis ∧
      mapped.securityGroups.items.zip mapped.securityGroups.records =
        (keptCollections accountId collections).securityGroups ∧
      mapped.networkAcls.items.zip mapped.networkAcls.records =
        (keptCollections accountId collections).networkAcls ∧
      mapped.routeTables.items.zip mapped.routeTables.records =
        (keptCollections accountId collections).routeTables :=
  ⟨mapNodes_zip _ _ _, mapNodes_zip _ _ _, mapNodes_zip _ _ _, mapNodes_zip _ _ _⟩

private theorem edges_ok {accountId : String} {collections : Sdk.Collections} {edges : List Edge}
    (mapped : (mapCollections accountId collections).edges accountId collections.vpcPeeringConnections =
      .ok edges) :
    edges = (keptCollections accountId collections).edges accountId collections.vpcPeeringConnections ∧
      (∀ pair ∈ (keptCollections accountId collections).enis,
        ∀ group ∈ pair.1.groups, group.groupId.isSome) ∧
      (∀ pair ∈ (keptCollections accountId collections).securityGroups,
        Sg.mapSecurityGroupRules pair.1 accountId = .ok (sgRules accountId pair)) ∧
      ∀ pair ∈ (keptCollections accountId collections).networkAcls,
        Nacl.mapNetworkAclRules pair.1 = .ok (aclRules pair) := by
  obtain ⟨hasSg, hasSgRun, run⟩ := Except.bind_eq_ok_iff.mp mapped
  obtain ⟨allows, allowsRun, run⟩ := Except.bind_eq_ok_iff.mp run
  obtain ⟨hasRule, hasRuleRun, done⟩ := Except.bind_eq_ok_iff.mp run
  obtain ⟨eniZip, sgZip, aclZip, routeTableZip⟩ := zip_mapCollections accountId collections
  have records := (mapNodes_items_records mapEniNode accountId collections.networkInterfaces).2
  obtain ⟨nested, nestedRun, flat⟩ := Except.bind_eq_ok_iff.mp hasSgRun
  cases flat
  have groups : nested.flatten = (keptCollections accountId collections).enis.flatMap fun pair =>
      (eniGroups pair).map .hasSg := by
    rw [← eniZip, List.flatMap_def]
    congr 1
    exact List.eq_map_of_mapM_ok nestedRun fun pair edges each => (hasSgEdgesOf_ok each).2
  obtain ⟨nestedAllows, allowsRun, flatAllows⟩ := Except.bind_eq_ok_iff.mp allowsRun
  obtain ⟨nestedHasRule, hasRuleRun, flatHasRule⟩ := Except.bind_eq_ok_iff.mp hasRuleRun
  rw [sgZip] at allowsRun
  rw [aclZip] at hasRuleRun
  obtain ⟨sgRulesMapped, sameAllows⟩ := ruleEdges_ok allowsRun
  obtain ⟨aclRulesMapped, sameHasRule⟩ := ruleEdges_ok hasRuleRun
  refine ⟨?_, ?_, sgRulesMapped, aclRulesMapped⟩
  · cases done
    cases flatAllows
    cases flatHasRule
    rw [groups, sameAllows, sameHasRule, KeptCollections.edges, protectedByEdges, usesRouteTableEdges,
      routesToEdges, aclZip, routeTableZip]
    simp only [aclSubnets, routeTableSubnets, routeTableRoutes, List.map_filterMap, Option.map_map]
    congr 3
    rw [show (mapCollections accountId collections).enis.records = _ from records]
    rfl
  · intro pair member
    rw [← eniZip] at member
    obtain ⟨_, _, each⟩ := List.exists_of_mapM_eq_ok nestedRun member
    exact (hasSgEdgesOf_ok each).1

theorem buildGraphBatch_ok {accountId : String} {collections : Sdk.Collections} {batch : GraphBatch}
    (built : (buildGraphBatch accountId collections).2 = .ok batch) : Built accountId collections batch := by
  obtain ⟨edges, mapped, done⟩ := Except.bind_eq_ok_iff.mp built
  obtain ⟨sameEdges, groupsNamed, sgRulesMapped, aclRulesMapped⟩ := edges_ok mapped
  cases done
  have enis := mapNodes_items_records mapEniNode accountId collections.networkInterfaces
  have sgs := mapNodes_items_records mapSecurityGroupNode accountId collections.securityGroups
  have acls := mapNodes_items_records mapNetworkAclNode accountId collections.networkAcls
  have routeTables := mapNodes_items_records mapRouteTableNode accountId collections.routeTables
  exact {
    enis := enis.2
    securityGroups := sgs.2
    networkAcls := acls.2
    routeTables := routeTables.2
    vpcs := by
      simp only [mapCollections, enis.1, sgs.1, acls.1, routeTables.1]
      rfl
    subnets := by
      simp only [mapCollections, enis.1, acls.1, routeTables.1]
      rfl
    edges := sameEdges
    groupsNamed
    sgRulesMapped
    aclRulesMapped }

/-- A batch builds exactly when every kept interface's groups are named and the rules of every kept group
and network ACL map. -/
theorem exists_buildGraphBatch_iff (accountId : String) (collections : Sdk.Collections) :
    (∃ batch, (buildGraphBatch accountId collections).2 = .ok batch) ↔
      (∀ pair ∈ (keptCollections accountId collections).enis,
        ∀ group ∈ pair.1.groups, group.groupId.isSome) ∧
      (∀ pair ∈ (keptCollections accountId collections).securityGroups,
        ∃ rules, Sg.mapSecurityGroupRules pair.1 accountId = .ok rules) ∧
      ∀ pair ∈ (keptCollections accountId collections).networkAcls,
        ∃ rules, Nacl.mapNetworkAclRules pair.1 = .ok rules := by
  constructor
  · rintro ⟨batch, built⟩
    have shape := buildGraphBatch_ok built
    exact ⟨shape.groupsNamed, fun pair member => ⟨_, shape.sgRulesMapped pair member⟩,
      fun pair member => ⟨_, shape.aclRulesMapped pair member⟩⟩
  · rintro ⟨groupsNamed, sgRulesMapped, aclRulesMapped⟩
    obtain ⟨eniZip, sgZip, aclZip, -⟩ := zip_mapCollections accountId collections
    let mapped := mapCollections accountId collections
    have hasSg : ∃ edges, hasSgEdges mapped.enis.items mapped.enis.records = .ok edges := by
      rw [hasSgEdges, eniZip]
      obtain ⟨nested, nestedRun⟩ : ∃ nested, (keptCollections accountId collections).enis.mapM
          hasSgEdgesOf = .ok nested := by
        apply List.exists_mapM_ok_iff.mpr
        intro pair member
        apply List.exists_mapM_ok_iff.mpr
        intro group inGroups
        obtain ⟨securityGroupId, named⟩ :=
          Option.isSome_iff_exists.mp (groupsNamed pair member group inGroups)
        exact Except.exists_bind_ok (requireStr_eq_ok_iff.mpr named) ⟨_, rfl⟩
      exact Except.exists_bind_ok nestedRun ⟨_, rfl⟩
    have allows : ∃ edges,
        allowsEdges mapped.securityGroups.items mapped.securityGroups.records accountId = .ok edges := by
      rw [allowsEdges, sgZip]
      obtain ⟨nested, nestedRun⟩ := exists_ruleEdges
        (fun pair : Sdk.SecurityGroup × SecurityGroupRecord => allowsEdge pair.2.id) sgRulesMapped
      exact Except.exists_bind_ok nestedRun ⟨_, rfl⟩
    have hasRule : ∃ edges, hasRuleEdges mapped.networkAcls.items mapped.networkAcls.records = .ok edges := by
      rw [hasRuleEdges, aclZip]
      obtain ⟨nested, nestedRun⟩ := exists_ruleEdges
        (fun pair : Sdk.NetworkAcl × NetworkAclRecord => Edge.hasRule pair.2.id) aclRulesMapped
      exact Except.exists_bind_ok nestedRun ⟨_, rfl⟩
    obtain ⟨hasSg, hasSgRun⟩ := hasSg
    obtain ⟨allows, allowsRun⟩ := allows
    obtain ⟨hasRule, hasRuleRun⟩ := hasRule
    have edges : ∃ edges, mapped.edges accountId collections.vpcPeeringConnections = .ok edges :=
      Except.exists_bind_ok hasSgRun
        (Except.exists_bind_ok allowsRun (Except.exists_bind_ok hasRuleRun ⟨_, rfl⟩))
    obtain ⟨edges, edgesRun⟩ := edges
    exact Except.exists_bind_ok edgesRun ⟨_, rfl⟩

/-! ## Route targets -/

/-- A side of a peering that the account owns. -/
def OwnedSide (accountId : String) (peerings : List Sdk.VpcPeeringConnection) (vpcId : String) : Prop :=
  ∃ peering ∈ peerings, ∃ info ∈ [peering.requesterVpcInfo, peering.accepterVpcInfo].filterMap id,
    info.ownerId = some accountId ∧ info.vpcId = some vpcId

/-- A route's target is known exactly when it is flagged resolved, and is then the route table's own
VPC or an owned peering side. -/
theorem resolveRouteTarget_spec (accountId rtVpcId : String) (route : Sdk.Route)
    (peerings : List Sdk.VpcPeeringConnection) :
    (resolveRouteTarget accountId rtVpcId route peerings).1.isSome =
        (resolveRouteTarget accountId rtVpcId route peerings).2 ∧
      ∀ vpcId, (resolveRouteTarget accountId rtVpcId route peerings).1 = some vpcId →
        vpcId = rtVpcId ∨ OwnedSide accountId peerings vpcId := by
  unfold resolveRouteTarget
  split
  · exact ⟨rfl, fun vpcId target => Or.inl (Option.some.inj target).symm⟩
  · split
    · exact ⟨rfl, fun vpcId target => (nomatch target)⟩
    · next pcxId _ =>
      split
      · next info other =>
        obtain ⟨pcx, found, side⟩ := Option.bind_eq_some_iff.mp other
        split
        · next owned =>
          split
          · next vpcId named =>
            refine ⟨rfl, fun vpcId' target => Or.inr ?_⟩
            cases target
            exact ⟨pcx, List.mem_of_find?_eq_some found, info, List.mem_of_find?_eq_some side, owned, named⟩
          · exact ⟨rfl, fun vpcId target => (nomatch target)⟩
        · exact ⟨rfl, fun vpcId target => (nomatch target)⟩
      · exact ⟨rfl, fun vpcId target => (nomatch target)⟩

theorem routeTableRoutes_spec {accountId : String} {peerings : List Sdk.VpcPeeringConnection}
    {pair : Sdk.RouteTable × RouteTableRecord} {edge : RoutesToEdge}
    (member : edge ∈ routeTableRoutes accountId peerings pair) :
    edge.routeTableId = pair.2.id ∧ edge.Consistent ∧
      ∀ vpcId, edge.targetVpcId = some vpcId → vpcId = pair.2.vpcId ∨ OwnedSide accountId peerings vpcId := by
  obtain ⟨route, _, built⟩ := List.mem_filterMap.mp member
  obtain ⟨destinationCidr, _, rfl⟩ := Option.map_eq_some_iff.mp built
  exact ⟨rfl, resolveRouteTarget_spec accountId pair.2.vpcId route peerings⟩

/-! ## Stubs -/

/-- Every sighted VPC has a stub, and no other. -/
theorem mem_vpcStubs_iff {accountId : String} {securityGroups : List Sdk.SecurityGroup}
    {networkAcls : List Sdk.NetworkAcl} {routeTables : List Sdk.RouteTable}
    {networkInterfaces : List Sdk.NetworkInterface} {peerings : List Sdk.VpcPeeringConnection}
    {vpcId : String} :
    vpcId ∈ ((collectVpcStubs accountId securityGroups networkAcls routeTables networkInterfaces
        peerings).toList.map Prod.snd).map VpcRecord.id ↔
      vpcId ∈ sightedVpcIds accountId securityGroups networkAcls routeTables networkInterfaces peerings := by
  rw [← List.map_id (sightedVpcIds _ _ _ _ _ _)]
  exact Std.TreeMap.mem_values_foldl_insertIfNew id
    (fun vpcId => (⟨vpcId, accountId, ""⟩ : VpcRecord)) fun _ => rfl

/-- And it has only one. -/
theorem nodup_vpcStubs (accountId : String) (securityGroups : List Sdk.SecurityGroup)
    (networkAcls : List Sdk.NetworkAcl) (routeTables : List Sdk.RouteTable)
    (networkInterfaces : List Sdk.NetworkInterface) (peerings : List Sdk.VpcPeeringConnection) :
    (((collectVpcStubs accountId securityGroups networkAcls routeTables networkInterfaces
      peerings).toList.map Prod.snd).map VpcRecord.id).Nodup :=
  Std.TreeMap.nodup_values_foldl_insertIfNew id
    (fun vpcId => (⟨vpcId, accountId, ""⟩ : VpcRecord)) fun _ => rfl

/-- Every sighted subnet has a stub, and no other. -/
theorem mem_subnetStubs_iff {accountId : String} {networkInterfaces : List Sdk.NetworkInterface}
    {networkAcls : List Sdk.NetworkAcl} {routeTables : List Sdk.RouteTable} {subnetId : String} :
    subnetId ∈ ((collectSubnetStubs accountId networkInterfaces networkAcls
        routeTables).toList.map Prod.snd).map SubnetRecord.id ↔
      subnetId ∈ (sightedSubnets networkInterfaces networkAcls routeTables).map Prod.fst :=
  Std.TreeMap.mem_values_foldl_insertIfNew Prod.fst
    (fun sighting => (⟨sighting.1, accountId, sighting.2, "", ""⟩ : SubnetRecord)) fun _ => rfl

theorem nodup_subnetStubs (accountId : String) (networkInterfaces : List Sdk.NetworkInterface)
    (networkAcls : List Sdk.NetworkAcl) (routeTables : List Sdk.RouteTable) :
    (((collectSubnetStubs accountId networkInterfaces networkAcls
      routeTables).toList.map Prod.snd).map SubnetRecord.id).Nodup :=
  Std.TreeMap.nodup_values_foldl_insertIfNew Prod.fst
    (fun sighting => (⟨sighting.1, accountId, sighting.2, "", ""⟩ : SubnetRecord)) fun _ => rfl

end NetHound.Ingest
