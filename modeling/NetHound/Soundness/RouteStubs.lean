import NetHound.Ingest.Closure

/-! # Routes, stubs and ownership

A route resolves to its table's own VPC or to the other, owned side of the first peering with its id,
and a batch has a stub for either. The stubs are the VPCs and subnets the mapped resources name and the
peering sides the account owns, each once, so the writer never meets a route whose target and flag
disagree.
-/

namespace NetHound.Soundness

open Domain Graph Cypher Ingest Topology

/-! ## Where a route leads -/

/-- The sides a peering has, requester first. -/
def sides (peering : Sdk.VpcPeeringConnection) : List Sdk.VpcPeeringConnectionVpcInfo :=
  [peering.requesterVpcInfo, peering.accepterVpcInfo].filterMap id

/-- The peering a route of that connection id reads. -/
def peeringOf (pcxId : String) (peerings : List Sdk.VpcPeeringConnection) : Option Sdk.VpcPeeringConnection :=
  peerings.find? fun pcx => pcx.vpcPeeringConnectionId == some pcxId

/-- The VPCs of the account that a route of a table in `rtVpcId` leads to. -/
inductive LeadsTo (accountId rtVpcId : String) (route : Sdk.Route) (peerings : List Sdk.VpcPeeringConnection) :
    String → Prop
  | localGateway : route.gatewayId = some "local" → LeadsTo accountId rtVpcId route peerings rtVpcId
  | peered {pcxId target : String} {pcx : Sdk.VpcPeeringConnection} {info : Sdk.VpcPeeringConnectionVpcInfo} :
      route.vpcPeeringConnectionId = some pcxId → peeringOf pcxId peerings = some pcx → info ∈ sides pcx →
        info.vpcId = some target → target ≠ rtVpcId → info.ownerId = some accountId →
          LeadsTo accountId rtVpcId route peerings target

/-- A peering with requester and accepter exchanged. -/
def swapped (peering : Sdk.VpcPeeringConnection) : Sdk.VpcPeeringConnection :=
  { peering with requesterVpcInfo := peering.accepterVpcInfo, accepterVpcInfo := peering.requesterVpcInfo }

/-- The same peerings, some of them swapped. -/
def SidesSwapped (peerings peerings' : List Sdk.VpcPeeringConnection) : Prop :=
  List.Forall₂ (fun peering peering' => peering' = peering ∨ peering' = swapped peering) peerings peerings'

/-- One side of the peering the route names is the route table's own VPC. -/
def OwnSide (rtVpcId : String) (route : Sdk.Route) (peerings : List Sdk.VpcPeeringConnection) : Prop :=
  ∀ pcxId pcx, route.vpcPeeringConnectionId = some pcxId → peeringOf pcxId peerings = some pcx →
    ∃ info ∈ sides pcx, info.vpcId = some rtVpcId

theorem leadsTo_of_resolveRouteTarget {accountId rtVpcId target : String} {route : Sdk.Route}
    {peerings : List Sdk.VpcPeeringConnection}
    (resolved : (resolveRouteTarget accountId rtVpcId route peerings).1 = some target) :
    LeadsTo accountId rtVpcId route peerings target := by
  unfold resolveRouteTarget at resolved
  split at resolved
  · next gateway =>
    cases resolved
    exact .localGateway gateway
  · split at resolved
    · cases resolved
    · next pcxId named =>
      split at resolved
      · next info other =>
        obtain ⟨pcx, found, side⟩ := Option.bind_eq_some_iff.mp other
        have foreign := List.find?_some side
        split at resolved
        · next owned =>
          split at resolved
          · next vpcId sideVpc =>
            cases resolved
            refine .peered named found (List.mem_of_find?_eq_some side) sideVpc ?_ owned
            rintro rfl
            simp [sideVpc] at foreign
          · cases resolved
        · cases resolved
      · cases resolved

/-! ## Swapped sides -/

private theorem find?_other_swap {rtVpcId : String} {requester accepter : Option Sdk.VpcPeeringConnectionVpcInfo}
    (own : ∃ info ∈ [requester, accepter].filterMap id, info.vpcId = some rtVpcId) :
    ([accepter, requester].filterMap id).find? (fun info => info.vpcId != some rtVpcId) =
      ([requester, accepter].filterMap id).find? fun info => info.vpcId != some rtVpcId := by
  obtain ⟨info, member, sideVpc⟩ := own
  have skipped : (info.vpcId != some rtVpcId) = false := by rw [sideVpc, bne_self_eq_false]
  rcases requester with _ | requester <;> rcases accepter with _ | accepter
  · cases member
  · rfl
  · rfl
  · rcases List.mem_pair.mp member with rfl | rfl
    · simp [List.find?_cons, skipped]
    · simp [List.find?_cons, skipped]

private theorem peeringOf_swapped {pcxId : String} {peerings peerings' : List Sdk.VpcPeeringConnection}
    (swaps : SidesSwapped peerings peerings') :
    (peeringOf pcxId peerings = none ∧ peeringOf pcxId peerings' = none) ∨
      ∃ pcx pcx', peeringOf pcxId peerings = some pcx ∧ peeringOf pcxId peerings' = some pcx' ∧
        (pcx' = pcx ∨ pcx' = swapped pcx) := by
  induction swaps with
  | nil => exact Or.inl ⟨rfl, rfl⟩
  | @cons peering peering' peerings peerings' swap swaps ih =>
    have sameId : peering'.vpcPeeringConnectionId = peering.vpcPeeringConnectionId := by
      rcases swap with rfl | rfl <;> rfl
    simp only [peeringOf, List.find?_cons, sameId] at ih ⊢
    split
    · exact Or.inr ⟨peering, peering', rfl, rfl, swap⟩
    · exact ih

/-- The two sides of a peering may be read in either order when one of them is the table's own. -/
theorem otherSide_swapped {rtVpcId pcxId : String} {peerings peerings' : List Sdk.VpcPeeringConnection}
    (swaps : SidesSwapped peerings peerings')
    (own : ∀ pcx, peeringOf pcxId peerings = some pcx → ∃ info ∈ sides pcx, info.vpcId = some rtVpcId) :
    otherSide rtVpcId pcxId peerings' = otherSide rtVpcId pcxId peerings := by
  change (peeringOf pcxId peerings').bind _ = (peeringOf pcxId peerings).bind _
  rcases peeringOf_swapped swaps with ⟨absent, absent'⟩ | ⟨pcx, pcx', found, found', rfl | rfl⟩
  · rw [absent, absent']
  · rw [found, found']
  · rw [found, found']
    exact find?_other_swap (own pcx found)

theorem resolveRouteTarget_swapped {accountId rtVpcId : String} {route : Sdk.Route}
    {peerings peerings' : List Sdk.VpcPeeringConnection} (swaps : SidesSwapped peerings peerings')
    (own : OwnSide rtVpcId route peerings) :
    resolveRouteTarget accountId rtVpcId route peerings' =
      resolveRouteTarget accountId rtVpcId route peerings := by
  unfold resolveRouteTarget
  rcases named : route.vpcPeeringConnectionId with _ | pcxId
  · rfl
  · simp only [otherSide_swapped swaps fun pcx found => own pcxId pcx named found]

/-! ## The writer's consistency check -/

private theorem runEdgeChunks_accepts {query : EdgeQuery} {chunks : List (List Row)} {graph : Neo4jGraph}
    {failure : WriteFailure} (failed : runEdgeChunks query chunks graph = .error failure)
    (edge : RoutesToEdge) : failure.error ≠ .inconsistentRoute edge := by
  induction chunks generalizing graph with
  | nil => cases failed
  | cons chunk chunks ih =>
    rcases ran : runEdgeChunk query chunk graph with chunkFailure | next
    · simp only [runEdgeChunks, ran] at failed
      cases failed
      unfold runEdgeChunk at ran
      split at ran
      · cases ran
        exact GraphWriteError.noConfusion
      · split_ifs at ran
        · cases ran
          exact GraphWriteError.noConfusion
        · cases ran
          exact GraphWriteError.noConfusion
    · simp only [runEdgeChunks, ran] at failed
      exact ih failed

theorem upsertRoutesToEdges_accepts {edges : List RoutesToEdge} (consistent : ∀ edge ∈ edges, edge.Consistent)
    {graph : Neo4jGraph} {failure : WriteFailure} (failed : upsertRoutesToEdges edges graph = .error failure)
    (edge : RoutesToEdge) : failure.error ≠ .inconsistentRoute edge := by
  simp only [upsertRoutesToEdges, splitRouteRows_eq consistent] at failed
  rcases ran : runEdgeUpsert routesToResolvedUpsert
    (edges.filterMap fun edge => routeRow true edge) graph with resolvedFailure | next
  · simp only [ran] at failed
    cases failed
    exact runEdgeChunks_accepts ran edge
  · simp only [ran] at failed
    exact runEdgeChunks_accepts failed edge

/-! ## The ids that have a stub -/

/-- A resource that maps, or an owned peering side, names the VPC. -/
inductive NamesVpc (accountId : String) (collections : Sdk.Collections) (vpcId : String) : Prop
  | eni (eni : Sdk.NetworkInterface) : eni ∈ collections.networkInterfaces → EniMappable eni →
      eni.vpcId = some vpcId → NamesVpc accountId collections vpcId
  | securityGroup (sg : Sdk.SecurityGroup) : sg ∈ collections.securityGroups → SecurityGroupMappable sg →
      sg.vpcId = some vpcId → NamesVpc accountId collections vpcId
  | networkAcl (acl : Sdk.NetworkAcl) : acl ∈ collections.networkAcls → NetworkAclMappable acl →
      acl.vpcId = some vpcId → NamesVpc accountId collections vpcId
  | routeTable (routeTable : Sdk.RouteTable) : routeTable ∈ collections.routeTables →
      RouteTableMappable routeTable → routeTable.vpcId = some vpcId → NamesVpc accountId collections vpcId
  | peering : OwnedSide accountId collections.vpcPeeringConnections vpcId →
      NamesVpc accountId collections vpcId

/-- A resource that maps names the subnet. -/
inductive NamesSubnet (collections : Sdk.Collections) (subnetId : String) : Prop
  | eni (eni : Sdk.NetworkInterface) : eni ∈ collections.networkInterfaces → EniMappable eni →
      eni.subnetId = some subnetId → NamesSubnet collections subnetId
  | networkAcl (acl : Sdk.NetworkAcl) : acl ∈ collections.networkAcls → NetworkAclMappable acl →
      (∃ association ∈ acl.associations, association.subnetId = some subnetId) →
        NamesSubnet collections subnetId
  | routeTable (routeTable : Sdk.RouteTable) : routeTable ∈ collections.routeTables →
      RouteTableMappable routeTable →
        (∃ association ∈ routeTable.associations, association.subnetId = some subnetId) →
          NamesSubnet collections subnetId

section Named

variable {accountId : String} {collections : Sdk.Collections}

private theorem mem_map_fst_kept_iff {T R : Type} {mapOne : T → String → Except MappingError R} {mappable : T → Prop}
    (maps : ∀ item, (∃ record, mapOne item accountId = .ok record) ↔ mappable item) {raw : List T} {item : T} :
    item ∈ (kept mapOne accountId raw).map Prod.fst ↔ item ∈ raw ∧ mappable item := by
  rw [List.mem_map, ← maps]
  constructor
  · rintro ⟨pair, member, rfl⟩
    obtain ⟨inRaw, mapped⟩ := mem_kept_iff.mp member
    exact ⟨inRaw, pair.2, mapped⟩
  · rintro ⟨inRaw, record, mapped⟩
    exact ⟨(item, record), mem_kept_iff.mpr ⟨inRaw, mapped⟩, rfl⟩

private theorem mem_keptEnis {eni : Sdk.NetworkInterface} :
    eni ∈ (keptCollections accountId collections).enis.map Prod.fst ↔
      eni ∈ collections.networkInterfaces ∧ EniMappable eni :=
  mem_map_fst_kept_iff fun _ => mapEniNode_maps_iff

private theorem mem_keptSecurityGroups {sg : Sdk.SecurityGroup} :
    sg ∈ (keptCollections accountId collections).securityGroups.map Prod.fst ↔
      sg ∈ collections.securityGroups ∧ SecurityGroupMappable sg :=
  mem_map_fst_kept_iff fun _ => mapSecurityGroupNode_maps_iff

private theorem mem_keptNetworkAcls {acl : Sdk.NetworkAcl} :
    acl ∈ (keptCollections accountId collections).networkAcls.map Prod.fst ↔
      acl ∈ collections.networkAcls ∧ NetworkAclMappable acl :=
  mem_map_fst_kept_iff fun _ => mapNetworkAclNode_maps_iff

private theorem mem_keptRouteTables {routeTable : Sdk.RouteTable} :
    routeTable ∈ (keptCollections accountId collections).routeTables.map Prod.fst ↔
      routeTable ∈ collections.routeTables ∧ RouteTableMappable routeTable :=
  mem_map_fst_kept_iff fun _ => mapRouteTableNode_maps_iff

/-- The VPCs sighted while collecting stubs are those the resources name. -/
private theorem mem_sightedVpcIds_iff {vpcId : String} :
    vpcId ∈ sightedVpcIds accountId
        ((keptCollections accountId collections).securityGroups.map Prod.fst)
        ((keptCollections accountId collections).networkAcls.map Prod.fst)
        ((keptCollections accountId collections).routeTables.map Prod.fst)
        ((keptCollections accountId collections).enis.map Prod.fst) collections.vpcPeeringConnections ↔
      NamesVpc accountId collections vpcId := by
  have owned : vpcId ∈ collections.vpcPeeringConnections.flatMap (fun peering =>
        ([peering.requesterVpcInfo, peering.accepterVpcInfo].filterMap id).filterMap fun info =>
          if info.ownerId = some accountId then info.vpcId else none) ↔
      OwnedSide accountId collections.vpcPeeringConnections vpcId := by
    rw [List.mem_flatMap, OwnedSide]
    refine exists_congr fun peering => and_congr_right fun _ => ?_
    rw [List.mem_filterMap]
    refine exists_congr fun info => and_congr_right fun _ => ?_
    split_ifs with owns <;> simp [owns]
  rw [sightedVpcIds, List.mem_append, owned, List.mem_filterMap]
  simp only [id_eq, exists_eq_right, List.mem_append, List.mem_map (f := fun sg : Sdk.SecurityGroup => sg.vpcId),
    List.mem_map (f := fun acl : Sdk.NetworkAcl => acl.vpcId),
    List.mem_map (f := fun routeTable : Sdk.RouteTable => routeTable.vpcId),
    List.mem_map (f := fun eni : Sdk.NetworkInterface => eni.vpcId), mem_keptEnis, mem_keptSecurityGroups,
    mem_keptNetworkAcls, mem_keptRouteTables]
  constructor
  · rintro ((((⟨sg, ⟨member, maps⟩, named⟩ | ⟨acl, ⟨member, maps⟩, named⟩) |
      ⟨routeTable, ⟨member, maps⟩, named⟩) | ⟨eni, ⟨member, maps⟩, named⟩) | side)
    · exact .securityGroup sg member maps named
    · exact .networkAcl acl member maps named
    · exact .routeTable routeTable member maps named
    · exact .eni eni member maps named
    · exact .peering side
  · rintro (⟨eni, member, maps, named⟩ | ⟨sg, member, maps, named⟩ | ⟨acl, member, maps, named⟩ |
      ⟨routeTable, member, maps, named⟩ | side)
    · exact Or.inl (Or.inr ⟨eni, ⟨member, maps⟩, named⟩)
    · exact Or.inl (Or.inl (Or.inl (Or.inl ⟨sg, ⟨member, maps⟩, named⟩)))
    · exact Or.inl (Or.inl (Or.inl (Or.inr ⟨acl, ⟨member, maps⟩, named⟩)))
    · exact Or.inl (Or.inl (Or.inr ⟨routeTable, ⟨member, maps⟩, named⟩))
    · exact Or.inr side

private theorem mem_associated {A : Type} {associations : List A} {field : A → Option String}
    {vpcId : Option String} (placed : vpcId.isSome) {subnetId : String} :
    subnetId ∈ (match vpcId with
        | none => []
        | some vpcId => associations.filterMap fun association =>
            (field association).map (·, vpcId)).map Prod.fst ↔
      ∃ association ∈ associations, field association = some subnetId := by
  obtain ⟨vpcId, rfl⟩ := Option.isSome_iff_exists.mp placed
  rw [List.map_filterMap, List.mem_filterMap]
  refine exists_congr fun association => and_congr_right fun _ => ?_
  rw [Option.map_map]
  exact Option.map_id' ▸ Iff.rfl

/-- The subnets sighted while collecting stubs are those the resources name. -/
private theorem mem_sightedSubnets_iff {subnetId : String} :
    subnetId ∈ (sightedSubnets ((keptCollections accountId collections).enis.map Prod.fst)
        ((keptCollections accountId collections).networkAcls.map Prod.fst)
        ((keptCollections accountId collections).routeTables.map Prod.fst)).map Prod.fst ↔
      NamesSubnet collections subnetId := by
  have named (eni : Sdk.NetworkInterface) (maps : EniMappable eni) :
      (do return (← eni.subnetId, ← eni.vpcId) : Option (String × String)).map Prod.fst = eni.subnetId := by
    obtain ⟨-, vpc, -, -⟩ := maps
    obtain ⟨vpcId, vpc⟩ := Option.isSome_iff_exists.mp vpc
    rw [vpc]
    cases eni.subnetId <;> rfl
  rw [sightedSubnets, List.map_append, List.map_append, List.mem_append, List.mem_append, List.map_filterMap,
    List.map_flatMap, List.map_flatMap, List.mem_filterMap, List.mem_flatMap, List.mem_flatMap]
  simp only [mem_keptEnis, mem_keptNetworkAcls, mem_keptRouteTables]
  constructor
  · rintro ((⟨eni, ⟨member, maps⟩, found⟩ | ⟨acl, ⟨member, maps⟩, found⟩) |
      ⟨routeTable, ⟨member, maps⟩, found⟩)
    · exact .eni eni member maps (named eni maps ▸ found)
    · exact .networkAcl acl member maps ((mem_associated maps.2.1).mp found)
    · exact .routeTable routeTable member maps ((mem_associated maps.2).mp found)
  · rintro (⟨eni, member, maps, found⟩ | ⟨acl, member, maps, found⟩ | ⟨routeTable, member, maps, found⟩)
    · exact Or.inl (Or.inl ⟨eni, ⟨member, maps⟩, (named eni maps).trans found⟩)
    · exact Or.inl (Or.inr ⟨acl, ⟨member, maps⟩, (mem_associated maps.2.1).mpr found⟩)
    · exact Or.inr ⟨routeTable, ⟨member, maps⟩, (mem_associated maps.2).mpr found⟩

end Named

/-! ## Batches that build -/

/-- How an edge's target and flag come out of a route of a table in `rtVpcId`, whichever of the
peerings have their sides swapped. -/
structure Resolves (accountId rtVpcId : String) (peerings : List Sdk.VpcPeeringConnection) (route : Sdk.Route)
    (edge : RoutesToEdge) : Prop where
  destination : route.destinationCidrBlock.or route.destinationIpv6CidrBlock = some edge.destinationCidr
  outcome : resolveRouteTarget accountId rtVpcId route peerings = (edge.targetVpcId, edge.resolved)
  leadsTo : ∀ target, edge.targetVpcId = some target → LeadsTo accountId rtVpcId route peerings target
  swappable : OwnSide rtVpcId route peerings → ∀ peerings', SidesSwapped peerings peerings' →
    resolveRouteTarget accountId rtVpcId route peerings' = (edge.targetVpcId, edge.resolved)

/-- The routes and the stubs of a batch agree with who owns what in the collections. -/
structure OwnershipConsistent (accountId : String) (collections : Sdk.Collections) (batch : GraphBatch) :
    Prop where
  flagged : ∀ edge ∈ batch.edges.filterMap asRoutesTo, edge.targetVpcId.isSome ↔ edge.resolved = true
  accepted : ∀ graph failure, upsertRoutesToEdges (batch.edges.filterMap asRoutesTo) graph = .error failure →
    ∀ edge, failure.error ≠ .inconsistentRoute edge
  routed : ∀ edge ∈ batch.edges.filterMap asRoutesTo,
    ∃ routeTable ∈ collections.routeTables, routeTable.routeTableId = some edge.routeTableId ∧
      ∃ rtVpcId, routeTable.vpcId = some rtVpcId ∧ ∃ route ∈ routeTable.routes,
        Resolves accountId rtVpcId collections.vpcPeeringConnections route edge
  targets : ∀ edge ∈ batch.edges.filterMap asRoutesTo, ∀ target, edge.targetVpcId = some target →
    target ∈ batch.vpcs.map VpcRecord.id
  vpcsNodup : (batch.vpcs.map VpcRecord.id).Nodup
  vpcs : ∀ vpcId, vpcId ∈ batch.vpcs.map VpcRecord.id ↔ NamesVpc accountId collections vpcId
  subnetsNodup : (batch.subnets.map SubnetRecord.id).Nodup
  subnets : ∀ subnetId, subnetId ∈ batch.subnets.map SubnetRecord.id ↔ NamesSubnet collections subnetId

private theorem resolves_of_mem {accountId : String} {peerings : List Sdk.VpcPeeringConnection}
    {pair : Sdk.RouteTable × RouteTableRecord} {edge : RoutesToEdge}
    (member : edge ∈ routeTableRoutes accountId peerings pair) :
    ∃ route ∈ pair.1.routes, Resolves accountId pair.2.vpcId peerings route edge := by
  obtain ⟨route, inRoutes, built⟩ := List.mem_filterMap.mp member
  obtain ⟨destinationCidr, destination, rfl⟩ := Option.map_eq_some_iff.mp built
  exact ⟨route, inRoutes, {
    destination
    outcome := rfl
    leadsTo := fun _ => leadsTo_of_resolveRouteTarget
    swappable := fun own _ swaps => resolveRouteTarget_swapped swaps own }⟩

/-- In a batch that builds, routes resolve to owned VPCs that have a stub, and the stubs are exactly the
VPCs and subnets that the mapped resources and the owned peering sides name. -/
theorem buildGraphBatch_ownership {accountId : String} {collections : Sdk.Collections} {batch : GraphBatch}
    (built : (buildGraphBatch accountId collections).2 = .ok batch) :
    OwnershipConsistent accountId collections batch := by
  have parts := buildGraphBatch_ok built
  have origin (edge : RoutesToEdge) (member : edge ∈ batch.edges.filterMap asRoutesTo) :
      ∃ pair ∈ (keptCollections accountId collections).routeTables,
        edge ∈ routeTableRoutes accountId collections.vpcPeeringConnections pair := by
    rw [parts.edges, edges_asRoutesTo] at member
    exact List.mem_flatMap.mp member
  have consistent := parts.consistent
  exact {
    flagged := fun edge member => by rw [consistent edge member]
    accepted := fun graph failure failed edge => upsertRoutesToEdges_accepts consistent failed edge
    routed := fun edge member => by
      obtain ⟨pair, inKept, inRoutes⟩ := origin edge member
      obtain ⟨inTables, mapped⟩ := mem_kept_iff.mp inKept
      obtain ⟨id, vpcId⟩ := mapRouteTableNode_ok mapped
      exact ⟨pair.1, inTables, (routeTableRoutes_spec inRoutes).1 ▸ id, pair.2.vpcId, vpcId,
        resolves_of_mem inRoutes⟩
    targets := fun edge member target named => by
      obtain ⟨pair, inKept, inRoutes⟩ := origin edge member
      exact vpc_of_route parts inKept inRoutes named
    vpcsNodup := by
      rw [parts.vpcs]
      exact nodup_vpcStubs _ _ _ _ _ _
    vpcs := fun vpcId => by
      rw [parts.vpcs, mem_vpcStubs_iff]
      exact mem_sightedVpcIds_iff
    subnetsNodup := by
      rw [parts.subnets]
      exact nodup_subnetStubs _ _ _ _
    subnets := fun subnetId => by
      rw [parts.subnets, mem_subnetStubs_iff]
      exact mem_sightedSubnets_iff }

private def peeredCollections : Sdk.Collections :=
  { routeTables := [{
      routeTableId := some "rtb-1"
      vpcId := some "vpc-1"
      associations := [{ subnetId := some "subnet-1" }]
      routes := [
        { destinationCidrBlock := some "10.0.0.0/16", gatewayId := some "local" },
        { destinationCidrBlock := some "10.1.0.0/16", vpcPeeringConnectionId := some "pcx-1" },
        { destinationCidrBlock := some "10.2.0.0/16", vpcPeeringConnectionId := some "pcx-2" }] }]
    vpcPeeringConnections := [
      { vpcPeeringConnectionId := some "pcx-1"
        requesterVpcInfo := some ⟨some "vpc-2", some "111122223333"⟩
        accepterVpcInfo := some ⟨some "vpc-1", some "111122223333"⟩ },
      { vpcPeeringConnectionId := some "pcx-2"
        requesterVpcInfo := some ⟨some "vpc-1", some "111122223333"⟩
        accepterVpcInfo := some ⟨some "vpc-9", some "444455556666"⟩ }] }

/-- A local route, one over an owned peering and one over a foreign one. -/
theorem peeredCollections_ownership :
    ∃ batch, (buildGraphBatch "111122223333" peeredCollections).2 = .ok batch ∧
      batch.vpcs.map VpcRecord.id = ["vpc-1", "vpc-2"] ∧
      (batch.edges.filterMap asRoutesTo).map RoutesToEdge.targetVpcId =
        [some "vpc-1", some "vpc-2", none] ∧
      OwnershipConsistent "111122223333" peeredCollections batch := by
  let routes : List RoutesToEdge := [⟨"rtb-1", "10.0.0.0/16", some "vpc-1", true⟩,
    ⟨"rtb-1", "10.1.0.0/16", some "vpc-2", true⟩, ⟨"rtb-1", "10.2.0.0/16", none, false⟩]
  have built : (buildGraphBatch "111122223333" peeredCollections).2 = .ok {
      enis := []
      securityGroups := []
      networkAcls := []
      subnets := [⟨"subnet-1", "111122223333", "vpc-1", "", ""⟩]
      vpcs := [⟨"vpc-1", "111122223333", ""⟩, ⟨"vpc-2", "111122223333", ""⟩]
      routeTables := [⟨"rtb-1", "111122223333", "vpc-1", false⟩]
      edges := .usesRouteTable ⟨"subnet-1", "rtb-1"⟩ :: routes.map .routesTo } := by decide
  exact ⟨_, built, rfl, rfl, buildGraphBatch_ownership built⟩

end NetHound.Soundness
