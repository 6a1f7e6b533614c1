import NetHound.Ingest.Closure

/-! # Closed batches and the write

A batch is closed unless an interface that maps lists a group, or a same-account rule refers to one,
that is not itself a collected group that maps. Over an empty graph a closed batch is never refused
for a missing endpoint; a batch that is not closed always leaves one to miss.
-/

namespace NetHound.Soundness

open Domain Graph Cypher Ingest Topology

/-- The id is that of a collected group with the fields its node needs. -/
def Collected (collections : Sdk.Collections) (groupId : Option String) : Prop :=
  ∃ sg ∈ collections.securityGroups, sg.groupId = groupId ∧ SecurityGroupMappable sg

/-- Every group a mapped interface lists or a mapped group's same-account pair names was collected. -/
structure GroupsCollected (accountId : String) (collections : Sdk.Collections) : Prop where
  listed : ∀ eni ∈ collections.networkInterfaces, EniMappable eni →
    ∀ group ∈ eni.groups, Collected collections group.groupId
  referenced : ∀ sg ∈ collections.securityGroups, SecurityGroupMappable sg →
    ∀ permission ∈ sg.ipPermissions ++ sg.ipPermissionsEgress, ∀ pair ∈ permission.userIdGroupPairs,
      Sg.pairResolved accountId pair = true → Collected collections pair.groupId

/-- Writing into an empty graph never fails on a missing endpoint. -/
def NeverUnresolved (batch : GraphBatch) : Prop :=
  ∀ failure, writeBatch batch PropertyGraph.empty = .error failure →
    ∀ edgeType missing total, failure.error ≠ .unresolvedEndpoint edgeType missing total

/-- A closed batch's rows are bound as soon as its nodes are written. -/
theorem neverUnresolved_of_closed {batch : GraphBatch}
    (consistent : ∀ edge ∈ batch.edges.filterMap asRoutesTo, edge.Consistent) (closed : Closed batch) :
    NeverUnresolved batch := by
  intro failure failed edgeType missing total
  rw [writeBatch_eq consistent] at failed
  apply runStatements_error ?_ failed
  intro statement member row inRows
  obtain ⟨c, merged, edge, inEdges, source, target⟩ := row_refs consistent statement member row inRows
  have written (ref : NodeRef Label) (referred : ref ∈ edgeRefs edge) :
      ref ∈ (PropertyGraph.empty.mergeNodes (nodeRows batch) : Neo4jGraph).refs :=
    PropertyGraph.mem_refs_mergeNodes.mpr
      (Or.inr (mem_nodeRows_iff.mpr (closed edge inEdges ref referred)))
  exact ⟨c, merged, written c.source source, written c.target target⟩

section Built

variable {accountId : String} {collections : Sdk.Collections} {batch : GraphBatch}

private theorem mem_securityGroupIds_iff (built : Built accountId collections batch) {id : String} :
    id ∈ batchIds batch .securityGroup ↔ Collected collections (some id) := by
  rw [batchIds, built.securityGroups, List.map_map, List.mem_map]
  constructor
  · rintro ⟨⟨sg, record⟩, member, rfl⟩
    obtain ⟨inGroups, mapped⟩ := mem_kept_iff.mp member
    exact ⟨sg, inGroups, (mapSecurityGroupNode_ok mapped).1,
      mapSecurityGroupNode_maps_iff.mp ⟨record, mapped⟩⟩
  · rintro ⟨sg, inGroups, named, mappable⟩
    obtain ⟨record, mapped⟩ := (@mapSecurityGroupNode_maps_iff accountId sg).mpr mappable
    have same := (mapSecurityGroupNode_ok mapped).1.symm.trans named
    exact ⟨(sg, record), mem_kept_iff.mpr ⟨inGroups, mapped⟩, Option.some.inj same⟩

private theorem forall_kept_iff {T R : Type} {mapOne : T → String → Except MappingError R} {raw : List T}
    {mappable p : T → Prop} (maps : ∀ item, (∃ record, mapOne item accountId = .ok record) ↔ mappable item) :
    (∀ pair ∈ kept mapOne accountId raw, p pair.1) ↔ ∀ item ∈ raw, mappable item → p item := by
  constructor
  · intro holds item member fields
    obtain ⟨record, mapped⟩ := (maps item).mpr fields
    exact holds (item, record) (mem_kept_iff.mpr ⟨member, mapped⟩)
  · intro holds pair member
    obtain ⟨inRaw, mapped⟩ := mem_kept_iff.mp member
    exact holds pair.1 inRaw ((maps pair.1).mp ⟨pair.2, mapped⟩)

/-- The edges of one list refer to nodes of the batch. -/
private abbrev EdgesClosed (batch : GraphBatch) (edges : List Edge) : Prop :=
  ∀ edge ∈ edges, ∀ ref ∈ edgeRefs edge, ref.id ∈ batchIds batch ref.label

private theorem edgesClosed_hasSg_iff (built : Built accountId collections batch)
    {pair : Sdk.NetworkInterface × EniRecord} (member : pair ∈ (keptCollections accountId collections).enis) :
    EdgesClosed batch ((eniGroups pair).map .hasSg) ↔
      ∀ group ∈ pair.1.groups, Collected collections group.groupId := by
  have own : pair.2.id ∈ batchIds batch .eni := by
    rw [batchIds, built.enis]
    exact List.mem_map_of_mem (List.mem_map_of_mem member)
  rw [EdgesClosed, eniGroups, List.map_map, List.forall_mem_map]
  refine forall₂_congr fun group inGroups => ?_
  obtain ⟨groupId, named⟩ := Option.isSome_iff_exists.mp (built.groupsNamed pair member group inGroups)
  simp only [Function.comp_apply, edgeRefs, List.forall_mem_cons, List.not_mem_nil, false_implies,
    implies_true, and_true, own, true_and, named, Option.getD_some, mem_securityGroupIds_iff built]

private theorem edgesClosed_allows_iff (built : Built accountId collections batch)
    {pair : Sdk.SecurityGroup × SecurityGroupRecord}
    (member : pair ∈ (keptCollections accountId collections).securityGroups) :
    EdgesClosed batch ((sgRules accountId pair).map (allowsEdge pair.2.id)) ↔
      ∀ permission ∈ pair.1.ipPermissions ++ pair.1.ipPermissionsEgress,
        ∀ groupPair ∈ permission.userIdGroupPairs, Sg.pairResolved accountId groupPair = true →
          Collected collections groupPair.groupId := by
  have own : pair.2.id ∈ batchIds batch .securityGroup := by
    rw [batchIds, built.securityGroups]
    exact List.mem_map_of_mem (List.mem_map_of_mem member)
  have mapped := built.sgRulesMapped pair member
  have refs (rule : SgRule) :
      (∀ ref ∈ edgeRefs (allowsEdge pair.2.id rule), ref.id ∈ batchIds batch ref.label) ↔
      ∀ refId, rule.target = .securityGroupRef refId → rule.resolved = true →
        Collected collections (some refId) := by
    have split : edgeRefs (allowsEdge pair.2.id rule) = ⟨.securityGroup, pair.2.id⟩ :: ruleRefs rule := by
      rw [allowsEdge]
      split <;> rfl
    rw [split, List.forall_mem_cons, and_iff_right own, ruleRefs]
    split
    · next cidr target => simp [target]
    · next refId target =>
      simp only [target, RuleTarget.securityGroupRef.injEq, forall_eq']
      split_ifs with flag <;> simp [flag, mem_securityGroupIds_iff built]
  rw [EdgesClosed, List.forall_mem_map, forall₂_congr fun rule _ => refs rule]
  exact Sg.forall_resolved_reference_iff mapped (Collected collections)

/-- Subnet, ACL, route and NACL rule edges never leave the batch. -/
private theorem edgesClosed_rest (built : Built accountId collections batch) :
    EdgesClosed batch
        (inSubnetEdges ((keptCollections accountId collections).enis.map Prod.snd) ++
          (keptCollections accountId collections).networkAcls.flatMap
            (fun pair => (aclSubnets pair).map .protectedBy) ++
          (keptCollections accountId collections).routeTables.flatMap
            (fun pair => (routeTableSubnets pair).map .usesRouteTable) ++
          (keptCollections accountId collections).routeTables.flatMap
            fun pair => (routeTableRoutes accountId collections.vpcPeeringConnections pair).map .routesTo) ∧
      EdgesClosed batch ((keptCollections accountId collections).networkAcls.flatMap
        fun pair => (aclRules pair).map (.hasRule pair.2.id)) := by
  have acl {pair : Sdk.NetworkAcl × NetworkAclRecord}
      (member : pair ∈ (keptCollections accountId collections).networkAcls) :
      pair.2.id ∈ batchIds batch .networkAcl := by
    rw [batchIds, built.networkAcls]
    exact List.mem_map_of_mem (List.mem_map_of_mem member)
  have routeTable {pair : Sdk.RouteTable × RouteTableRecord}
      (member : pair ∈ (keptCollections accountId collections).routeTables) :
      pair.2.id ∈ batchIds batch .routeTable := by
    rw [batchIds, built.routeTables]
    exact List.mem_map_of_mem (List.mem_map_of_mem member)
  simp only [EdgesClosed, List.forall_mem_append, List.forall_mem_flatMap, List.forall_mem_map, inSubnetEdges,
    edgeRefs, List.forall_mem_cons, List.not_mem_nil, false_implies, implies_true, and_true]
  refine ⟨⟨⟨⟨?_, ?_⟩, ?_⟩, ?_⟩, ?_⟩
  · intro pair member
    refine ⟨?_, subnet_of_eni built member⟩
    rw [batchIds, built.enis]
    exact List.mem_map_of_mem (List.mem_map_of_mem member)
  · intro pair member edge associated
    obtain ⟨owner, subnet⟩ := subnet_of_acl built member associated
    exact ⟨subnet, owner ▸ acl member⟩
  · intro pair member edge associated
    obtain ⟨owner, subnet⟩ := subnet_of_routeTable built member associated
    exact ⟨subnet, owner ▸ routeTable member⟩
  · intro pair member edge routed
    refine ⟨(routeTableRoutes_spec routed).1 ▸ routeTable member, ?_⟩
    split_ifs with flag
    · intro ref referred
      obtain ⟨vpcId, target, rfl⟩ := List.mem_map.mp referred
      exact vpc_of_route built member routed (Option.mem_toList.mp target)
    · exact fun ref referred => absurd referred List.not_mem_nil
  · exact fun pair member rule _ => acl member

/-- A batch is closed exactly when every group it lists or refers to was collected. -/
theorem closed_iff (built : Built accountId collections batch) :
    Closed batch ↔ GroupsCollected accountId collections := by
  obtain ⟨topology, hasRule⟩ := edgesClosed_rest built
  have listed : EdgesClosed batch ((keptCollections accountId collections).enis.flatMap
        fun pair => (eniGroups pair).map .hasSg) ↔
      ∀ eni ∈ collections.networkInterfaces, EniMappable eni →
        ∀ group ∈ eni.groups, Collected collections group.groupId := by
    rw [EdgesClosed, List.forall_mem_flatMap, ← forall_kept_iff fun eni => mapEniNode_maps_iff]
    exact forall₂_congr fun pair member => edgesClosed_hasSg_iff built member
  have referenced : EdgesClosed batch ((keptCollections accountId collections).securityGroups.flatMap
        fun pair => (sgRules accountId pair).map (allowsEdge pair.2.id)) ↔
      ∀ sg ∈ collections.securityGroups, SecurityGroupMappable sg →
        ∀ permission ∈ sg.ipPermissions ++ sg.ipPermissionsEgress, ∀ pair ∈ permission.userIdGroupPairs,
          Sg.pairResolved accountId pair = true → Collected collections pair.groupId := by
    rw [EdgesClosed, List.forall_mem_flatMap, ← forall_kept_iff fun sg => mapSecurityGroupNode_maps_iff]
    exact forall₂_congr fun pair member => edgesClosed_allows_iff built member
  rw [Closed, built.edges, KeptCollections.edges, List.forall_mem_append, and_iff_left hasRule,
    List.forall_mem_append, List.forall_mem_append, and_iff_left topology]
  constructor
  · rintro ⟨hasSg, allows⟩
    exact ⟨listed.mp hasSg, referenced.mp allows⟩
  · intro collected
    exact ⟨listed.mpr collected.listed, referenced.mpr collected.referenced⟩

end Built

/-- A batch that builds is closed, and so never refused for a missing endpoint, exactly when every
group it lists or refers to was collected. -/
theorem buildGraphBatch_closed_iff {accountId : String} {collections : Sdk.Collections} {batch : GraphBatch}
    (built : (buildGraphBatch accountId collections).2 = .ok batch) :
    Closed batch ∧ NeverUnresolved batch ↔ GroupsCollected accountId collections := by
  have parts := buildGraphBatch_ok built
  rw [← closed_iff parts]
  exact and_iff_left_of_imp (neverUnresolved_of_closed parts.consistent)

private def webEni : Sdk.NetworkInterface :=
  { networkInterfaceId := some "eni-1"
    vpcId := some "vpc-1"
    subnetId := some "subnet-1"
    privateIpAddress := some "10.0.0.1"
    groups := [⟨some "sg-1"⟩] }

private def webGroup (groupName : Option String) : Sdk.SecurityGroup :=
  { groupId := some "sg-1", vpcId := some "vpc-1", groupName }

/-- One interface and its group, beside a network ACL that does not map. -/
private def webCollections (groupName : Option String) : Sdk.Collections :=
  { networkInterfaces := [webEni]
    securityGroups := [webGroup groupName]
    networkAcls := [{ networkAclId := some "acl-1", vpcId := some "vpc-1" }] }

private def webBatch (securityGroups : List SecurityGroupRecord) : GraphBatch :=
  { enis := [⟨"eni-1", "111122223333", "vpc-1", "subnet-1", "10.0.0.1", none⟩]
    securityGroups
    networkAcls := []
    subnets := [⟨"subnet-1", "111122223333", "vpc-1", "", ""⟩]
    vpcs := [⟨"vpc-1", "111122223333", ""⟩]
    routeTables := []
    edges := [.hasSg ⟨"eni-1", "sg-1"⟩, .inSubnet ⟨"eni-1", "subnet-1"⟩] }

theorem webBatch_closed :
    let batch := webBatch [⟨"sg-1", "111122223333", "vpc-1", "web", none⟩]
    (buildGraphBatch "111122223333" (webCollections (some "web"))).2 = .ok batch ∧
      Closed batch ∧ NeverUnresolved batch := by
  have built : (buildGraphBatch "111122223333" (webCollections (some "web"))).2 =
      .ok (webBatch [⟨"sg-1", "111122223333", "vpc-1", "web", none⟩]) := by decide
  refine ⟨built, (buildGraphBatch_closed_iff built).mpr ⟨?_, ?_⟩⟩
  · intro eni member _ group listed
    obtain rfl := List.mem_singleton.mp member
    obtain rfl := List.mem_singleton.mp listed
    exact ⟨webGroup (some "web"), List.mem_singleton_self _, rfl, rfl, rfl, rfl⟩
  · intro sg member _ permission inPermissions
    obtain rfl := List.mem_singleton.mp member
    cases inPermissions

/-- A group without a name is left out, and the interface that lists it stops the write. -/
theorem webBatch_not_closed :
    ¬ ∀ (accountId : String) (collections : Sdk.Collections) (batch : GraphBatch),
      (buildGraphBatch accountId collections).2 = .ok batch → Closed batch ∧ NeverUnresolved batch := by
  intro closed
  obtain ⟨_, neverUnresolved⟩ := closed "111122223333" (webCollections none) (webBatch []) (by decide)
  have refused :
      ((writeBatch (webBatch []) PropertyGraph.empty).mapError WriteFailure.error).map (fun _ => ()) =
      .error (.unresolvedEndpoint .hasSg 1 1) := by decide
  rcases written : writeBatch (webBatch []) PropertyGraph.empty with failure | graph
  · rw [written] at refused
    exact neverUnresolved failure written .hasSg 1 1 (Except.error.inj refused)
  · rw [written] at refused
    cases refused

end NetHound.Soundness
