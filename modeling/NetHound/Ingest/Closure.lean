import NetHound.Ingest.Batch
import NetHound.Ingest.Writing

/-! # References of a batch

The nodes an edge refers to are the endpoints its row matches (`row_refs`). Every id an edge carries
belongs to a node of its own batch, with one exception: the groups an interface lists and the groups
a same-account rule refers to are only ids (`closed_iff`).
-/

namespace NetHound.Ingest

open Domain Graph Cypher Topology

/-- The group a resolved reference names. -/
def ruleRefs (rule : SgRule) : List (NodeRef Label) :=
  match rule.target with
  | .cidr _ => []
  | .securityGroupRef refId => if rule.resolved then [⟨.securityGroup, refId⟩] else []

/-- The nodes an edge refers to. -/
def edgeRefs : Edge → List (NodeRef Label)
  | .hasSg edge => [⟨.eni, edge.eniId⟩, ⟨.securityGroup, edge.securityGroupId⟩]
  | .inSubnet edge => [⟨.eni, edge.eniId⟩, ⟨.subnet, edge.subnetId⟩]
  | .protectedBy edge => [⟨.subnet, edge.subnetId⟩, ⟨.networkAcl, edge.networkAclId⟩]
  | .usesRouteTable edge => [⟨.subnet, edge.subnetId⟩, ⟨.routeTable, edge.routeTableId⟩]
  | .routesTo edge =>
      ⟨.routeTable, edge.routeTableId⟩ ::
        if edge.resolved then edge.targetVpcId.toList.map fun vpcId => ⟨.vpc, vpcId⟩ else []
  | .allowsIngress securityGroupId rule => ⟨.securityGroup, securityGroupId⟩ :: ruleRefs rule
  | .allowsEgress securityGroupId rule => ⟨.securityGroup, securityGroupId⟩ :: ruleRefs rule
  | .hasRule networkAclId _ => [⟨.networkAcl, networkAclId⟩]

/-! ## Rows match what their edges refer to -/

private theorem cidrRow_refs {query : EdgeQuery} (source : query.source = (.securityGroup, .securityGroupId))
    (loop : query.target = none) {owned : String × SgRule} {row : Row} (built : cidrRow owned = some row) :
    ∃ c, query.merge row = some c ∧ c.source = ⟨.securityGroup, owned.1⟩ ∧
      (c.target = c.source ∨ c.target ∈ ruleRefs owned.2) := by
  have ref : row.ref (.securityGroup, .securityGroupId) = some ⟨.securityGroup, owned.1⟩ := by
    rw [cidrRow] at built
    split at built
    · cases built
      rfl
    · cases built
  refine ⟨_, EdgeQuery.merge_eq_some_iff.mpr ⟨_, by rw [source]; exact ref, _, ?_, rfl⟩, rfl, Or.inl rfl⟩
  rw [EdgeQuery.targetRef, loop]

private theorem sgRefRow_refs {query : EdgeQuery} {resolved : Bool}
    (source : query.source = (.securityGroup, .securityGroupId))
    (target : query.target = if resolved then some (.securityGroup, .targetSecurityGroupId) else none)
    {owned : String × SgRule} {row : Row} (built : sgRefRow resolved owned = some row) :
    ∃ c, query.merge row = some c ∧ c.source = ⟨.securityGroup, owned.1⟩ ∧
      (c.target = c.source ∨ c.target ∈ ruleRefs owned.2) := by
  rw [sgRefRow] at built
  split at built
  · cases built
  · next refId reference =>
    split_ifs at built with flag
    cases built
    have ref : (sgRuleSgRefRow owned.1 owned.2 refId).ref (.securityGroup, .securityGroupId) =
        some ⟨.securityGroup, owned.1⟩ := rfl
    rcases resolved with _ | _
    · refine ⟨_, EdgeQuery.merge_eq_some_iff.mpr ⟨_, by rw [source]; exact ref, _, ?_, rfl⟩, rfl, Or.inl rfl⟩
      rw [EdgeQuery.targetRef, target]
      rfl
    · refine ⟨_, EdgeQuery.merge_eq_some_iff.mpr
        ⟨_, by rw [source]; exact ref, ⟨.securityGroup, refId⟩, ?_, rfl⟩, rfl, Or.inr ?_⟩
      · rw [EdgeQuery.targetRef, target]
        rfl
      · rw [ruleRefs, reference]
        simp only [flag, if_true, List.mem_singleton]

private theorem sgRule_row_refs (direction : Direction) (pairs : List (String × SgRule)) :
    ∀ statement ∈ sgRuleStatements direction (sgRuleBatches pairs), ∀ row ∈ statement.2,
      ∃ c, statement.1.merge row = some c ∧ ∃ owned ∈ pairs,
        c.source = ⟨.securityGroup, owned.1⟩ ∧ (c.target = c.source ∨ c.target ∈ ruleRefs owned.2) := by
  have rows {query : EdgeQuery} {f : String × SgRule → Option Row}
      (each : ∀ owned row, f owned = some row → ∃ c, query.merge row = some c ∧
        c.source = ⟨.securityGroup, owned.1⟩ ∧ (c.target = c.source ∨ c.target ∈ ruleRefs owned.2)) :
      ∀ row ∈ (regrouped pairs).filterMap f, ∃ c, query.merge row = some c ∧ ∃ owned ∈ pairs,
        c.source = ⟨.securityGroup, owned.1⟩ ∧ (c.target = c.source ∨ c.target ∈ ruleRefs owned.2) := by
    intro row member
    obtain ⟨owned, inPairs, built⟩ := List.mem_filterMap.mp member
    obtain ⟨c, merged, ends⟩ := each owned row built
    exact ⟨c, merged, owned, mem_regrouped.mp inPairs, ends⟩
  cases direction <;>
    simp only [sgRuleStatements, splitSgRuleRows_eq, ownedRules_sgRuleBatches, List.forall_mem_cons,
      List.not_mem_nil, false_implies, implies_true, and_true] <;>
    exact ⟨rows fun _ _ => cidrRow_refs rfl rfl, rows fun _ _ => sgRefRow_refs rfl rfl,
      rows fun _ _ => sgRefRow_refs rfl rfl⟩

private theorem route_row_refs {edges : List RoutesToEdge} (consistent : ∀ edge ∈ edges, edge.Consistent) :
    ∀ statement ∈ routeStatements edges, ∀ row ∈ statement.2,
      ∃ c, statement.1.merge row = some c ∧ ∃ edge ∈ edges,
        c.source ∈ edgeRefs (.routesTo edge) ∧ c.target ∈ edgeRefs (.routesTo edge) := by
  simp only [routeStatements, splitRouteRows_eq consistent, List.forall_mem_cons,
    List.not_mem_nil, false_implies, implies_true, and_true]
  constructor
  · intro row member
    obtain ⟨edge, inEdges, built⟩ := List.mem_filterMap.mp member
    rw [routeRow] at built
    split at built
    · next vpcId target flag =>
      cases built
      refine ⟨⟨.routesTo, ⟨.routeTable, edge.routeTableId⟩, ⟨.vpc, vpcId⟩, _, _, _⟩, rfl, edge, inEdges, ?_⟩
      simp [edgeRefs, target, flag]
    · cases built
    · cases built
  · intro row member
    obtain ⟨edge, inEdges, built⟩ := List.mem_filterMap.mp member
    rw [routeRow] at built
    split at built
    · cases built
    · cases built
      exact ⟨_, rfl, edge, inEdges, List.mem_cons_self, List.mem_cons_self⟩
    · cases built

private theorem ends_of_owned {edges : List Edge} {pairs : List (String × SgRule)} {c : Merge}
    (edge : String → SgRule → Edge)
    (refs : ∀ id rule, edgeRefs (edge id rule) = ⟨.securityGroup, id⟩ :: ruleRefs rule)
    (present : ∀ owned ∈ pairs, edge owned.1 owned.2 ∈ edges)
    (ends : ∃ owned ∈ pairs, c.source = ⟨.securityGroup, owned.1⟩ ∧
      (c.target = c.source ∨ c.target ∈ ruleRefs owned.2)) :
    ∃ edge ∈ edges, c.source ∈ edgeRefs edge ∧ c.target ∈ edgeRefs edge := by
  obtain ⟨owned, inPairs, source, target⟩ := ends
  refine ⟨_, present owned inPairs, ?_⟩
  rw [refs, source]
  refine ⟨List.mem_cons_self, ?_⟩
  rcases target with self | reference
  · rw [self, source]
    exact List.mem_cons_self
  · exact List.mem_cons_of_mem _ reference

/-- Every row's endpoints are nodes that some edge refers to. -/
theorem row_refs {edges : List Edge} (consistent : ∀ edge ∈ edges.filterMap asRoutesTo, edge.Consistent) :
    ∀ statement ∈ edgeStatements edges, ∀ row ∈ statement.2,
      ∃ c, statement.1.merge row = some c ∧ ∃ edge ∈ edges,
        c.source ∈ edgeRefs edge ∧ c.target ∈ edgeRefs edge := by
  have ofKind {E : Type} {as : Edge → Option E} {wrap : E → Edge}
      (same : ∀ edge e, as edge = some e → edge = wrap e)
      {e : E} (member : e ∈ edges.filterMap as) : wrap e ∈ edges := by
    obtain ⟨edge, inEdges, found⟩ := List.mem_filterMap.mp member
    rw [← same edge e found]
    exact inEdges
  have plain {E : Type} {as : Edge → Option E} {wrap : E → Edge} {query : EdgeQuery} {toRow : E → Row}
      (same : ∀ edge e, as edge = some e → edge = wrap e)
      (merged : ∀ e, ∃ c, query.merge (toRow e) = some c ∧
        c.source ∈ edgeRefs (wrap e) ∧ c.target ∈ edgeRefs (wrap e)) :
      ∀ row ∈ (edges.filterMap as).map toRow, ∃ c, query.merge row = some c ∧ ∃ edge ∈ edges,
        c.source ∈ edgeRefs edge ∧ c.target ∈ edgeRefs edge := by
    intro row member
    obtain ⟨e, inKind, rfl⟩ := List.mem_map.mp member
    obtain ⟨c, found, ends⟩ := merged e
    exact ⟨c, found, wrap e, ofKind same inKind, ends⟩
  simp only [edgeStatements, List.forall_mem_append, List.forall_mem_singleton]
  refine ⟨⟨⟨⟨⟨⟨⟨?_, ?_⟩, ?_⟩, ?_⟩, ?_⟩, ?_⟩, ?_⟩, ?_⟩
  · exact @plain _ asHasSg .hasSg hasSgUpsert hasSgRow (fun _ _ => asHasSg_eq_some) fun e =>
      ⟨_, rfl, List.mem_cons_self, List.mem_cons_of_mem _ List.mem_cons_self⟩
  · exact @plain _ asInSubnet .inSubnet inSubnetUpsert inSubnetRow (fun _ _ => asInSubnet_eq_some) fun e =>
      ⟨_, rfl, List.mem_cons_self, List.mem_cons_of_mem _ List.mem_cons_self⟩
  · exact @plain _ asProtectedBy .protectedBy protectedByUpsert protectedByRow
      (fun _ _ => asProtectedBy_eq_some) fun e =>
        ⟨_, rfl, List.mem_cons_self, List.mem_cons_of_mem _ List.mem_cons_self⟩
  · exact @plain _ asUsesRouteTable .usesRouteTable usesRouteTableUpsert usesRouteTableRow
      (fun _ _ => asUsesRouteTable_eq_some) fun e =>
        ⟨_, rfl, List.mem_cons_self, List.mem_cons_of_mem _ List.mem_cons_self⟩
  · intro statement member row inRows
    obtain ⟨c, merged, edge, inRoutes, ends⟩ := route_row_refs consistent statement member row inRows
    refine ⟨c, merged, .routesTo edge, ?_, ends⟩
    exact @ofKind _ asRoutesTo .routesTo (fun _ _ => asRoutesTo_eq_some) _ inRoutes
  · intro statement member row inRows
    obtain ⟨c, merged, ends⟩ := sgRule_row_refs .ingress _ statement member row inRows
    refine ⟨c, merged, ends_of_owned .allowsIngress (fun _ _ => rfl) (fun owned inPairs => ?_) ends⟩
    exact @ofKind _ asAllowsIngress (fun owned => .allowsIngress owned.1 owned.2)
      (fun _ _ => asAllowsIngress_eq_some) _ inPairs
  · intro statement member row inRows
    obtain ⟨c, merged, ends⟩ := sgRule_row_refs .egress _ statement member row inRows
    refine ⟨c, merged, ends_of_owned .allowsEgress (fun _ _ => rfl) (fun owned inPairs => ?_) ends⟩
    exact @ofKind _ asAllowsEgress (fun owned => .allowsEgress owned.1 owned.2)
      (fun _ _ => asAllowsEgress_eq_some) _ inPairs
  · intro row member
    rw [naclRuleRows_naclRuleBatches] at member
    obtain ⟨owned, inGroups, rfl⟩ := List.mem_map.mp member
    refine ⟨_, rfl, .hasRule owned.1 owned.2, ?_, List.mem_cons_self, List.mem_cons_self⟩
    exact @ofKind _ asHasRule (fun owned => .hasRule owned.1 owned.2)
      (fun _ _ => asHasRule_eq_some) _ (mem_regrouped.mp inGroups)

/-! ## Closed batches -/

/-- The ids a batch writes nodes for, by label. -/
def batchIds (batch : GraphBatch) : Label → List String
  | .eni => batch.enis.map EniRecord.id
  | .securityGroup => batch.securityGroups.map SecurityGroupRecord.id
  | .networkAcl => batch.networkAcls.map NetworkAclRecord.id
  | .subnet => batch.subnets.map SubnetRecord.id
  | .vpc => batch.vpcs.map VpcRecord.id
  | .routeTable => batch.routeTables.map RouteTableRecord.id
  | .regulatedBoundary => []

theorem mem_nodeRows_iff {batch : GraphBatch} {label : Label} {id : String} :
    ⟨label, id⟩ ∈ (nodeRows batch).map NodeMerge.ref ↔ id ∈ batchIds batch label := by
  simp only [nodeRows, List.map_append, List.map_map, List.mem_append, List.mem_map, Function.comp_apply,
    nodeUpsert, NodeRef.mk.injEq]
  cases label <;> simp [batchIds, eniRow, securityGroupRow, networkAclRow, subnetRow, vpcRow, routeTableRow]

/-- Every node an edge of the batch refers to is a node of the batch. -/
def Closed (batch : GraphBatch) : Prop :=
  ∀ edge ∈ batch.edges, ∀ ref ∈ edgeRefs edge, ref.id ∈ batchIds batch ref.label

section Built

variable {accountId : String} {collections : Sdk.Collections} {batch : GraphBatch}

/-- Routes that were mapped are never refused by the writer. -/
theorem Built.consistent (built : Built accountId collections batch) :
    ∀ edge ∈ batch.edges.filterMap asRoutesTo, edge.Consistent := by
  rw [built.edges, edges_asRoutesTo]
  intro edge member
  obtain ⟨pair, _, inRoutes⟩ := List.mem_flatMap.mp member
  exact (routeTableRoutes_spec inRoutes).2.1

theorem subnet_of_eni (built : Built accountId collections batch)
    {pair : Sdk.NetworkInterface × EniRecord} (member : pair ∈ (keptCollections accountId collections).enis) :
    pair.2.subnetId ∈ batchIds batch .subnet := by
  obtain ⟨_, vpcId, subnetId, _⟩ := mapEniNode_ok (mem_kept_iff.mp member).2
  rw [batchIds, built.subnets, mem_subnetStubs_iff]
  refine List.mem_map.mpr ⟨(pair.2.subnetId, pair.2.vpcId), ?_, rfl⟩
  apply List.mem_append_left
  apply List.mem_append_left
  exact List.mem_filterMap.mpr ⟨pair.1, List.mem_map_of_mem member, by rw [subnetId, vpcId]; rfl⟩

theorem subnet_of_acl (built : Built accountId collections batch)
    {pair : Sdk.NetworkAcl × NetworkAclRecord}
    (member : pair ∈ (keptCollections accountId collections).networkAcls)
    {edge : ProtectedByEdge} (associated : edge ∈ aclSubnets pair) :
    edge.networkAclId = pair.2.id ∧ edge.subnetId ∈ batchIds batch .subnet := by
  obtain ⟨_, vpcId⟩ := mapNetworkAclNode_ok (mem_kept_iff.mp member).2
  obtain ⟨association, inAssociations, found⟩ := List.mem_filterMap.mp associated
  obtain ⟨subnetId, named, rfl⟩ := Option.map_eq_some_iff.mp found
  refine ⟨rfl, ?_⟩
  rw [batchIds, built.subnets, mem_subnetStubs_iff]
  refine List.mem_map.mpr ⟨(subnetId, pair.2.vpcId), ?_, rfl⟩
  apply List.mem_append_left
  apply List.mem_append_right
  refine List.mem_flatMap.mpr ⟨pair.1, List.mem_map_of_mem member, ?_⟩
  rw [vpcId]
  exact List.mem_filterMap.mpr ⟨association, inAssociations, by rw [named]; rfl⟩

theorem subnet_of_routeTable (built : Built accountId collections batch)
    {pair : Sdk.RouteTable × RouteTableRecord}
    (member : pair ∈ (keptCollections accountId collections).routeTables)
    {edge : UsesRouteTableEdge} (associated : edge ∈ routeTableSubnets pair) :
    edge.routeTableId = pair.2.id ∧ edge.subnetId ∈ batchIds batch .subnet := by
  obtain ⟨_, vpcId⟩ := mapRouteTableNode_ok (mem_kept_iff.mp member).2
  obtain ⟨association, inAssociations, found⟩ := List.mem_filterMap.mp associated
  obtain ⟨subnetId, named, rfl⟩ := Option.map_eq_some_iff.mp found
  refine ⟨rfl, ?_⟩
  rw [batchIds, built.subnets, mem_subnetStubs_iff]
  refine List.mem_map.mpr ⟨(subnetId, pair.2.vpcId), ?_, rfl⟩
  apply List.mem_append_right
  refine List.mem_flatMap.mpr ⟨pair.1, List.mem_map_of_mem member, ?_⟩
  rw [vpcId]
  exact List.mem_filterMap.mpr ⟨association, inAssociations, by rw [named]; rfl⟩

theorem vpc_of_route (built : Built accountId collections batch)
    {pair : Sdk.RouteTable × RouteTableRecord}
    (member : pair ∈ (keptCollections accountId collections).routeTables)
    {edge : RoutesToEdge}
    (routed : edge ∈ routeTableRoutes accountId collections.vpcPeeringConnections pair) {vpcId : String}
    (target : edge.targetVpcId = some vpcId) : vpcId ∈ batchIds batch .vpc := by
  rw [batchIds, built.vpcs, mem_vpcStubs_iff]
  rcases (routeTableRoutes_spec routed).2.2 vpcId target
    with own | ⟨peering, inPeerings, info, side, owned, named⟩
  · apply List.mem_append_left
    refine List.mem_filterMap.mpr ⟨some vpcId, ?_, rfl⟩
    apply List.mem_append_left
    apply List.mem_append_right
    refine List.mem_map.mpr ⟨pair.1, List.mem_map_of_mem member, ?_⟩
    rw [(mapRouteTableNode_ok (mem_kept_iff.mp member).2).2, own]
  · apply List.mem_append_right
    refine List.mem_flatMap.mpr ⟨peering, inPeerings, List.mem_filterMap.mpr ⟨info, side, ?_⟩⟩
    rw [if_pos owned, named]

end Built

end NetHound.Ingest
