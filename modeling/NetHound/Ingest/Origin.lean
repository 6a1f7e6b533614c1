import NetHound.Ingest.Runs

/-! # Where relationships come from

Every edge of a batch is mapped from one resource, its origin, and every relationship key names the
origin of the edges that write it. So a filter on origins can be taken on the edges or on what they
write (`filter_batchMerges`), and leaving a resource out of a snapshot takes its own relationships
out of the write and no others (`Excludes.edges`).
-/

namespace NetHound.Ingest

open Domain Graph Cypher Topology

/-- The resource an edge is mapped from. -/
def edgeOrigin : Edge → NodeRef Label
  | .hasSg edge => ⟨.eni, edge.eniId⟩
  | .inSubnet edge => ⟨.eni, edge.eniId⟩
  | .protectedBy edge => ⟨.networkAcl, edge.networkAclId⟩
  | .usesRouteTable edge => ⟨.routeTable, edge.routeTableId⟩
  | .routesTo edge => ⟨.routeTable, edge.routeTableId⟩
  | .allowsIngress securityGroupId _ => ⟨.securityGroup, securityGroupId⟩
  | .allowsEgress securityGroupId _ => ⟨.securityGroup, securityGroupId⟩
  | .hasRule networkAclId _ => ⟨.networkAcl, networkAclId⟩

/-- The end of a relationship that stands for the resource it was mapped from. -/
def originOf (relType : RelType) (source target : NodeRef Label) : NodeRef Label :=
  match relType with
  | .protectedBy | .usesRouteTable => target
  | .hasSg | .inSubnet | .routesTo | .allowsEgress | .allowsIngress | .hasRule => source

def keyOrigin (key : MergeKey Label RelType Field BoltType) : NodeRef Label :=
  originOf key.relType key.source key.target

/-! ## Statement by statement -/

private theorem merges_singleton (query : EdgeQuery) (rows : List Row) :
    merges [(query, rows)] = rows.filterMap query.merge := by
  rw [merges, List.flatMap_singleton]

private theorem merges_append (statements more : List Statement) :
    merges (statements ++ more) = merges statements ++ merges more :=
  List.flatMap_append

private theorem merges_cons_cons (statement next : Statement) (statements : List Statement) :
    merges (statement :: next :: statements) = merges [statement] ++ merges (next :: statements) :=
  merges_append [statement] (next :: statements)

private theorem naclRules_rows (pairs : List (String × NaclRule)) :
    ((naclRuleBatches pairs).flatMap fun batch => batch.rules.map (naclRuleRow batch.networkAclId)) =
      (regrouped pairs).filterMap fun owned => some (naclRuleRow owned.1 owned.2) := by
  rw [naclRuleRows_naclRuleBatches, List.filterMap_eq_map']

/-! ## Filtering by origin -/

section Filter

variable (p : NodeRef Label → Bool) {edges : List Edge}

private theorem filter_filterMap_congr {α β : Type} {l : List α} {m : α → Option β}
    {q : β → Bool} {r : α → Bool}
    (same : ∀ a b, m a = some b → q b = r a) : (l.filterMap m).filter q = (l.filter r).filterMap m := by
  rw [List.filter_filterMap, List.filterMap_filter]
  refine List.filterMap_congr fun a _ => ?_
  rcases found : m a with _ | b
  · simp
  · simp [Option.filter, same a b found]

private theorem filter_rows {query : EdgeQuery} {rowOf : Edge → Option Row}
    (same : ∀ edge row c, rowOf edge = some row → query.merge row = some c →
      keyOrigin c.key = edgeOrigin edge) :
    (merges [(query, edges.filterMap rowOf)]).filter (fun c => p (keyOrigin c.key)) =
      merges [(query, (edges.filter fun edge => p (edgeOrigin edge)).filterMap rowOf)] := by
  simp only [merges_singleton, List.filterMap_filterMap]
  apply filter_filterMap_congr
  intro edge c merged
  obtain ⟨row, kind, found⟩ := Option.bind_eq_some_iff.mp merged
  rw [same edge row c kind found]

private theorem filter_regrouped_rows {V : Type} {as : Edge → Option (String × V)} {label : Label}
    {query : EdgeQuery} {rowOf : String × V → Option Row}
    (owner : ∀ edge owned, as edge = some owned → edgeOrigin edge = ⟨label, owned.1⟩)
    (same : ∀ owned row c, rowOf owned = some row → query.merge row = some c →
      keyOrigin c.key = ⟨label, owned.1⟩) :
    (merges [(query, (regrouped (edges.filterMap as)).filterMap rowOf)]).filter
        (fun c => p (keyOrigin c.key)) =
      merges [(query, (regrouped
        ((edges.filter fun edge => p (edgeOrigin edge)).filterMap as)).filterMap rowOf)] := by
  have grouped : (edges.filter fun edge => p (edgeOrigin edge)).filterMap as =
      (edges.filterMap as).filter fun owned => p ⟨label, owned.1⟩ :=
    (filter_filterMap_congr fun edge owned kind => by rw [owner edge owned kind]).symm
  rw [grouped, ← filter_regrouped fun id => p ⟨label, id⟩]
  simp only [merges_singleton, List.filterMap_filterMap]
  apply filter_filterMap_congr
  intro owned c merged
  obtain ⟨row, kind, found⟩ := Option.bind_eq_some_iff.mp merged
  rw [same owned row c kind found]

private theorem filter_routes (consistent : ∀ edge ∈ edges.filterMap asRoutesTo, edge.Consistent) :
    (merges (routeStatements (edges.filterMap asRoutesTo))).filter (fun c => p (keyOrigin c.key)) =
      merges (routeStatements ((edges.filter fun edge => p (edgeOrigin edge)).filterMap asRoutesTo)) := by
  have kept : ∀ edge ∈ (edges.filter fun edge => p (edgeOrigin edge)).filterMap asRoutesTo,
      edge.Consistent := by
    intro edge member
    obtain ⟨sorted, inEdges, kind⟩ := List.mem_filterMap.mp member
    exact consistent edge (List.mem_filterMap.mpr ⟨sorted, (List.mem_filter.mp inEdges).1, kind⟩)
  have each (resolved : Bool) (query : EdgeQuery) (source : query.source = (.routeTable, .routeTableId))
      (type : query.relType = .routesTo) :
      ∀ edge row c, (asRoutesTo edge).bind (routeRow resolved) = some row →
        query.merge row = some c → keyOrigin c.key = edgeOrigin edge := by
    intro edge row c kind merged
    obtain ⟨route, sorted, built⟩ := Option.bind_eq_some_iff.mp kind
    obtain rfl := asRoutesTo_eq_some sorted
    obtain ⟨ref, found, _, _, rfl⟩ := EdgeQuery.merge_eq_some_iff.mp merged
    rw [source] at found
    rw [keyOrigin, RelMerge.key, type]
    rw [routeRow] at built
    split at built <;> [split_ifs at built; split_ifs at built; skip] <;> cases built <;> cases found <;> rfl
  simp only [routeStatements, splitRouteRows_eq consistent, splitRouteRows_eq kept, List.filterMap_filterMap,
    merges_cons_cons, List.filter_append]
  rw [filter_rows p (each true routesToResolvedUpsert rfl rfl),
    filter_rows p (each false routesToUnresolvedUpsert rfl rfl)]

private theorem rule_row_origin {query : EdgeQuery}
    (source : query.source = (.securityGroup, .securityGroupId))
    (type : query.relType = .allowsEgress ∨ query.relType = .allowsIngress)
    {securityGroupId : String} {row : Row}
    (owner : row.value .securityGroupId = stringProp securityGroupId)
    {c : Merge} (merged : query.merge row = some c) :
    keyOrigin c.key = ⟨.securityGroup, securityGroupId⟩ := by
  obtain ⟨ref, found, _, _, rfl⟩ := EdgeQuery.merge_eq_some_iff.mp merged
  rw [source, Row.ref, owner] at found
  cases found
  rcases type with type | type <;> rw [keyOrigin, RelMerge.key, type] <;> rfl

private theorem filter_sgRules (direction : Direction) {as : Edge → Option (String × SgRule)}
    (owner : ∀ edge owned, as edge = some owned → edgeOrigin edge = ⟨.securityGroup, owned.1⟩) :
    (merges (sgRuleStatements direction (sgRuleBatches (edges.filterMap as)))).filter
        (fun c => p (keyOrigin c.key)) =
      merges (sgRuleStatements direction
        (sgRuleBatches ((edges.filter fun edge => p (edgeOrigin edge)).filterMap as))) := by
  have cidr {owned : String × SgRule} {row : Row} (built : cidrRow owned = some row) :
      row.value .securityGroupId = stringProp owned.1 := by
    rw [cidrRow] at built
    split at built <;> cases built
    rfl
  have reference {resolved : Bool} {owned : String × SgRule} {row : Row}
      (built : sgRefRow resolved owned = some row) :
      row.value .securityGroupId = stringProp owned.1 := by
    rw [sgRefRow] at built
    split at built
    · cases built
    · split_ifs at built
      cases built
      rfl
  cases direction <;>
    simp only [sgRuleStatements, splitSgRuleRows_eq, ownedRules_sgRuleBatches, merges_cons_cons,
      List.filter_append]
  · rw [filter_regrouped_rows p owner fun _ _ _ built => rule_row_origin rfl (Or.inr rfl) (cidr built),
      filter_regrouped_rows p owner fun _ _ _ built => rule_row_origin rfl (Or.inr rfl) (reference built),
      filter_regrouped_rows p owner fun _ _ _ built => rule_row_origin rfl (Or.inr rfl) (reference built)]
  · rw [filter_regrouped_rows p owner fun _ _ _ built => rule_row_origin rfl (Or.inl rfl) (cidr built),
      filter_regrouped_rows p owner fun _ _ _ built => rule_row_origin rfl (Or.inl rfl) (reference built),
      filter_regrouped_rows p owner fun _ _ _ built => rule_row_origin rfl (Or.inl rfl) (reference built)]

/-- A filter on origins can be taken on a batch's edges or on what they write. -/
theorem filter_merges_edgeStatements (consistent : ∀ edge ∈ edges.filterMap asRoutesTo, edge.Consistent) :
    (merges (edgeStatements edges)).filter (fun c => p (keyOrigin c.key)) =
      merges (edgeStatements (edges.filter fun edge => p (edgeOrigin edge))) := by
  have plain {E : Type} {as : Edge → Option E} {query : EdgeQuery} {toRow : E → Row}
      (same : ∀ edge e c, as edge = some e → query.merge (toRow e) = some c →
        keyOrigin c.key = edgeOrigin edge) :
      (merges [(query, (edges.filterMap as).map toRow)]).filter (fun c => p (keyOrigin c.key)) =
        merges [(query, ((edges.filter fun edge => p (edgeOrigin edge)).filterMap as).map toRow)] := by
    rw [List.map_filterMap, List.map_filterMap]
    apply filter_rows
    intro edge row c kind merged
    obtain ⟨e, sorted, rfl⟩ := Option.map_eq_some_iff.mp kind
    exact same edge e c sorted merged
  have hasSg := @plain _ asHasSg hasSgUpsert hasSgRow fun edge e c sorted merged => by
    rw [asHasSg_eq_some sorted]
    cases merged
    rfl
  have inSubnet := @plain _ asInSubnet inSubnetUpsert inSubnetRow fun edge e c sorted merged => by
    rw [asInSubnet_eq_some sorted]
    cases merged
    rfl
  have protectedBy := @plain _ asProtectedBy protectedByUpsert protectedByRow fun edge e c sorted merged => by
    rw [asProtectedBy_eq_some sorted]
    cases merged
    rfl
  have usesRouteTable := @plain _ asUsesRouteTable usesRouteTableUpsert usesRouteTableRow
      fun edge e c sorted merged => by
    rw [asUsesRouteTable_eq_some sorted]
    cases merged
    rfl
  have ingress := @filter_sgRules p edges .ingress asAllowsIngress fun edge owned sorted => by
    rw [asAllowsIngress_eq_some sorted]
    rfl
  have egress := @filter_sgRules p edges .egress asAllowsEgress fun edge owned sorted => by
    rw [asAllowsEgress_eq_some sorted]
    rfl
  have hasRule := @filter_regrouped_rows p edges _ asHasRule .networkAcl hasRuleUpsert
    (fun owned => some (naclRuleRow owned.1 owned.2))
    (fun edge owned sorted => by rw [asHasRule_eq_some sorted]; rfl)
    (fun owned row c built merged => by
      cases built
      cases merged
      rfl)
  simp only [edgeStatements, merges_append, List.filter_append, naclRules_rows]
  rw [hasSg, inSubnet, protectedBy, usesRouteTable, filter_routes p consistent, ingress, egress, hasRule]

end Filter

/-! ## More edges write more -/

private theorem append_subset_append {α : Type} {l l' m m' : List α} (left : l ⊆ l') (right : m ⊆ m') :
    l ++ m ⊆ l' ++ m' :=
  List.append_subset.mpr ⟨List.subset_append_of_subset_left _ left,
    List.subset_append_of_subset_right _ right⟩

section Mono

variable {edges edges' : List Edge} (more : edges ⊆ edges')

include more

private theorem merges_rows_subset (query : EdgeQuery) (rowOf : Edge → Option Row) :
    merges [(query, edges.filterMap rowOf)] ⊆ merges [(query, edges'.filterMap rowOf)] := by
  rw [merges_singleton, merges_singleton]
  exact List.filterMap_subset _ (List.filterMap_subset _ more)

private theorem merges_regrouped_subset {V : Type} (query : EdgeQuery) (as : Edge → Option (String × V))
    (rowOf : String × V → Option Row) :
    merges [(query, (regrouped (edges.filterMap as)).filterMap rowOf)] ⊆
      merges [(query, (regrouped (edges'.filterMap as)).filterMap rowOf)] := by
  rw [merges_singleton, merges_singleton]
  refine List.filterMap_subset _ (List.filterMap_subset _ fun owned member => ?_)
  exact mem_regrouped.mpr (List.filterMap_subset as more (mem_regrouped.mp member))

private theorem merges_sgRules_subset (direction : Direction) (as : Edge → Option (String × SgRule)) :
    merges (sgRuleStatements direction (sgRuleBatches (edges.filterMap as))) ⊆
      merges (sgRuleStatements direction (sgRuleBatches (edges'.filterMap as))) := by
  cases direction <;>
    simp only [sgRuleStatements, splitSgRuleRows_eq, ownedRules_sgRuleBatches, merges_cons_cons] <;>
    exact append_subset_append (merges_regrouped_subset more _ _ _)
      (append_subset_append (merges_regrouped_subset more _ _ _) (merges_regrouped_subset more _ _ _))

private theorem merges_routes_subset (consistent : ∀ edge ∈ edges'.filterMap asRoutesTo, edge.Consistent) :
    merges (routeStatements (edges.filterMap asRoutesTo)) ⊆
      merges (routeStatements (edges'.filterMap asRoutesTo)) := by
  have fewer := fun edge member => consistent edge (List.filterMap_subset asRoutesTo more member)
  simp only [routeStatements, splitRouteRows_eq consistent, splitRouteRows_eq fewer, List.filterMap_filterMap,
    merges_cons_cons]
  exact append_subset_append (merges_rows_subset more _ _) (merges_rows_subset more _ _)

/-- What some edges write is written by more edges as well. -/
theorem merges_edgeStatements_subset (consistent : ∀ edge ∈ edges'.filterMap asRoutesTo, edge.Consistent) :
    merges (edgeStatements edges) ⊆ merges (edgeStatements edges') := by
  simp only [edgeStatements, merges_append, List.map_filterMap, naclRules_rows]
  refine append_subset_append (append_subset_append (append_subset_append (append_subset_append
    (append_subset_append (append_subset_append (append_subset_append ?_ ?_) ?_) ?_) ?_) ?_) ?_) ?_
  · exact merges_rows_subset more _ _
  · exact merges_rows_subset more _ _
  · exact merges_rows_subset more _ _
  · exact merges_rows_subset more _ _
  · exact merges_routes_subset more consistent
  · exact merges_sgRules_subset more .ingress _
  · exact merges_sgRules_subset more .egress _
  · exact merges_regrouped_subset more _ _ _

end Mono

/-! ## Leaving a resource out -/

/-- Two snapshots that differ in one resource only, which the second one cannot map. -/
inductive Excludes (ref : NodeRef Label) : Sdk.Collections → Sdk.Collections → Prop where
  | eni {collections : Sdk.Collections} {before after : List Sdk.NetworkInterface}
      {eni eni' : Sdk.NetworkInterface}
      (named : ∀ id, eni.networkInterfaceId = some id → ref = ⟨.eni, id⟩) (absent : ¬ EniMappable eni') :
      Excludes ref { collections with networkInterfaces := before ++ eni :: after }
        { collections with networkInterfaces := before ++ eni' :: after }
  | securityGroup {collections : Sdk.Collections} {before after : List Sdk.SecurityGroup}
      {sg sg' : Sdk.SecurityGroup}
      (named : ∀ id, sg.groupId = some id → ref = ⟨.securityGroup, id⟩)
      (absent : ¬ SecurityGroupMappable sg') :
      Excludes ref { collections with securityGroups := before ++ sg :: after }
        { collections with securityGroups := before ++ sg' :: after }
  | networkAcl {collections : Sdk.Collections} {before after : List Sdk.NetworkAcl}
      {acl acl' : Sdk.NetworkAcl}
      (named : ∀ id, acl.networkAclId = some id → ref = ⟨.networkAcl, id⟩)
      (absent : ¬ NetworkAclMappable acl') :
      Excludes ref { collections with networkAcls := before ++ acl :: after }
        { collections with networkAcls := before ++ acl' :: after }
  | routeTable {collections : Sdk.Collections} {before after : List Sdk.RouteTable}
      {routeTable routeTable' : Sdk.RouteTable}
      (named : ∀ id, routeTable.routeTableId = some id → ref = ⟨.routeTable, id⟩)
      (absent : ¬ RouteTableMappable routeTable') :
      Excludes ref { collections with routeTables := before ++ routeTable :: after }
        { collections with routeTables := before ++ routeTable' :: after }

section Kept

variable {T R β : Type} {mapOne : T → String → Except MappingError R} {accountId : String}
  {before after : List T}
  {item item' : T}

private theorem kept_excluded (absent : ¬ ∃ record, mapOne item' accountId = .ok record) :
    kept mapOne accountId (before ++ item' :: after) =
      kept mapOne accountId before ++ kept mapOne accountId after := by
  rcases failed : mapOne item' accountId with error | record
  · rw [kept_append, kept_cons_of_error failed]
  · exact absurd ⟨record, failed⟩ absent

private theorem kept_included : kept mapOne accountId (before ++ item :: after) =
    kept mapOne accountId before ++ (kept mapOne accountId [item] ++ kept mapOne accountId after) := by
  rw [kept_append, ← List.singleton_append, kept_append]

private theorem kept_excluded_subset (absent : ¬ ∃ record, mapOne item' accountId = .ok record) :
    kept mapOne accountId (before ++ item' :: after) ⊆ kept mapOne accountId (before ++ item :: after) := by
  rw [kept_excluded absent, kept_included]
  exact List.append_subset.mpr ⟨List.subset_append_left _ _,
    List.subset_append_of_subset_right _ (List.subset_append_right _ _)⟩

/-- What a filter drops of the excluded resource is all that its exclusion drops. -/
private theorem filter_flatMap_excluded (absent : ¬ ∃ record, mapOne item' accountId = .ok record)
    {f : T × R → List β} {q : β → Bool}
    (dropped : ∀ record, mapOne item accountId = .ok record → ∀ b ∈ f (item, record), q b = false) :
    ((kept mapOne accountId (before ++ item :: after)).flatMap f).filter q =
      ((kept mapOne accountId (before ++ item' :: after)).flatMap f).filter q := by
  have nothing : ((kept mapOne accountId [item]).flatMap f).filter q = [] := by
    rw [List.filter_eq_nil_iff]
    intro b member
    obtain ⟨⟨other, record⟩, inKept, made⟩ := List.mem_flatMap.mp member
    obtain ⟨same, mapped⟩ := mem_kept_iff.mp inKept
    obtain rfl := List.mem_singleton.mp same
    rw [dropped record mapped b made]
    exact Bool.false_ne_true
  rw [kept_excluded absent, kept_included]
  simp only [List.flatMap_append, List.filter_append, nothing, List.nil_append]

end Kept

/-! Each resource is the origin of the edges mapped from it. -/

section Pieces

variable {accountId : String} {peerings : List Sdk.VpcPeeringConnection}

private theorem origin_eniGroups (pair : Sdk.NetworkInterface × EniRecord) :
    ∀ edge ∈ (eniGroups pair).map .hasSg, edgeOrigin edge = ⟨.eni, pair.2.id⟩ := by
  rw [eniGroups, List.map_map]
  exact List.forall_mem_map.mpr fun group _ => rfl

private theorem origin_sgRules (pair : Sdk.SecurityGroup × SecurityGroupRecord) :
    ∀ edge ∈ (sgRules accountId pair).map (allowsEdge pair.2.id),
      edgeOrigin edge = ⟨.securityGroup, pair.2.id⟩ := by
  refine List.forall_mem_map.mpr fun rule _ => ?_
  rw [allowsEdge]
  split <;> rfl

private theorem origin_aclSubnets (pair : Sdk.NetworkAcl × NetworkAclRecord) :
    ∀ edge ∈ (aclSubnets pair).map .protectedBy, edgeOrigin edge = ⟨.networkAcl, pair.2.id⟩ := by
  refine List.forall_mem_map.mpr fun edge member => ?_
  obtain ⟨_, _, found⟩ := List.mem_filterMap.mp member
  obtain ⟨_, _, rfl⟩ := Option.map_eq_some_iff.mp found
  rfl

private theorem origin_aclRules (pair : Sdk.NetworkAcl × NetworkAclRecord) :
    ∀ edge ∈ (aclRules pair).map (.hasRule pair.2.id), edgeOrigin edge = ⟨.networkAcl, pair.2.id⟩ :=
  List.forall_mem_map.mpr fun _ _ => rfl

private theorem origin_routeTableSubnets (pair : Sdk.RouteTable × RouteTableRecord) :
    ∀ edge ∈ (routeTableSubnets pair).map .usesRouteTable, edgeOrigin edge = ⟨.routeTable, pair.2.id⟩ := by
  refine List.forall_mem_map.mpr fun edge member => ?_
  obtain ⟨_, _, found⟩ := List.mem_filterMap.mp member
  obtain ⟨_, _, rfl⟩ := Option.map_eq_some_iff.mp found
  rfl

private theorem origin_routeTableRoutes (pair : Sdk.RouteTable × RouteTableRecord) :
    ∀ edge ∈ (routeTableRoutes accountId peerings pair).map .routesTo,
      edgeOrigin edge = ⟨.routeTable, pair.2.id⟩ := by
  refine List.forall_mem_map.mpr fun edge member => ?_
  rw [edgeOrigin, (routeTableRoutes_spec member).1]

end Pieces

section Excludes

variable {ref : NodeRef Label} {first second : Sdk.Collections} (excludes : Excludes ref first second)
  (accountId : String)

private theorem inSubnetEdges_eq (enis : List (Sdk.NetworkInterface × EniRecord)) :
    inSubnetEdges (enis.map Prod.snd) =
      enis.flatMap fun pair => [.inSubnet ⟨pair.2.id, pair.2.subnetId⟩] := by
  rw [inSubnetEdges, List.map_map, ← List.flatMap_pure_eq_map]
  rfl

include excludes

theorem Excludes.peerings : first.vpcPeeringConnections = second.vpcPeeringConnections := by
  cases excludes <;> rfl

/-- Only edges of the excluded resource are missing. -/
theorem Excludes.edges {p : NodeRef Label → Bool} (dropped : p ref = false) :
    ((keptCollections accountId first).edges accountId first.vpcPeeringConnections).filter
        (fun edge => p (edgeOrigin edge)) =
      ((keptCollections accountId second).edges accountId second.vpcPeeringConnections).filter
        fun edge => p (edgeOrigin edge) := by
  have own {edge : Edge} {origin : NodeRef Label} (mapped : edgeOrigin edge = origin) (same : ref = origin) :
      p (edgeOrigin edge) = false := by
    rw [mapped, ← same, dropped]
  cases excludes with
  | @eni collections before after eni eni' named absent =>
    have unmapped := mt (@mapEniNode_maps_iff accountId eni').mp absent
    have same {record : EniRecord} (mapped : mapEniNode eni accountId = .ok record) :=
      named record.id (mapEniNode_ok mapped).1
    simp only [KeptCollections.edges, keptCollections, List.filter_append, inSubnetEdges_eq]
    rw [filter_flatMap_excluded unmapped fun record mapped edge member =>
        own (origin_eniGroups (eni, record) edge member) (same mapped),
      filter_flatMap_excluded unmapped fun record mapped edge member =>
        own (by rw [List.mem_singleton.mp member, edgeOrigin]) (same mapped)]
  | @securityGroup collections before after sg sg' named absent =>
    have unmapped := mt (@mapSecurityGroupNode_maps_iff accountId sg').mp absent
    simp only [KeptCollections.edges, keptCollections, List.filter_append]
    rw [filter_flatMap_excluded unmapped fun record mapped edge member =>
      own (origin_sgRules (sg, record) edge member) (named record.id (mapSecurityGroupNode_ok mapped).1)]
  | @networkAcl collections before after acl acl' named absent =>
    have unmapped := mt (@mapNetworkAclNode_maps_iff accountId acl').mp absent
    have same {record : NetworkAclRecord} (mapped : mapNetworkAclNode acl accountId = .ok record) :=
      named record.id (mapNetworkAclNode_ok mapped).1
    simp only [KeptCollections.edges, keptCollections, List.filter_append]
    rw [filter_flatMap_excluded unmapped fun record mapped edge member =>
        own (origin_aclSubnets (acl, record) edge member) (same mapped),
      filter_flatMap_excluded unmapped fun record mapped edge member =>
        own (origin_aclRules (acl, record) edge member) (same mapped)]
  | @routeTable collections before after routeTable routeTable' named absent =>
    have unmapped := mt (@mapRouteTableNode_maps_iff accountId routeTable').mp absent
    have same {record : RouteTableRecord} (mapped : mapRouteTableNode routeTable accountId = .ok record) :=
      named record.id (mapRouteTableNode_ok mapped).1
    simp only [KeptCollections.edges, keptCollections, List.filter_append]
    rw [filter_flatMap_excluded unmapped fun record mapped edge member =>
        own (origin_routeTableSubnets (routeTable, record) edge member) (same mapped),
      filter_flatMap_excluded unmapped fun record mapped edge member =>
        own (origin_routeTableRoutes (routeTable, record) edge member) (same mapped)]

/-- The second snapshot keeps no more than the first. -/
private theorem Excludes.kept :
    (keptCollections accountId second).enis ⊆ (keptCollections accountId first).enis ∧
      (keptCollections accountId second).securityGroups ⊆ (keptCollections accountId first).securityGroups ∧
      (keptCollections accountId second).networkAcls ⊆ (keptCollections accountId first).networkAcls ∧
      (keptCollections accountId second).routeTables ⊆ (keptCollections accountId first).routeTables := by
  cases excludes with
  | eni named absent =>
    exact ⟨kept_excluded_subset (mt mapEniNode_maps_iff.mp absent), List.Subset.refl _, List.Subset.refl _,
      List.Subset.refl _⟩
  | securityGroup named absent =>
    exact ⟨List.Subset.refl _, kept_excluded_subset (mt (mapSecurityGroupNode_maps_iff).mp absent),
      List.Subset.refl _, List.Subset.refl _⟩
  | networkAcl named absent =>
    exact ⟨List.Subset.refl _, List.Subset.refl _,
      kept_excluded_subset (mt (mapNetworkAclNode_maps_iff).mp absent), List.Subset.refl _⟩
  | routeTable named absent =>
    exact ⟨List.Subset.refl _, List.Subset.refl _, List.Subset.refl _,
      kept_excluded_subset (mt (mapRouteTableNode_maps_iff).mp absent)⟩

private theorem Excludes.edges_subset :
    (keptCollections accountId second).edges accountId second.vpcPeeringConnections ⊆
      (keptCollections accountId first).edges accountId first.vpcPeeringConnections := by
  obtain ⟨enis, securityGroups, networkAcls, routeTables⟩ := excludes.kept accountId
  have grown {α β : Type} {l l' : List α} (f : α → List β) (more : l ⊆ l') : l.flatMap f ⊆ l'.flatMap f := by
    intro b member
    obtain ⟨a, inList, made⟩ := List.mem_flatMap.mp member
    exact List.mem_flatMap.mpr ⟨a, more inList, made⟩
  simp only [KeptCollections.edges, inSubnetEdges_eq, excludes.peerings]
  refine append_subset_append (append_subset_append (append_subset_append ?_ (append_subset_append
    (append_subset_append (append_subset_append ?_ ?_) ?_) ?_)) ?_) ?_
  · exact grown _ enis
  · exact grown _ enis
  · exact grown _ networkAcls
  · exact grown _ routeTables
  · exact grown _ routeTables
  · exact grown _ securityGroups
  · exact grown _ networkAcls

variable {accountId} {batch batch' : GraphBatch} (built : Built accountId first batch)
  (built' : Built accountId second batch')

include built built'

/-- The write misses only relationships of the excluded resource. -/
theorem Excludes.filter_merges {p : NodeRef Label → Bool} (dropped : p ref = false) :
    (batchMerges batch).filter (fun c => p (keyOrigin c.key)) =
      (batchMerges batch').filter fun c => p (keyOrigin c.key) := by
  rw [batchMerges, batchMerges, filter_merges_edgeStatements p built.consistent,
    filter_merges_edgeStatements p built'.consistent, built.edges, built'.edges,
      excludes.edges accountId dropped]

/-- The write adds nothing. -/
theorem Excludes.merges_subset : batchMerges batch' ⊆ batchMerges batch := by
  apply merges_edgeStatements_subset _ built.consistent
  rw [built.edges, built'.edges]
  exact excludes.edges_subset accountId

/-- The records of every other interface are the same. -/
theorem Excludes.filter_enis {id : String} (other : ref ≠ ⟨.eni, id⟩) :
    batch.enis.filter (fun record => record.id = id) = batch'.enis.filter fun record => record.id = id := by
  rw [built.enis, built'.enis]
  cases excludes with
  | @eni collections before after eni eni' named absent =>
    rw [← List.flatMap_pure_eq_map, ← List.flatMap_pure_eq_map]
    apply filter_flatMap_excluded (mt mapEniNode_maps_iff.mp absent)
    intro record mapped written member
    rw [List.mem_singleton.mp member]
    refine decide_eq_false fun clash => other ?_
    rw [named record.id (mapEniNode_ok mapped).1, clash]
  | securityGroup | networkAcl | routeTable => rfl

end Excludes

/-! ## Where relationships start -/

section Sources

variable {accountId : String} {collections : Sdk.Collections} {batch : GraphBatch}
  (built : Built accountId collections batch)

include built

/-- Every origin is a node of the batch. -/
private theorem Built.origin_written :
    ∀ edge ∈ batch.edges, (edgeOrigin edge).id ∈ batchIds batch (edgeOrigin edge).label := by
  -- a resource that was kept has a node of its own
  have owned {T R : Type} {kept : List (T × R)} {id : R → String} {label : Label}
      (ids : batchIds batch label = (kept.map Prod.snd).map id) {edges : T × R → List Edge}
      (origin : ∀ pair, ∀ edge ∈ edges pair, edgeOrigin edge = ⟨label, id pair.2⟩) :
      ∀ edge ∈ kept.flatMap edges, (edgeOrigin edge).id ∈ batchIds batch (edgeOrigin edge).label := by
    intro edge member
    obtain ⟨pair, inKept, made⟩ := List.mem_flatMap.mp member
    rw [origin pair edge made, ids]
    exact List.mem_map_of_mem (List.mem_map_of_mem inKept)
  have enis : batchIds batch .eni = _ := congrArg (List.map EniRecord.id) built.enis
  have groups : batchIds batch .securityGroup = _ := congrArg (List.map SecurityGroupRecord.id) built.securityGroups
  have acls : batchIds batch .networkAcl = _ := congrArg (List.map NetworkAclRecord.id) built.networkAcls
  have tables : batchIds batch .routeTable = _ := congrArg (List.map RouteTableRecord.id) built.routeTables
  rw [built.edges, KeptCollections.edges, inSubnetEdges_eq]
  simp only [List.forall_mem_append]
  refine ⟨⟨⟨owned enis origin_eniGroups, ⟨⟨owned enis ?_, owned acls origin_aclSubnets⟩,
    owned tables origin_routeTableSubnets⟩, owned tables origin_routeTableRoutes⟩, owned groups origin_sgRules⟩,
    owned acls origin_aclRules⟩
  intro pair edge member
  rw [List.mem_singleton.mp member, edgeOrigin]

/-- Every subnet an edge refers to is a node of the batch. -/
private theorem Built.subnet_written :
    ∀ edge ∈ batch.edges, ∀ ref ∈ edgeRefs edge, ref.label = .subnet → ref.id ∈ batchIds batch .subnet := by
  have apart {refs : List (NodeRef Label)} (others : ∀ ref ∈ refs, ref.label ≠ .subnet) :
      ∀ ref ∈ refs, ref.label = .subnet → ref.id ∈ batchIds batch .subnet :=
    fun ref member subnet => absurd subnet (others ref member)
  have ofRule (id : String) (rule : SgRule) :
      ∀ ref ∈ ⟨.securityGroup, id⟩ :: ruleRefs rule, ref.label ≠ .subnet := by
    rw [ruleRefs]
    split
    · simp
    · split <;> simp
  rw [built.edges, KeptCollections.edges]
  simp only [List.forall_mem_append, List.forall_mem_flatMap, List.forall_mem_map, inSubnetEdges]
  refine ⟨⟨⟨fun _ _ _ _ => apart (by simp [edgeRefs]), ⟨⟨?_, ?_⟩, ?_⟩, ?_⟩, ?_⟩,
    fun _ _ _ _ => apart (by simp [edgeRefs])⟩
  · intro pair member
    simpa [edgeRefs] using subnet_of_eni built member
  · intro pair member edge associated
    simpa [edgeRefs] using (subnet_of_acl built member associated).2
  · intro pair member edge associated
    simpa [edgeRefs] using (subnet_of_routeTable built member associated).2
  · intro pair _ edge _
    apply apart
    rw [edgeRefs]
    split <;> simp
  · intro pair _ rule _
    apply apart
    rw [allowsEdge]
    split <;> exact ofRule _ _

/-- The relationships of a batch start at its own nodes. -/
theorem Built.source_written : ∀ c ∈ batchMerges batch, c.source.id ∈ batchIds batch c.source.label := by
  intro c written
  obtain ⟨source, _⟩ := (emitted_merges (allSent_edgeStatements _) c written).labels
  -- some edge refers to where the relationship starts
  have referred : ∃ edge ∈ batch.edges, c.source ∈ edgeRefs edge := by
    obtain ⟨statement, inStatements, inRows⟩ := List.mem_flatMap.mp written
    obtain ⟨row, inRow, merged⟩ := List.mem_filterMap.mp inRows
    obtain ⟨_, merged', edge, member, refers, _⟩ := row_refs built.consistent statement inStatements row inRow
    cases merged.symm.trans merged'
    exact ⟨edge, member, refers⟩
  by_cases resource : keyOrigin c.key = c.source
  · have filtered : c ∈ merges (edgeStatements (batch.edges.filter fun edge => edgeOrigin edge = c.source)) := by
      rw [← filter_merges_edgeStatements (fun ref => decide (ref = c.source)) built.consistent]
      exact List.mem_filter.mpr ⟨written, decide_eq_true resource⟩
    by_contra absent
    have none : (batch.edges.filter fun edge => edgeOrigin edge = c.source) = [] := by
      rw [List.filter_eq_nil_iff]
      intro edge member same
      apply absent
      rw [← of_decide_eq_true same]
      exact built.origin_written edge member
    rw [none] at filtered
    cases filtered
  · have subnet : c.source.label = .subnet := by
      rw [source]
      rw [keyOrigin, RelMerge.key] at resource
      rcases type : c.relType <;> rw [type] at resource <;> first | rfl | exact absurd rfl resource
    obtain ⟨edge, member, refers⟩ := referred
    rw [subnet]
    exact built.subnet_written edge member c.source refers subnet

end Sources

end NetHound.Ingest
