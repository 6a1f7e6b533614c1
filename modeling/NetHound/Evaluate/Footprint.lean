import NetHound.Evaluate.Assembly

/-! # The footprint of an interface

The rows of an interface are read from the relationships that start at the nodes it visits: itself,
its subnets and groups, and the network ACLs and route tables of its subnets. Relationships that
start elsewhere can be left out (`groupsOf_restrict` and the lemmas after it), and the order of
relationships is the only thing rows take from a store beyond them (`eniRow_perm`).
-/

namespace NetHound.Evaluate

open Domain Graph Cypher

abbrev Rel := Relationship Label RelType Field BoltType

/-- The nodes an interface's rows are read from. -/
inductive Visits (graph : Neo4jGraph) (eniId : String) : NodeRef Label → Prop where
  | eni : Visits graph eniId ⟨.eni, eniId⟩
  | subnet {subnetId : String} (subnet : subnetId ∈ subnetsOf graph eniId) :
      Visits graph eniId ⟨.subnet, subnetId⟩
  | securityGroup {securityGroupId : String} (group : securityGroupId ∈ securityGroupsOf graph eniId) :
      Visits graph eniId ⟨.securityGroup, securityGroupId⟩
  | networkAcl {subnetId networkAclId : String} (subnet : subnetId ∈ subnetsOf graph eniId)
      (protects : networkAclId ∈ targets graph .protectedBy ⟨.subnet, subnetId⟩ .networkAcl) :
      Visits graph eniId ⟨.networkAcl, networkAclId⟩
  | routeTable {subnetId routeTableId : String} (subnet : subnetId ∈ subnetsOf graph eniId)
      (used : routeTableId ∈ targets graph .usesRouteTable ⟨.subnet, subnetId⟩ .routeTable) :
      Visits graph eniId ⟨.routeTable, routeTableId⟩

/-- No other interface is visited. -/
theorem Visits.id_of_eni {graph : Neo4jGraph} {eniId : String} {ref : NodeRef Label}
    (visited : Visits graph eniId ref) (label : ref.label = .eni) : ref.id = eniId := by
  cases visited with
  | eni => rfl
  | subnet | securityGroup | networkAcl | routeTable => cases label

theorem mem_targets_iff {graph : Neo4jGraph} {relType : RelType} {source : NodeRef Label} {label : Label}
    {id : String} : id ∈ targets graph relType source label ↔
      ∃ r ∈ graph.relationships, r.relType = relType ∧ r.source = source ∧ r.target = ⟨label, id⟩ := by
  rw [targets, List.mem_filterMap]
  refine exists_congr fun r => and_congr_right fun _ => ?_
  constructor
  · intro found
    split_ifs at found with holds
    obtain ⟨type, source, labelled⟩ := holds
    cases found
    exact ⟨type, source, by rw [← labelled]⟩
  · rintro ⟨type, source, target⟩
    rw [if_pos ⟨type, source, by rw [target]⟩, target]

theorem routeTablesOf_ne_nil (graph : Neo4jGraph) (subnetId : String) :
    routeTablesOf graph subnetId ≠ [] := by
  rw [routeTablesOf]
  split
  · exact List.cons_ne_nil _ _
  · next nonempty => exact fun empty => nonempty (List.map_eq_nil_iff.mp empty)

theorem groupsOf_ne_nil (graph : Neo4jGraph) (eniId : String) : groupsOf graph eniId ≠ [] := by
  rw [groupsOf]
  split
  · exact List.cons_ne_nil _ _
  · next subnetIds inSubnets =>
    obtain ⟨subnetId, rest, same⟩ := List.exists_cons_of_ne_nil inSubnets
    obtain ⟨routeTableId, more, routed⟩ := List.exists_cons_of_ne_nil (routeTablesOf_ne_nil graph subnetId)
    have member : routeTableId ∈ ((subnetsOf graph eniId).flatMap (routeTablesOf graph)).dedup := by
      rw [List.mem_dedup, same, List.flatMap_cons, routed]
      exact List.mem_append_left _ List.mem_cons_self
    exact List.ne_nil_of_mem member

theorem some_mem_routeTablesOf_iff {graph : Neo4jGraph} {subnetId routeTableId : String} :
    some routeTableId ∈ routeTablesOf graph subnetId ↔
      routeTableId ∈ targets graph .usesRouteTable ⟨.subnet, subnetId⟩ .routeTable := by
  rw [routeTablesOf]
  split
  · next empty => simp [empty]
  · simp

theorem mem_groupsOf {graph : Neo4jGraph} {eniId subnetId : String} {routeTableId : Option String}
    (subnet : subnetId ∈ subnetsOf graph eniId) (used : routeTableId ∈ routeTablesOf graph subnetId) :
    routeTableId ∈ groupsOf graph eniId := by
  rw [groupsOf]
  split
  · next empty =>
    rw [empty] at subnet
    cases subnet
  · exact List.mem_dedup.mpr (List.mem_flatMap.mpr ⟨subnetId, subnet, used⟩)

theorem exists_of_some_mem_groupsOf {graph : Neo4jGraph} {eniId routeTableId : String}
    (group : some routeTableId ∈ groupsOf graph eniId) : ∃ subnetId ∈ subnetsOf graph eniId,
      routeTableId ∈ targets graph .usesRouteTable ⟨.subnet, subnetId⟩ .routeTable := by
  rw [groupsOf] at group
  split at group
  · cases List.mem_singleton.mp group
  · obtain ⟨subnetId, subnet, used⟩ := List.mem_flatMap.mp (List.mem_dedup.mp group)
    exact ⟨subnetId, subnet, some_mem_routeTablesOf_iff.mp used⟩

/-- Two nodes carry the properties a row reads. -/
structure SameNode (node node' : Node Label Field BoltType) : Prop where
  vpcId : node.props .vpcId = node'.props .vpcId
  subnetId : node.props .subnetId = node'.props .subnetId
  privateIp : node.props .privateIp = node'.props .privateIp

/-- The rows `ENI_QUERY` yields for one interface. -/
def rowsOf (graph : Neo4jGraph) (eniId : String) : List EniRow :=
  (eniRows graph).filter fun row => row.eniId = eniId

/-- An interface has one row for each route table it is grouped by. -/
theorem rowsOf_eq {graph : Neo4jGraph} {node : Node Label Field BoltType} {eniId : String}
    (member : node ∈ graph.nodesAt ⟨.eni, eniId⟩) :
    rowsOf graph eniId = (groupsOf graph eniId).map (eniRow graph node) := by
  obtain ⟨inNodes, atRef⟩ := PropertyGraph.mem_nodesAt.mp member
  have single : graph.nodesAt ⟨.eni, eniId⟩ = [node] := by rw [← atRef, PropertyGraph.nodesAt_ref inNodes]
  have own (other : Node Label Field BoltType) :
      ((groupsOf graph other.ref.id).map (eniRow graph other)).filter (fun row => row.eniId = eniId) =
        if other.ref.id = eniId then (groupsOf graph other.ref.id).map (eniRow graph other) else [] := by
    split <;> next same => simp [eniRow, same]
  have split : rowsOf graph eniId =
      (graph.nodesAt ⟨.eni, eniId⟩).flatMap fun node =>
        (groupsOf graph node.ref.id).map (eniRow graph node) := by
    have byRef (other : Node Label Field BoltType) :
        other.ref = ⟨.eni, eniId⟩ ↔ other.ref.id = eniId ∧ other.ref.label = .eni := by
      rcases other.ref with ⟨label, id⟩
      rw [NodeRef.mk.injEq, and_comm]
    rw [rowsOf, eniRows, List.filter_flatMap, PropertyGraph.nodesAt]
    simp only [own, byRef, Bool.decide_and, ← List.filter_filter]
    induction graph.nodes.filter fun node => node.ref.label = .eni with
    | nil => rfl
    | cons other nodes ih =>
      rw [List.flatMap_cons, ih, List.filter_cons]
      by_cases same : other.ref.id = eniId
      · rw [if_pos same, if_pos (decide_eq_true same), List.flatMap_cons]
      · rw [if_neg same, if_neg (by simpa using same), List.nil_append]
  rw [split, single, List.flatMap_singleton, atRef]

/-- A row stands for a node. -/
theorem exists_node_of_mem_rowsOf {graph : Neo4jGraph} {eniId : String} {row : EniRow}
    (member : row ∈ rowsOf graph eniId) : ∃ node, node ∈ graph.nodesAt ⟨.eni, eniId⟩ := by
  obtain ⟨inRows, ofEni⟩ := List.mem_filter.mp member
  obtain ⟨node, inNodes, made⟩ := List.mem_flatMap.mp inRows
  obtain ⟨inGraph, label⟩ := List.mem_filter.mp inNodes
  obtain ⟨_, _, rfl⟩ := List.mem_map.mp made
  refine ⟨node, PropertyGraph.mem_nodesAt.mpr ⟨inGraph, ?_⟩⟩
  rw [← of_decide_eq_true label, ← of_decide_eq_true ofEni]
  rfl

/-- The node properties an endpoint carries. -/
theorem eniFromRow_props {row : EniRow} {eni : EniNode} (read : eniFromRow row = .ok eni) :
    row.vpcId = stringProp eni.vpcId ∧ row.subnetId = stringProp eni.subnetId ∧
      row.privateIp = stringProp eni.privateIp := by
  have string {value : Option BoltType} {text : String} (got : getString value = .ok text) :
      value = stringProp text := by
    unfold getString at got
    split at got
    · cases got
      rfl
    · cases got
  have parts := eniFromRow_eq_ok_iff.mp read
  exact ⟨string parts.vpcId, string parts.subnetId, string parts.privateIp⟩

/-- The endpoints of an interface are read from its rows. -/
theorem mem_fetchEnis_iff {graph : Neo4jGraph} {enis : List EniNode} (fetched : fetchEnis graph = .ok enis)
    {eni : EniNode} : eni ∈ enis ↔ ∃ row ∈ rowsOf graph eni.id, eniFromRow row = .ok eni := by
  constructor
  · intro member
    obtain ⟨row, inRows, read⟩ := List.exists_of_mem_mapM_ok fetched member
    exact ⟨row, List.mem_filter.mpr ⟨inRows, decide_eq_true (eniFromRow_eq_ok_iff.mp read).id.symm⟩, read⟩
  · rintro ⟨row, member, read⟩
    obtain ⟨eni', inEnis, read'⟩ := List.exists_of_mapM_eq_ok fetched (List.mem_filter.mp member).1
    obtain rfl : eni = eni' := Except.ok.inj (read.symm.trans read')
    exact inEnis

/-! ## Leaving out what is not visited -/

section Restrict

variable {p : Rel → Bool} {graph : Neo4jGraph} {eniId : String}

/-- A search that only finds what a filter keeps. -/
private theorem filterMap_filter_of_kept {α β : Type*} {q : α → Bool} {f : α → Option β} {l : List α}
    (kept : ∀ a ∈ l, (f a).isSome = true → q a = true) : (l.filter q).filterMap f = l.filterMap f := by
  rw [List.filterMap_filter]
  refine List.filterMap_congr fun a member => ?_
  split
  · rfl
  · next dropped =>
    rcases found : f a with _ | b
    · rfl
    · exact absurd (kept a member (by rw [found]; rfl)) dropped

private theorem filter_filter_of_kept {α : Type*} {q f : α → Bool} {l : List α}
    (kept : ∀ a ∈ l, f a = true → q a = true) : (l.filter q).filter f = l.filter f := by
  rw [List.filter_filter]
  refine List.filter_congr fun a member => ?_
  rcases found : f a with _ | _
  · rfl
  · rw [kept a member found]
    rfl

theorem targets_restrict {relType : RelType} {source : NodeRef Label} {label : Label}
    (kept : ∀ r ∈ graph.relationships, r.relType = relType → r.source = source → p r = true) :
    targets (graph.restrict p) relType source label = targets graph relType source label := by
  apply filterMap_filter_of_kept
  intro r member found
  split_ifs at found with holds
  · exact kept r member holds.1 holds.2.1
  · cases found

/-- Every relationship of the footprint satisfies `p`, the rules of its groups aside. -/
def Keeps (p : Rel → Bool) (graph : Neo4jGraph) (eniId : String) : Prop :=
  ∀ r ∈ graph.relationships, r.source.label ≠ .securityGroup →
    Visits (graph.restrict p) eniId r.source → p r = true

variable (keeps : Keeps p graph eniId)

include keeps

private theorem targets_of_visits {relType : RelType} {source : NodeRef Label} {label : Label}
    (ruleless : source.label ≠ .securityGroup) (visited : Visits (graph.restrict p) eniId source) :
    targets (graph.restrict p) relType source label = targets graph relType source label := by
  apply targets_restrict
  rintro r member _ rfl
  exact keeps r member ruleless visited

theorem subnetsOf_restrict : subnetsOf (graph.restrict p) eniId = subnetsOf graph eniId :=
  targets_of_visits keeps Label.noConfusion .eni

theorem securityGroupsOf_restrict :
    securityGroupsOf (graph.restrict p) eniId = securityGroupsOf graph eniId := by
  rw [securityGroupsOf, securityGroupsOf, targets_of_visits keeps Label.noConfusion .eni]

private theorem subnet_visited {subnetId : String} (subnet : subnetId ∈ subnetsOf graph eniId) :
    Visits (graph.restrict p) eniId ⟨.subnet, subnetId⟩ := by
  rw [← subnetsOf_restrict keeps] at subnet
  exact .subnet subnet

private theorem routeTablesOf_restrict {subnetId : String} (subnet : subnetId ∈ subnetsOf graph eniId) :
    routeTablesOf (graph.restrict p) subnetId = routeTablesOf graph subnetId := by
  rw [routeTablesOf, routeTablesOf, targets_of_visits keeps Label.noConfusion (subnet_visited keeps subnet)]

theorem groupsOf_restrict : groupsOf (graph.restrict p) eniId = groupsOf graph eniId := by
  rw [groupsOf, groupsOf, subnetsOf_restrict keeps]
  split
  · rfl
  · congr 1
    exact List.flatMap_congr fun subnetId member => routeTablesOf_restrict keeps member

theorem naclsOf_restrict (routeTableId : Option String) :
    naclsOf (graph.restrict p) eniId routeTableId = naclsOf graph eniId routeTableId := by
  rw [naclsOf, naclsOf, subnetsOf_restrict keeps]
  have same : ((subnetsOf graph eniId).filter fun subnetId =>
      routeTableId ∈ routeTablesOf (graph.restrict p) subnetId) =
      (subnetsOf graph eniId).filter fun subnetId => routeTableId ∈ routeTablesOf graph subnetId :=
    List.filter_congr fun subnetId member => by rw [routeTablesOf_restrict keeps member]
  rw [same]
  apply List.flatMap_congr
  intro subnetId member
  exact targets_of_visits keeps Label.noConfusion (subnet_visited keeps (List.mem_filter.mp member).1)

theorem naclRulesOf_restrict (routeTableId : Option String) :
    naclRulesOf (graph.restrict p) (naclsOf graph eniId routeTableId) =
      naclRulesOf graph (naclsOf graph eniId routeTableId) := by
  rw [naclRulesOf, naclRulesOf]
  congr 1
  apply filter_filter_of_kept
  intro r member found
  obtain ⟨type, label, _, owner⟩ := of_decide_eq_true found
  obtain ⟨subnetId, inRow, protects⟩ := List.mem_flatMap.mp owner
  have subnet := (List.mem_filter.mp inRow).1
  rw [← targets_of_visits keeps Label.noConfusion (subnet_visited keeps subnet)] at protects
  rw [← subnetsOf_restrict keeps] at subnet
  apply keeps r member (by rw [label]; decide)
  have source : r.source = ⟨.networkAcl, r.source.id⟩ := by rw [← label]
  rw [source]
  exact .networkAcl subnet protects

omit keeps in
theorem sgRulesOf_restrict {relType : RelType} {securityGroupIds : List String}
    (kept : ∀ r ∈ graph.relationships, r.relType = relType → r.source.label = .securityGroup →
      r.source.id ∈ securityGroupIds → p r = true) :
    sgRulesOf (graph.restrict p) relType securityGroupIds = sgRulesOf graph relType securityGroupIds := by
  rw [sgRulesOf, sgRulesOf]
  congr 1
  apply filter_filter_of_kept
  intro r member found
  obtain ⟨type, label, owner⟩ := of_decide_eq_true found
  exact kept r member type label owner

omit keeps in
theorem resolvedTargets_restrict {routeTableId : String}
    (kept : ∀ r ∈ graph.relationships, r.relType = .routesTo → r.source = ⟨.routeTable, routeTableId⟩ →
      r.props .resolved = some (.boolean true) → p r = true) :
    resolvedTargets (graph.restrict p) routeTableId = resolvedTargets graph routeTableId := by
  rw [resolvedTargets, resolvedTargets]
  congr 1
  apply filterMap_filter_of_kept
  intro r member found
  split_ifs at found with holds
  · exact kept r member holds.1 holds.2.1 holds.2.2.2
  · cases found

include keeps in
/-- The targets of a route table the interface uses. -/
theorem resolvedTargets_restrict_of_used {routeTableId : String}
    (used : some routeTableId ∈ groupsOf graph eniId) :
    resolvedTargets (graph.restrict p) routeTableId = resolvedTargets graph routeTableId := by
  rw [← groupsOf_restrict keeps] at used
  obtain ⟨subnetId, subnet, uses⟩ := exists_of_some_mem_groupsOf used
  apply resolvedTargets_restrict
  intro r member _ source _
  apply keeps r member
  · rw [source]
    exact Label.noConfusion
  · rw [source]
    exact .routeTable subnet uses

end Restrict

/-! ## Reordering relationships -/

section Perm

variable {graph graph' : Neo4jGraph} (reordered : graph.relationships.Perm graph'.relationships)

include reordered

theorem targets_perm (relType : RelType) (source : NodeRef Label) (label : Label) :
    (targets graph relType source label).Perm (targets graph' relType source label) :=
  reordered.filterMap _

theorem securityGroupsOf_perm (eniId : String) :
    (securityGroupsOf graph eniId).Perm (securityGroupsOf graph' eniId) :=
  (targets_perm reordered _ _ _).dedup

theorem subnetsOf_perm (eniId : String) : (subnetsOf graph eniId).Perm (subnetsOf graph' eniId) :=
  targets_perm reordered _ _ _

private theorem routeTablesOf_perm (subnetId : String) :
    (routeTablesOf graph subnetId).Perm (routeTablesOf graph' subnetId) := by
  have used := targets_perm reordered .usesRouteTable ⟨.subnet, subnetId⟩ .routeTable
  rw [routeTablesOf, routeTablesOf]
  split
  · next empty =>
    rw [empty] at used
    rw [used.symm.eq_nil]
  · next nonempty =>
    split
    · next empty' =>
      rw [empty'] at used
      exact absurd used.eq_nil nonempty
    · exact used.map some

theorem groupsOf_perm (eniId : String) : (groupsOf graph eniId).Perm (groupsOf graph' eniId) := by
  have subnets := subnetsOf_perm reordered eniId
  rw [groupsOf, groupsOf]
  split
  · next empty =>
    rw [empty] at subnets
    rw [subnets.symm.eq_nil]
  · next nonempty =>
    split
    · next empty' =>
      rw [empty'] at subnets
      exact absurd subnets.eq_nil nonempty
    · exact (subnets.flatMap fun subnetId _ => routeTablesOf_perm reordered subnetId).dedup

theorem naclsOf_perm (eniId : String) (routeTableId : Option String) :
    (naclsOf graph eniId routeTableId).Perm (naclsOf graph' eniId routeTableId) := by
  have used (subnetId : String) : routeTableId ∈ routeTablesOf graph subnetId ↔
      routeTableId ∈ routeTablesOf graph' subnetId := (routeTablesOf_perm reordered subnetId).mem_iff
  rw [naclsOf, naclsOf]
  simp only [used]
  exact ((subnetsOf_perm reordered eniId).filter _).flatMap fun subnetId _ => targets_perm reordered _ _ _

theorem sgRulesOf_perm (relType : RelType) {securityGroupIds securityGroupIds' : List String}
    (same : securityGroupIds.Perm securityGroupIds') :
    (sgRulesOf graph relType securityGroupIds).Perm (sgRulesOf graph' relType securityGroupIds') := by
  rw [sgRulesOf, sgRulesOf]
  simp only [same.mem_iff]
  exact (reordered.filter _).map _

theorem naclRulesOf_perm {networkAclIds networkAclIds' : List String}
    (same : networkAclIds.Perm networkAclIds') :
    (naclRulesOf graph networkAclIds).Perm (naclRulesOf graph' networkAclIds') := by
  rw [naclRulesOf, naclRulesOf]
  simp only [same.mem_iff]
  exact (reordered.filter _).map _

theorem resolvedTargets_perm (routeTableId : String) :
    (resolvedTargets graph routeTableId).Perm (resolvedTargets graph' routeTableId) :=
  (reordered.filterMap _).dedup

theorem Visits.reorder {eniId : String} {ref : NodeRef Label} (visited : Visits graph eniId ref) :
    Visits graph' eniId ref := by
  cases visited with
  | eni => exact .eni
  | subnet subnet => exact .subnet ((subnetsOf_perm reordered eniId).mem_iff.mp subnet)
  | securityGroup group => exact .securityGroup ((securityGroupsOf_perm reordered eniId).mem_iff.mp group)
  | networkAcl subnet protects =>
    exact .networkAcl ((subnetsOf_perm reordered eniId).mem_iff.mp subnet)
      ((targets_perm reordered _ _ _).mem_iff.mp protects)
  | routeTable subnet used =>
    exact .routeTable ((subnetsOf_perm reordered eniId).mem_iff.mp subnet)
      ((targets_perm reordered _ _ _).mem_iff.mp used)

end Perm

/-! ## What only relationships are read from -/

section Same

variable {graph graph' : Neo4jGraph} (same : graph.relationships = graph'.relationships)

include same

private theorem targets_of_same (relType : RelType) (source : NodeRef Label) (label : Label) :
    targets graph relType source label = targets graph' relType source label := by
  rw [targets, targets, same]

private theorem routeTablesOf_of_same : routeTablesOf graph = routeTablesOf graph' := by
  funext subnetId
  rw [routeTablesOf, routeTablesOf, targets_of_same same]

private theorem subnetsOf_of_same (eniId : String) : subnetsOf graph eniId = subnetsOf graph' eniId :=
  targets_of_same same _ _ _

theorem groupsOf_of_same (eniId : String) : groupsOf graph eniId = groupsOf graph' eniId := by
  rw [groupsOf, groupsOf, subnetsOf_of_same same, routeTablesOf_of_same same]

theorem securityGroupsOf_of_same (eniId : String) :
    securityGroupsOf graph eniId = securityGroupsOf graph' eniId := by
  rw [securityGroupsOf, securityGroupsOf, targets_of_same same]

theorem naclsOf_of_same (eniId : String) (routeTableId : Option String) :
    naclsOf graph eniId routeTableId = naclsOf graph' eniId routeTableId := by
  simp only [naclsOf, subnetsOf_of_same same, routeTablesOf_of_same same, targets_of_same same]

theorem naclRulesOf_of_same (networkAclIds : List String) :
    naclRulesOf graph networkAclIds = naclRulesOf graph' networkAclIds := by
  rw [naclRulesOf, naclRulesOf, same]

theorem sgRulesOf_of_same (relType : RelType) (securityGroupIds : List String) :
    sgRulesOf graph relType securityGroupIds = sgRulesOf graph' relType securityGroupIds := by
  rw [sgRulesOf, sgRulesOf, same]

theorem resolvedTargets_of_same (routeTableId : String) :
    resolvedTargets graph routeTableId = resolvedTargets graph' routeTableId := by
  rw [resolvedTargets, resolvedTargets, same]

end Same

/-! ## Adding relationships -/

section Subset

variable {graph graph' : Neo4jGraph} (more : graph.relationships ⊆ graph'.relationships)

include more

theorem targets_subset (relType : RelType) (source : NodeRef Label) (label : Label) :
    targets graph relType source label ⊆ targets graph' relType source label := by
  intro id member
  obtain ⟨r, present, found⟩ := mem_targets_iff.mp member
  exact mem_targets_iff.mpr ⟨r, more present, found⟩

theorem Visits.subset {eniId : String} {ref : NodeRef Label} (visited : Visits graph eniId ref) :
    Visits graph' eniId ref := by
  cases visited with
  | eni => exact .eni
  | subnet subnet => exact .subnet (targets_subset more _ _ _ subnet)
  | securityGroup group =>
    exact .securityGroup (List.mem_dedup.mpr (targets_subset more _ _ _ (List.mem_dedup.mp group)))
  | networkAcl subnet protects =>
    exact .networkAcl (targets_subset more _ _ _ subnet) (targets_subset more _ _ _ protects)
  | routeTable subnet used =>
    exact .routeTable (targets_subset more _ _ _ subnet) (targets_subset more _ _ _ used)

end Subset

end NetHound.Evaluate
