import NetHound.Cypher.Frame
import NetHound.Evaluate.Footprint

/-! # Reading what was left alone

Candidates for two interfaces are read from the nodes these visit, and from the relationships that start there.
So they are the same candidates, with the same rules and routes, in every graph that agrees on those nodes.
-/

namespace NetHound.Evaluate

open Domain Graph Cypher

/-- An interface has the same rows in two graphs, and so do the route tables it uses. -/
structure ReadsAlike (graph graph' : Neo4jGraph) (eniId : String) : Prop where
  rows : rowsOf graph eniId = rowsOf graph' eniId
  groups : groupsOf graph eniId = groupsOf graph' eniId
  targets : ∀ routeTableId, some routeTableId ∈ groupsOf graph eniId →
    fetchRouteTableTargets graph routeTableId = fetchRouteTableTargets graph' routeTableId

theorem ReadsAlike.symm {graph graph' : Neo4jGraph} {eniId : String} (alike : ReadsAlike graph graph' eniId) :
    ReadsAlike graph' graph eniId where
  rows := alike.rows.symm
  groups := alike.groups.symm
  targets routeTableId used := (alike.targets routeTableId (alike.groups ▸ used)).symm

section Agree

variable {own : NodeRef Label → Bool} {graph graph' : Neo4jGraph} {eniId : String}
  (visited : ∀ ref, Visits graph eniId ref → own ref = true)

include visited

private theorem keeps_own : Keeps (fun r => own r.source) graph eniId := by
  intro r _ _ visits
  exact visited r.source (visits.subset fun _ member => (List.mem_filter.mp member).1)

variable (same : (graph.restrict fun r => own r.source).relationships =
    (graph'.restrict fun r => own r.source).relationships)

include same

/-- The other graph shows no other footprint. -/
private theorem keeps_own' : Keeps (fun r => own r.source) graph' eniId := by
  intro r _ _ visits
  have fewer : (graph'.restrict fun r => own r.source).relationships ⊆
      (graph.restrict fun r => own r.source).relationships := same ▸ List.Subset.refl _
  exact visited r.source ((visits.subset fewer).subset fun _ member => (List.mem_filter.mp member).1)

private theorem groupsOf_agree : groupsOf graph eniId = groupsOf graph' eniId := by
  rw [← groupsOf_restrict (keeps_own visited), groupsOf_of_same same,
    groupsOf_restrict (keeps_own' visited same)]

private theorem securityGroupsOf_agree : securityGroupsOf graph eniId = securityGroupsOf graph' eniId := by
  rw [← securityGroupsOf_restrict (keeps_own visited), securityGroupsOf_of_same same,
    securityGroupsOf_restrict (keeps_own' visited same)]

private theorem sgRulesOf_agree (relType : RelType) :
    sgRulesOf graph relType (securityGroupsOf graph eniId) =
      sgRulesOf graph' relType (securityGroupsOf graph' eniId) := by
  have kept (r : Rel) (label : r.source.label = .securityGroup)
      (group : r.source.id ∈ securityGroupsOf graph eniId) : own r.source = true := by
    have visits : Visits graph eniId ⟨.securityGroup, r.source.id⟩ := .securityGroup group
    rw [← label] at visits
    exact visited r.source visits
  rw [← securityGroupsOf_agree visited same, ← sgRulesOf_restrict fun r _ _ label group => kept r label group,
    sgRulesOf_of_same same, sgRulesOf_restrict fun r _ _ label group => kept r label group]

private theorem naclRulesOf_agree (routeTableId : Option String) :
    naclRulesOf graph (naclsOf graph eniId routeTableId) = naclRulesOf graph' (naclsOf graph' eniId routeTableId) := by
  have nacls : naclsOf graph eniId routeTableId = naclsOf graph' eniId routeTableId := by
    rw [← naclsOf_restrict (keeps_own visited), naclsOf_of_same same,
      naclsOf_restrict (keeps_own' visited same)]
  rw [← naclRulesOf_restrict (keeps_own visited), naclRulesOf_of_same same, nacls,
    naclRulesOf_restrict (keeps_own' visited same)]

private theorem eniRow_agree {node : Node Label Field BoltType} (ofEni : node.ref.id = eniId)
    (routeTableId : Option String) : eniRow graph node routeTableId = eniRow graph' node routeTableId := by
  subst ofEni
  have egress := sgRulesOf_agree visited same .allowsEgress
  have ingress := sgRulesOf_agree visited same .allowsIngress
  have nacl := naclRulesOf_agree visited same routeTableId
  rw [eniRow, eniRow, egress, ingress, nacl, securityGroupsOf_agree visited same]

variable (sameNodes : graph.nodesAt ⟨.eni, eniId⟩ = graph'.nodesAt ⟨.eni, eniId⟩)

include sameNodes

private theorem rowsOf_agree : rowsOf graph eniId = rowsOf graph' eniId := by
  by_cases present : ∃ node, node ∈ graph.nodesAt ⟨.eni, eniId⟩
  · obtain ⟨node, member⟩ := present
    have ofEni : node.ref.id = eniId := by rw [(PropertyGraph.mem_nodesAt.mp member).2]
    rw [rowsOf_eq member, rowsOf_eq (sameNodes ▸ member), ← groupsOf_agree visited same]
    exact List.map_congr_left fun routeTableId _ => eniRow_agree visited same ofEni routeTableId
  · have none : rowsOf graph eniId = [] :=
      List.eq_nil_iff_forall_not_mem.mpr fun _ member => present (exists_node_of_mem_rowsOf member)
    have none' : rowsOf graph' eniId = [] :=
      List.eq_nil_iff_forall_not_mem.mpr fun _ member =>
        present (sameNodes ▸ exists_node_of_mem_rowsOf member)
    rw [none, none']

/-- An interface is read alike in every graph that has its node, and the relationships that start where it
visits. -/
theorem readsAlike_of_restrict : ReadsAlike graph graph' eniId where
  rows := rowsOf_agree visited same sameNodes
  groups := groupsOf_agree visited same
  targets := by
    intro routeTableId used
    have used' : some routeTableId ∈ groupsOf graph' eniId := groupsOf_agree visited same ▸ used
    have sameTargets : resolvedTargets graph routeTableId = resolvedTargets graph' routeTableId := by
      rw [← resolvedTargets_restrict_of_used (keeps_own visited) used, resolvedTargets_of_same same,
        resolvedTargets_restrict_of_used (keeps_own' visited same) used']
    rw [fetchRouteTableTargets, fetchRouteTableTargets, sameTargets]

omit same sameNodes in
/-- What an interface visits is read alike in every graph that agrees on it. -/
theorem readsAlike_of_agreeOn (agree : PropertyGraph.AgreeOn own graph graph') : ReadsAlike graph graph' eniId :=
  readsAlike_of_restrict visited agree.relationships (agree.nodes _ (visited _ .eni))

end Agree

/-! ## Candidates -/

section Candidates

variable {graph graph' : Neo4jGraph} {enis enis' : List EniNode}

private theorem mem_of_readsAlike (fetched : fetchEnis graph = .ok enis) (fetched' : fetchEnis graph' = .ok enis')
    {eni : EniNode} (alike : ReadsAlike graph graph' eni.id) (member : eni ∈ enis) : eni ∈ enis' := by
  obtain ⟨row, inRows, read⟩ := (mem_fetchEnis_iff fetched).mp member
  exact (mem_fetchEnis_iff fetched').mpr ⟨row, alike.rows ▸ inRows, read⟩

/-- The route table an endpoint carries is one its interface is grouped by. -/
private theorem routeTable_used (fetched : fetchEnis graph = .ok enis) {eni : EniNode} (member : eni ∈ enis) :
    eni.routeTableId ∈ groupsOf graph eni.id := by
  obtain ⟨row, inRows, read⟩ := (mem_fetchEnis_iff fetched).mp member
  obtain ⟨node, atEni⟩ := exists_node_of_mem_rowsOf inRows
  rw [rowsOf_eq atEni] at inRows
  obtain ⟨routeTableId, used, rfl⟩ := List.mem_map.mp inRows
  rw [(eniFromRow_eq_ok_iff.mp read).routeTableId]
  exact used

private theorem routeExists_congr {routeTargets routeTargets' : RouteTargets} {source destination : EniNode}
    (ofSource : ∀ routeTableId, source.routeTableId = some routeTableId →
      routeTargets routeTableId = routeTargets' routeTableId)
    (ofDestination : ∀ routeTableId, destination.routeTableId = some routeTableId →
      routeTargets routeTableId = routeTargets' routeTableId) :
    routeExists source destination routeTargets = routeExists source destination routeTargets' := by
  rw [routeExists, routeExists]
  split
  · rfl
  · split
    · next sourceRt destinationRt ofRt ofRt' => rw [ofSource _ ofRt, ofDestination _ ofRt']
    · rfl

private theorem mem_candidates_of_readsAlike (fetched : fetchEnis graph = .ok enis)
    (fetched' : fetchEnis graph' = .ok enis') {boundaryId : String} {selectors : BoundarySelectors}
    {candidate : PathCandidate} (ofSource : ReadsAlike graph graph' candidate.source.eniId)
    (ofDestination : ReadsAlike graph graph' candidate.destination.eniId)
    (member : candidate ∈ pairCandidates boundaryId selectors (fetchRouteTableTargets graph) enis) :
    candidate ∈ pairCandidates boundaryId selectors (fetchRouteTableTargets graph') enis' := by
  obtain ⟨source, inEnis, destination, inEnis', paired, built⟩ := mem_pairCandidates_iff.mp member
  obtain ⟨peerAddress, parsed, rfl⟩ := Option.map_eq_some_iff.mp built
  have routes : routeExists source destination (fetchRouteTableTargets graph) =
      routeExists source destination (fetchRouteTableTargets graph') := by
    apply routeExists_congr
    · intro routeTableId carried
      exact ofSource.targets routeTableId (carried ▸ routeTable_used fetched inEnis)
    · intro routeTableId carried
      exact ofDestination.targets routeTableId (carried ▸ routeTable_used fetched inEnis')
  refine mem_pairCandidates_iff.mpr ⟨source, mem_of_readsAlike fetched fetched' ofSource inEnis, destination,
    mem_of_readsAlike fetched fetched' ofDestination inEnis', paired, ?_⟩
  rw [pairCandidate, parsed, Option.map_some, routes]

/-- Candidates between interfaces that are read alike are the same candidates. -/
theorem mem_assembleCandidates_iff_of_readsAlike {boundaryId : String} {selectors : BoundarySelectors}
    {candidates candidates' : List PathCandidate}
    (assembled : assembleCandidates graph boundaryId selectors = .ok candidates)
    (assembled' : assembleCandidates graph' boundaryId selectors = .ok candidates') {candidate : PathCandidate}
    (ofSource : ReadsAlike graph graph' candidate.source.eniId)
    (ofDestination : ReadsAlike graph graph' candidate.destination.eniId) :
    candidate ∈ candidates ↔ candidate ∈ candidates' := by
  obtain ⟨enis, fetched, made⟩ := Except.bind_eq_ok_iff.mp assembled
  obtain ⟨enis', fetched', made'⟩ := Except.bind_eq_ok_iff.mp assembled'
  cases made
  cases made'
  constructor
  · exact mem_candidates_of_readsAlike fetched fetched' ofSource ofDestination
  · exact mem_candidates_of_readsAlike fetched' fetched ofSource.symm ofDestination.symm

end Candidates

end NetHound.Evaluate
