import NetHound.Evaluate.Footprint
import NetHound.Ingest.Runs

/-! # Re-ingestion over an earlier snapshot

Ingestion only merges. Over the store an earlier snapshot left, a later one writes everything it
would write alone and overwrites what it shares with the earlier one, but a relationship of the
earlier snapshot whose merge key it does not write stays. So nothing the later snapshot reports is
lost, and an interface reads as if nothing had been ingested before as long as no such stale
relationship starts at a node its rows visit.
-/

namespace NetHound.Soundness

open Domain Graph Cypher Evaluate Ingest

/-! ## Reads up to order -/

/-- One endpoint, up to the order its lists were collected in. -/
structure SameEndpoint (eni eni' : EniNode) : Prop where
  id : eni.id = eni'.id
  vpcId : eni.vpcId = eni'.vpcId
  subnetId : eni.subnetId = eni'.subnetId
  privateIp : eni.privateIp = eni'.privateIp
  routeTableId : eni.routeTableId = eni'.routeTableId
  securityGroupIds : eni.securityGroupIds.Perm eni'.securityGroupIds
  egressRules : eni.egressRules.Perm eni'.egressRules
  ingressRules : eni.ingressRules.Perm eni'.ingressRules
  naclRules : eni.naclRules.Perm eni'.naclRules

/-- Both reads yield the same endpoint, or neither yields one. -/
def SameRead (read read' : Except CandidateAssemblyError EniNode) : Prop :=
  (∀ eni, read = .ok eni → ∃ eni', read' = .ok eni' ∧ SameEndpoint eni eni') ∧
    ∀ eni', read' = .ok eni' → ∃ eni, read = .ok eni ∧ SameEndpoint eni eni'

/-- Row by row, `eni_from_row` and the route targets of the rows are the same over both graphs. -/
structure SameReads (graph graph' : Neo4jGraph) (eniId : String) : Prop where
  rows : ∃ rows', rows'.Perm (rowsOf graph' eniId) ∧
    List.Forall₂ (fun row row' => SameRead (eniFromRow row) (eniFromRow row')) (rowsOf graph eniId) rows'
  targets : ∀ row ∈ rowsOf graph eniId, ∀ routeTableId, row.routeTableId = some routeTableId →
    Option.Rel List.Perm (fetchRouteTableTargets graph routeTableId)
      (fetchRouteTableTargets graph' routeTableId)

/-- Nothing that is read over the first graph is missing from the rows over the second. -/
structure KeptReads (graph graph' : Neo4jGraph) (eniId : String) : Prop where
  groups : ∀ row ∈ rowsOf graph eniId, ∀ row' ∈ rowsOf graph' eniId,
    row.vpcId = row'.vpcId ∧ row.subnetId = row'.subnetId ∧ row.privateIp = row'.privateIp ∧
      row.securityGroupIds ⊆ row'.securityGroupIds ∧ row.egressRules ⊆ row'.egressRules ∧
      row.ingressRules ⊆ row'.ingressRules
  naclRules : ∀ row ∈ rowsOf graph eniId, ∀ props ∈ row.naclRules,
    ∃ row' ∈ rowsOf graph' eniId, props ∈ row'.naclRules
  routeTables : ∀ row ∈ rowsOf graph eniId, ∀ routeTableId, row.routeTableId = some routeTableId →
    (∃ row' ∈ rowsOf graph' eniId, row'.routeTableId = some routeTableId) ∧
      resolvedTargets graph routeTableId ⊆ resolvedTargets graph' routeTableId

/-- One row, up to the order its lists were collected in. -/
structure SameRow (row row' : EniRow) : Prop where
  eniId : row.eniId = row'.eniId
  vpcId : row.vpcId = row'.vpcId
  subnetId : row.subnetId = row'.subnetId
  privateIp : row.privateIp = row'.privateIp
  routeTableId : row.routeTableId = row'.routeTableId
  securityGroupIds : row.securityGroupIds.Perm row'.securityGroupIds
  egressRules : row.egressRules.Perm row'.egressRules
  ingressRules : row.ingressRules.Perm row'.ingressRules
  naclRules : row.naclRules.Perm row'.naclRules

theorem SameRow.symm {row row' : EniRow} (same : SameRow row row') : SameRow row' row where
  eniId := same.eniId.symm
  vpcId := same.vpcId.symm
  subnetId := same.subnetId.symm
  privateIp := same.privateIp.symm
  routeTableId := same.routeTableId.symm
  securityGroupIds := same.securityGroupIds.symm
  egressRules := same.egressRules.symm
  ingressRules := same.ingressRules.symm
  naclRules := same.naclRules.symm

theorem SameEndpoint.symm {eni eni' : EniNode} (same : SameEndpoint eni eni') : SameEndpoint eni' eni where
  id := same.id.symm
  vpcId := same.vpcId.symm
  subnetId := same.subnetId.symm
  privateIp := same.privateIp.symm
  routeTableId := same.routeTableId.symm
  securityGroupIds := same.securityGroupIds.symm
  egressRules := same.egressRules.symm
  ingressRules := same.ingressRules.symm
  naclRules := same.naclRules.symm

private theorem eniFromRow_ok_of_sameRow {row row' : EniRow} (same : SameRow row row') {eni : EniNode}
    (read : eniFromRow row = .ok eni) : ∃ eni', eniFromRow row' = .ok eni' ∧ SameEndpoint eni eni' := by
  have parts := eniFromRow_eq_ok_iff.mp read
  obtain ⟨nacl, naclRead, sorted⟩ := parts.naclRules
  obtain ⟨egress', egressRead', egressPerm⟩ :=
    List.exists_perm_of_mapM_ok (same.egressRules.filter _) parts.egressRules
  obtain ⟨ingress', ingressRead', ingressPerm⟩ :=
    List.exists_perm_of_mapM_ok (same.ingressRules.filter _) parts.ingressRules
  obtain ⟨nacl', naclRead', naclPerm⟩ := List.exists_perm_of_mapM_ok (same.naclRules.filter _) naclRead
  refine ⟨{ eni with
    id := row'.eniId
    securityGroupIds := row'.securityGroupIds
    egressRules := egress'
    ingressRules := ingress'
    naclRules := nacl'.insertionSort fun a b => Nacl.sortKey a ≤ Nacl.sortKey b
    routeTableId := row'.routeTableId }, eniFromRow_eq_ok_iff.mpr ?_, ?_⟩
  · exact {
      id := rfl
      vpcId := same.vpcId ▸ parts.vpcId
      subnetId := same.subnetId ▸ parts.subnetId
      privateIp := same.privateIp ▸ parts.privateIp
      securityGroupIds := rfl
      egressRules := egressRead'
      ingressRules := ingressRead'
      naclRules := ⟨nacl', naclRead', rfl⟩
      routeTableId := rfl }
  · exact {
      id := parts.id.trans same.eniId
      vpcId := rfl
      subnetId := rfl
      privateIp := rfl
      routeTableId := parts.routeTableId.trans same.routeTableId
      securityGroupIds := parts.securityGroupIds ▸ same.securityGroupIds
      egressRules := egressPerm
      ingressRules := ingressPerm
      naclRules := by
        rw [sorted]
        exact ((List.perm_insertionSort _ _).trans naclPerm).trans (List.perm_insertionSort _ _).symm }

/-- Rows that differ in order are read alike. -/
theorem sameRead_of_sameRow {row row' : EniRow} (same : SameRow row row') :
    SameRead (eniFromRow row) (eniFromRow row') := by
  refine ⟨fun eni read => eniFromRow_ok_of_sameRow same read, fun eni' read' => ?_⟩
  obtain ⟨eni, read, sameEni⟩ := eniFromRow_ok_of_sameRow same.symm read'
  exact ⟨eni, read, sameEni.symm⟩

/-! ## What two stores share -/

section Shared

variable {graph graph' : Neo4jGraph} {eniId : String} {node node' : Node Label Field BoltType}

private theorem mem_rowsOf_iff (atRef : node ∈ graph.nodesAt ⟨.eni, eniId⟩) {row : EniRow} :
    row ∈ rowsOf graph eniId ↔ ∃ routeTableId ∈ groupsOf graph eniId,
      eniRow graph node routeTableId = row := by
  rw [rowsOf_eq atRef, List.mem_map]

private theorem sgRulesOf_subset (more : graph.relationships ⊆ graph'.relationships) (relType : RelType)
    {securityGroupIds securityGroupIds' : List String} (groups : securityGroupIds ⊆ securityGroupIds') :
    sgRulesOf graph relType securityGroupIds ⊆ sgRulesOf graph' relType securityGroupIds' := by
  intro props member
  obtain ⟨r, found, rfl⟩ := List.mem_map.mp member
  obtain ⟨inGraph, holds⟩ := List.mem_filter.mp found
  obtain ⟨type, label, owner⟩ := of_decide_eq_true holds
  exact List.mem_map_of_mem (List.mem_filter.mpr ⟨more inGraph, decide_eq_true ⟨type, label, groups owner⟩⟩)

/-- More relationships lose nothing. -/
private theorem keptReads_of_subset (more : graph.relationships ⊆ graph'.relationships)
    (atRef : node ∈ graph.nodesAt ⟨.eni, eniId⟩) (atRef' : node' ∈ graph'.nodesAt ⟨.eni, eniId⟩)
    (same : SameNode node node') : KeptReads graph graph' eniId where
  groups := by
    intro row member row' member'
    obtain ⟨_, _, rfl⟩ := (mem_rowsOf_iff atRef).mp member
    obtain ⟨_, _, rfl⟩ := (mem_rowsOf_iff atRef').mp member'
    have groups : securityGroupsOf graph node.ref.id ⊆ securityGroupsOf graph' node'.ref.id := by
      rw [(PropertyGraph.mem_nodesAt.mp atRef).2, (PropertyGraph.mem_nodesAt.mp atRef').2]
      exact fun id member => List.mem_dedup.mpr (targets_subset more _ _ _ (List.mem_dedup.mp member))
    exact ⟨same.vpcId, same.subnetId, same.privateIp, groups, sgRulesOf_subset more _ groups,
      sgRulesOf_subset more _ groups⟩
  naclRules := by
    intro row member props read
    obtain ⟨routeTableId, _, rfl⟩ := (mem_rowsOf_iff atRef).mp member
    obtain ⟨r, found, rfl⟩ := List.mem_map.mp read
    obtain ⟨inGraph, holds⟩ := List.mem_filter.mp found
    obtain ⟨type, label, loop, owner⟩ := of_decide_eq_true holds
    obtain ⟨subnetId, inRow, protects⟩ := List.mem_flatMap.mp owner
    have subnet := targets_subset more _ _ _ (List.mem_filter.mp inRow).1
    rw [(PropertyGraph.mem_nodesAt.mp atRef).2] at subnet
    obtain ⟨routeTableId', used⟩ := List.exists_mem_of_ne_nil _ (routeTablesOf_ne_nil graph' subnetId)
    refine ⟨_, (mem_rowsOf_iff atRef').mpr ⟨routeTableId', mem_groupsOf subnet used, rfl⟩, ?_⟩
    apply List.mem_map_of_mem
    refine List.mem_filter.mpr ⟨more inGraph, decide_eq_true ⟨type, label, loop, ?_⟩⟩
    rw [(PropertyGraph.mem_nodesAt.mp atRef').2]
    exact List.mem_flatMap.mpr ⟨subnetId, List.mem_filter.mpr ⟨subnet, decide_eq_true used⟩,
      targets_subset more _ _ _ protects⟩
  routeTables := by
    rintro row member routeTableId named
    obtain ⟨_, group, rfl⟩ := (mem_rowsOf_iff atRef).mp member
    cases named
    obtain ⟨subnetId, subnet, used⟩ := exists_of_some_mem_groupsOf group
    have used' := some_mem_routeTablesOf_iff.mpr (targets_subset more _ _ _ used)
    refine ⟨⟨_, (mem_rowsOf_iff atRef').mpr
      ⟨_, mem_groupsOf (targets_subset more _ _ _ subnet) used', rfl⟩, rfl⟩, ?_⟩
    intro vpcId target
    obtain ⟨r, inGraph, found⟩ := List.mem_filterMap.mp (List.mem_dedup.mp target)
    exact List.mem_dedup.mpr (List.mem_filterMap.mpr ⟨r, more inGraph, found⟩)

private theorem fetchRouteTableTargets_perm {routeTableId : String}
    (targets : (resolvedTargets graph routeTableId).Perm (resolvedTargets graph' routeTableId)) :
    Option.Rel List.Perm (fetchRouteTableTargets graph routeTableId)
      (fetchRouteTableTargets graph' routeTableId) := by
  rw [fetchRouteTableTargets, fetchRouteTableTargets]
  split
  · next empty =>
    rw [empty] at targets
    rw [targets.symm.eq_nil]
    exact .none
  · next nonempty =>
    split
    · next empty' =>
      rw [empty'] at targets
      exact absurd targets.eq_nil nonempty
    · exact .some targets

/-- Stores that agree on the relationships from visited nodes are read alike. -/
private theorem sameReads_of_visited (atRef : node ∈ graph.nodesAt ⟨.eni, eniId⟩)
    (atRef' : node' ∈ graph'.nodesAt ⟨.eni, eniId⟩) (same : SameNode node node') {p : Rel → Bool}
    (visited : ∀ r, p r = true ↔ Visits graph eniId r.source)
    (agree : (graph.restrict p).relationships.Perm (graph'.restrict p).relationships) :
    SameReads graph graph' eniId := by
  have fewer : (graph.restrict p).relationships ⊆ graph.relationships := List.filter_subset_self _
  have keeps : Keeps p graph eniId := fun r _ _ visits => (visited r).mpr (visits.subset fewer)
  have keeps' : Keeps p graph' eniId := fun r _ _ visits =>
    (visited r).mpr ((visits.reorder agree.symm).subset fewer)
  have groups : (groupsOf graph eniId).Perm (groupsOf graph' eniId) := by
    rw [← groupsOf_restrict keeps, ← groupsOf_restrict keeps']
    exact groupsOf_perm agree eniId
  have securityGroups : (securityGroupsOf graph eniId).Perm (securityGroupsOf graph' eniId) := by
    rw [← securityGroupsOf_restrict keeps, ← securityGroupsOf_restrict keeps']
    exact securityGroupsOf_perm agree eniId
  have ofGroup (r : Rel) (label : r.source.label = .securityGroup)
      (owner : r.source.id ∈ securityGroupsOf graph eniId) : p r = true := by
    have source : r.source = ⟨.securityGroup, r.source.id⟩ := by rw [← label]
    rw [visited, source]
    exact .securityGroup owner
  have rules (relType : RelType) : (sgRulesOf graph relType (securityGroupsOf graph eniId)).Perm
      (sgRulesOf graph' relType (securityGroupsOf graph' eniId)) := by
    rw [← sgRulesOf_restrict fun r _ _ label owner => ofGroup r label owner,
      ← sgRulesOf_restrict fun r _ _ label owner => ofGroup r label (securityGroups.mem_iff.mpr owner)]
    exact sgRulesOf_perm agree relType securityGroups
  have nacls (routeTableId : Option String) : (naclRulesOf graph (naclsOf graph eniId routeTableId)).Perm
      (naclRulesOf graph' (naclsOf graph' eniId routeTableId)) := by
    rw [← naclRulesOf_restrict keeps, ← naclRulesOf_restrict keeps', ← naclsOf_restrict keeps,
      ← naclsOf_restrict keeps']
    exact naclRulesOf_perm agree (naclsOf_perm agree eniId routeTableId)
  have sameRow (routeTableId : Option String) :
      SameRow (eniRow graph node routeTableId) (eniRow graph' node' routeTableId) := by
    rw [Evaluate.eniRow, Evaluate.eniRow, (PropertyGraph.mem_nodesAt.mp atRef).2,
      (PropertyGraph.mem_nodesAt.mp atRef').2]
    exact ⟨rfl, same.vpcId, same.subnetId, same.privateIp, rfl, securityGroups, rules _, rules _,
      nacls routeTableId⟩
  constructor
  · refine ⟨(groupsOf graph eniId).map (eniRow graph' node'), ?_, ?_⟩
    · rw [rowsOf_eq atRef']
      exact groups.map _
    · rw [rowsOf_eq atRef, List.forall₂_map_left_iff, List.forall₂_map_right_iff, List.forall₂_same]
      exact fun routeTableId _ => sameRead_of_sameRow (sameRow routeTableId)
  · intro row member routeTableId named
    obtain ⟨_, group, rfl⟩ := (mem_rowsOf_iff atRef).mp member
    cases named
    apply fetchRouteTableTargets_perm
    rw [← resolvedTargets_restrict_of_used keeps group,
      ← resolvedTargets_restrict_of_used keeps' (groups.mem_iff.mp group)]
    exact resolvedTargets_perm agree routeTableId

end Shared

/-! ## Two ingestions -/

/-- A relationship the earlier batch writes and the later one does not write again. -/
def Stale (before now : GraphBatch) (c : Merge) : Prop :=
  c ∈ batchMerges before ∧ c.key ∉ (batchMerges now).map RelMerge.key

section Tables

variable {before now : GraphBatch}

/-- The table one ingestion leaves of an empty store. -/
private abbrev tableOf (batch : GraphBatch) : List Merge :=
  ([] : List Merge).upserts RelMerge.key (batchMerges batch)

private theorem nodup_tableOf (batch : GraphBatch) : ((tableOf batch).map RelMerge.key).Nodup :=
  List.nodup_upserts RelMerge.key (by simp) _

private theorem mem_reingested_iff {c : Merge} :
    c ∈ (tableOf before).upserts RelMerge.key (batchMerges now) ↔
      c ∈ tableOf now ∨ c ∈ tableOf before ∧ c.key ∉ (batchMerges now).map RelMerge.key :=
  List.mem_upserts_iff_mem_upserts_nil RelMerge.key (nodup_tableOf before)

/-- Where nothing stale is kept, re-ingestion leaves the later table. -/
private theorem reingested_perm {q : Merge → Bool} (unvisited : ∀ c, Stale before now c → q c = false) :
    ((tableOf now).filter q).Perm (((tableOf before).upserts RelMerge.key (batchMerges now)).filter q) := by
  have unique := List.nodup_upserts RelMerge.key (nodup_tableOf before) (batchMerges now)
  apply (List.perm_ext_iff_of_nodup ((List.Nodup.of_map _ (nodup_tableOf now)).filter _)
    ((List.Nodup.of_map _ unique).filter _)).mpr
  intro c
  rw [List.mem_filter, List.mem_filter, mem_reingested_iff]
  constructor
  · exact fun ⟨member, kept⟩ => ⟨Or.inl member, kept⟩
  · rintro ⟨member | ⟨earlier, fresh⟩, kept⟩
    · exact ⟨member, kept⟩
    · have written : c ∈ batchMerges before := by
        simpa using List.mem_of_mem_upserts RelMerge.key earlier
      rw [unvisited c ⟨written, fresh⟩] at kept
      cases kept

end Tables

/-- A collected interface has a record, and a last one. -/
private theorem lastRecord_of_mappable {accountId : String} {collections : Sdk.Collections}
    {batch : GraphBatch}
    (built : Built accountId collections batch) {eni : Sdk.NetworkInterface}
    (collected : eni ∈ collections.networkInterfaces)
    (mappable : EniMappable eni) {eniId : String} (named : eni.networkInterfaceId = some eniId) :
    ∃ record, (batch.enis.filter fun record => record.id = eniId).getLast? = some record := by
  obtain ⟨record, mapped⟩ := (@mapEniNode_maps_iff accountId eni).mpr mappable
  have sameId : record.id = eniId := Option.some.inj ((mapEniNode_ok mapped).1.symm.trans named)
  have member : record ∈ batch.enis.filter fun record => record.id = eniId := by
    refine List.mem_filter.mpr ⟨?_, decide_eq_true sameId⟩
    rw [built.enis]
    exact List.mem_map_of_mem (mem_kept_iff.mpr ⟨collected, mapped⟩ : (eni, record) ∈ _)
  exact ⟨_, List.getLast?_eq_some_getLast (List.ne_nil_of_mem member)⟩

open Classical in
/-- Ingesting a snapshot over an earlier one finishes as it does alone, loses nothing the snapshot
reports, and leaves an interface's reads as if it had run alone unless a stale relationship starts at
a node they visit. -/
theorem reingestion {accountId : String} {before now : Sdk.Collections} {first alone : Ingested}
    (ranBefore : runFullIngestWithClient accountId before PropertyGraph.empty = .ok first)
    (ranAlone : runFullIngestWithClient accountId now PropertyGraph.empty = .ok alone) :
    ∃ again, runFullIngestWithClient accountId now first.graph = .ok again ∧ again.report = alone.report ∧
      ∀ eni ∈ now.networkInterfaces, EniMappable eni → ∀ eniId, eni.networkInterfaceId = some eniId →
        KeptReads alone.graph again.graph eniId ∧
          ∀ batchBefore batchNow, (Topology.buildGraphBatch accountId before).2 = .ok batchBefore →
            (Topology.buildGraphBatch accountId now).2 = .ok batchNow →
              (∀ c, Stale batchBefore batchNow c → ¬ Visits alone.graph eniId c.source) →
                SameReads alone.graph again.graph eniId := by
  obtain ⟨batchBefore, builtBefore⟩ := built_of_ok ranBefore
  obtain ⟨batchNow, builtNow⟩ := built_of_ok ranAlone
  have finishedBefore := finished_of_ok Stored.empty builtBefore ranBefore
  have finishedAlone := finished_of_ok Stored.empty builtNow ranAlone
  obtain ⟨again, ranAgain, report⟩ := runFullIngestWithClient_mono Stored.empty finishedBefore.stored
    (fun ref present => absurd present List.not_mem_nil) ranAlone
  have finishedAgain := finished_of_ok finishedBefore.stored builtNow ranAgain
  have storedAlone : alone.graph.relationships = (tableOf batchNow).map RelMerge.create :=
    finishedAlone.stored.written.relationships
  have storedAgain : again.graph.relationships =
      ((tableOf batchBefore).upserts RelMerge.key (batchMerges batchNow)).map RelMerge.create :=
    finishedAgain.stored.written.relationships
  refine ⟨again, ranAgain, report, fun eni inNow mappable eniId named => ?_⟩
  obtain ⟨record, last⟩ := lastRecord_of_mappable finishedAlone.built inNow mappable named
  obtain ⟨node, atRef, vpcId, subnetId, privateIp⟩ := finishedAlone.eniNode last
  obtain ⟨node', atRef', vpcId', subnetId', privateIp'⟩ := finishedAgain.eniNode last
  have sameNode : SameNode node node' :=
    ⟨vpcId.trans vpcId'.symm, subnetId.trans subnetId'.symm, privateIp.trans privateIp'.symm⟩
  constructor
  · refine keptReads_of_subset ?_ atRef atRef' sameNode
    rw [storedAlone, storedAgain]
    exact List.map_subset _ fun c member => mem_reingested_iff.mpr (Or.inl member)
  · intro batchBefore' batchNow' builtBefore' builtNow' unvisited
    obtain rfl : batchBefore = batchBefore' := Except.ok.inj (builtBefore.symm.trans builtBefore')
    obtain rfl : batchNow = batchNow' := Except.ok.inj (builtNow.symm.trans builtNow')
    apply sameReads_of_visited atRef atRef' sameNode fun r => decide_eq_true_iff
    change (alone.graph.relationships.filter _).Perm (again.graph.relationships.filter _)
    rw [storedAlone, storedAgain, List.filter_map, List.filter_map]
    exact (reingested_perm fun c stale => decide_eq_false (unvisited c stale)).map _

/-! ## Two small accounts -/

private def eniWith (eniId : String) (groups : List Sdk.GroupIdentifier) : Sdk.NetworkInterface :=
  { networkInterfaceId := some eniId
    vpcId := some "vpc-1"
    subnetId := some "subnet-1"
    privateIpAddress := some "10.0.0.1"
    groups }

private def webGroupOf : Sdk.SecurityGroup :=
  { groupId := some "sg-1", vpcId := some "vpc-1", groupName := some "web" }

private def snapshot (networkInterfaces : List Sdk.NetworkInterface) : Sdk.Collections :=
  { networkInterfaces, securityGroups := [webGroupOf] }

/-- The store an ingestion leaves. -/
private def ingestedOver (graph : Neo4jGraph) (collections : Sdk.Collections) : Neo4jGraph :=
  match runFullIngestWithClient "111122223333" collections graph with
  | .ok ingested => ingested.graph
  | .error _ => graph

private theorem exists_ingested (graph : Neo4jGraph) (collections : Sdk.Collections)
    (finishes : (runFullIngestWithClient "111122223333" collections graph).isOk = true) :
    ∃ ingested, runFullIngestWithClient "111122223333" collections graph = .ok ingested ∧
      ingested.graph = ingestedOver graph collections := by
  rcases ran : runFullIngestWithClient "111122223333" collections graph with error | ingested
  · rw [ran] at finishes
    cases finishes
  · exact ⟨ingested, rfl, by rw [ingestedOver, ran]⟩

private theorem groups_of_sameRead {row row' : EniRow} (same : SameRead (eniFromRow row) (eniFromRow row'))
    (reads : (eniFromRow row).isOk = true) : row.securityGroupIds.Perm row'.securityGroupIds := by
  rcases read : eniFromRow row with error | eni
  · rw [read] at reads
    cases reads
  · obtain ⟨eni', read', sameEni⟩ := same.1 eni read
    rw [← (eniFromRow_eq_ok_iff.mp read).securityGroupIds, ← (eniFromRow_eq_ok_iff.mp read').securityGroupIds]
    exact sameEni.securityGroupIds

private def departedBatch : GraphBatch :=
  { enis := [⟨"eni-1", "111122223333", "vpc-1", "subnet-1", "10.0.0.1", none⟩,
      ⟨"eni-2", "111122223333", "vpc-1", "subnet-1", "10.0.0.1", none⟩]
    securityGroups := [⟨"sg-1", "111122223333", "vpc-1", "web", none⟩]
    networkAcls := []
    subnets := [⟨"subnet-1", "111122223333", "vpc-1", "", ""⟩]
    vpcs := [⟨"vpc-1", "111122223333", ""⟩]
    routeTables := []
    edges := [.hasSg ⟨"eni-1", "sg-1"⟩, .inSubnet ⟨"eni-1", "subnet-1"⟩, .inSubnet ⟨"eni-2", "subnet-1"⟩] }

private def stayedBatch : GraphBatch :=
  { departedBatch with
    enis := [⟨"eni-1", "111122223333", "vpc-1", "subnet-1", "10.0.0.1", none⟩]
    edges := [.hasSg ⟨"eni-1", "sg-1"⟩, .inSubnet ⟨"eni-1", "subnet-1"⟩] }

/-- An interface that has left the account does not disturb the one that stays. -/
theorem reingestion_departed :
    ∃ first alone again,
      runFullIngestWithClient "111122223333" (snapshot [eniWith "eni-1" [⟨some "sg-1"⟩], eniWith "eni-2" []])
          PropertyGraph.empty = .ok first ∧
        runFullIngestWithClient "111122223333" (snapshot [eniWith "eni-1" [⟨some "sg-1"⟩]])
          PropertyGraph.empty = .ok alone ∧
        runFullIngestWithClient "111122223333" (snapshot [eniWith "eni-1" [⟨some "sg-1"⟩]]) first.graph =
          .ok again ∧
        SameReads alone.graph again.graph "eni-1" := by
  obtain ⟨first, ranFirst, _⟩ := exists_ingested PropertyGraph.empty
    (snapshot [eniWith "eni-1" [⟨some "sg-1"⟩], eniWith "eni-2" []]) (by decide)
  obtain ⟨alone, ranAlone, _⟩ := exists_ingested PropertyGraph.empty
    (snapshot [eniWith "eni-1" [⟨some "sg-1"⟩]]) (by decide)
  obtain ⟨again, ranAgain, _, reads⟩ := reingestion ranFirst ranAlone
  obtain ⟨_, same⟩ := reads (eniWith "eni-1" [⟨some "sg-1"⟩]) (List.mem_singleton_self _) ⟨rfl, rfl, rfl, rfl⟩
    "eni-1" rfl
  refine ⟨first, alone, again, ranFirst, ranAlone, ranAgain,
    same departedBatch stayedBatch (by decide) (by decide) ?_⟩
  rintro c ⟨written, fresh⟩ visited
  have sources : ∀ c ∈ batchMerges departedBatch,
      c.key ∉ (batchMerges stayedBatch).map RelMerge.key → c.source = ⟨.eni, "eni-2"⟩ := by decide
  rw [sources c written fresh] at visited
  exact absurd (visited.id_of_eni rfl) (by decide)

/-- An interface that leaves its group keeps it in the store. -/
theorem reingestion_keeps_group :
    ¬ ∀ (accountId : String) (before now : Sdk.Collections) (first alone again : Ingested),
      runFullIngestWithClient accountId before PropertyGraph.empty = .ok first →
        runFullIngestWithClient accountId now PropertyGraph.empty = .ok alone →
          runFullIngestWithClient accountId now first.graph = .ok again →
            ∀ eni ∈ now.networkInterfaces, EniMappable eni → ∀ eniId, eni.networkInterfaceId = some eniId →
              SameReads alone.graph again.graph eniId := by
  intro converges
  obtain ⟨first, ranFirst, firstGraph⟩ := exists_ingested PropertyGraph.empty
    (snapshot [eniWith "eni-1" [⟨some "sg-1"⟩]]) (by decide)
  obtain ⟨alone, ranAlone, aloneGraph⟩ := exists_ingested PropertyGraph.empty
    (snapshot [eniWith "eni-1" []]) (by decide)
  obtain ⟨again, ranAgain, againGraph⟩ := exists_ingested first.graph
    (snapshot [eniWith "eni-1" []]) (by rw [firstGraph]; decide)
  obtain ⟨⟨rows', perm, same⟩, _⟩ := converges _ _ _ first alone again ranFirst ranAlone ranAgain
    (eniWith "eni-1" []) (List.mem_singleton_self _) ⟨rfl, rfl, rfl, rfl⟩ "eni-1" rfl
  have left : ∀ row ∈ rowsOf alone.graph "eni-1", row.securityGroupIds = [] ∧
      (eniFromRow row).isOk = true := by
    rw [aloneGraph]
    decide
  have kept : ∀ row ∈ rows', row.securityGroupIds = ["sg-1"] := by
    have stored : ∀ row ∈ rowsOf again.graph "eni-1", row.securityGroupIds = ["sg-1"] := by
      rw [againGraph, firstGraph]
      decide
    exact fun row member => stored row (perm.mem_iff.mp member)
  have present : (rowsOf alone.graph "eni-1").length = 1 := by
    rw [aloneGraph]
    decide
  rcases rows : rowsOf alone.graph "eni-1" with _ | ⟨row, rest⟩
  · rw [rows] at present
    cases present
  · rw [rows] at same left
    obtain ⟨row', rest', sameRead, _, rfl⟩ := List.forall₂_cons_left_iff.mp same
    obtain ⟨empty, reads⟩ := left _ List.mem_cons_self
    have groups := groups_of_sameRead sameRead reads
    rw [empty, kept _ List.mem_cons_self] at groups
    cases groups.symm.eq_nil

end NetHound.Soundness
