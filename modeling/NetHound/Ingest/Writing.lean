import NetHound.Graph.Statements
import NetHound.Ingest.Pipeline
import NetHound.ToMathlib.OrderedMap

/-! # Writing a batch

A batch is its node rows followed by a sequence of edge statements: `writeBatch` is one node merge and
one run of statements, whatever the graph.
-/

namespace NetHound.Ingest

open Domain Graph Cypher

/-! ## Grouping by owner -/

/-- Pairs as the rule upserts see them: grouped by key, the keys in order. -/
def regrouped {V : Type} (pairs : List (String × V)) : List (String × V) :=
  (groupBy pairs).toList.flatMap fun group => group.2.map (group.1, ·)

theorem ownedRules_sgRuleBatches (pairs : List (String × SgRule)) :
    ownedRules (sgRuleBatches pairs) = regrouped pairs := by
  rw [ownedRules, sgRuleBatches, regrouped, List.flatMap_map]

theorem naclRuleRows_naclRuleBatches (pairs : List (String × NaclRule)) :
    ((naclRuleBatches pairs).flatMap fun batch => batch.rules.map (naclRuleRow batch.networkAclId)) =
      (regrouped pairs).map fun owned => naclRuleRow owned.1 owned.2 := by
  simp only [naclRuleBatches, regrouped, List.flatMap_map, List.map_flatMap, List.map_map]
  rfl

section Regrouped

variable {V : Type} {pairs : List (String × V)}

theorem getElem?_groupBy (k : String) :
    (groupBy pairs)[k]? =
      if k ∈ pairs.map Prod.fst then some ((pairs.filter fun pair => pair.1 = k).map Prod.snd) else none := by
  rw [groupBy, Std.TreeMap.getElem?_foldl_alter]
  simp

private theorem filter_flatMap_groups (p : String → Bool) (groups : List (String × List V)) :
    (groups.flatMap fun group => group.2.map (group.1, ·)).filter (fun owned => p owned.1) =
      (groups.filter fun group => p group.1).flatMap fun group => group.2.map (group.1, ·) := by
  induction groups with
  | nil => rfl
  | cons group groups ih =>
    rw [List.flatMap_cons, List.filter_append, ih, List.filter_cons, List.filter_map]
    rcases keep : p group.1 with _ | _
    · have none : (fun owned => p owned.1) ∘ (group.1, ·) = fun _ : V => false := funext fun _ => keep
      rw [none, List.filter_false, List.map_nil, List.nil_append, if_neg Bool.false_ne_true]
    · have all : (fun owned => p owned.1) ∘ (group.1, ·) = fun _ : V => true := funext fun _ => keep
      rw [all, List.filter_true, if_pos rfl, List.flatMap_cons]

/-- Grouping keeps each key's pairs, in order. -/
theorem filter_key_regrouped (k : String) :
    (regrouped pairs).filter (fun owned => owned.1 = k) = pairs.filter fun owned => owned.1 = k := by
  rw [regrouped, filter_flatMap_groups fun owner => decide (owner = k), Std.TreeMap.filter_key_toList,
    getElem?_groupBy]
  split
  · rw [Option.map_some, Option.toList_some, List.flatMap_singleton, List.map_map]
    refine (List.map_congr_left fun owned member => ?_).trans (List.map_id _)
    rw [← of_decide_eq_true (List.mem_filter.mp member).2]
    rfl
  · next absent =>
    refine (List.filter_eq_nil_iff.mpr fun owned member keyed => absent ?_).symm
    exact List.mem_map.mpr ⟨owned, member, of_decide_eq_true keyed⟩

/-- Grouping loses no pair and adds none. -/
theorem mem_regrouped {owned : String × V} : owned ∈ regrouped pairs ↔ owned ∈ pairs := by
  have ofKey (l : List (String × V)) : owned ∈ l ↔ owned ∈ l.filter fun pair => pair.1 = owned.1 := by
    simp
  rw [ofKey, filter_key_regrouped, ← ofKey]

/-- Grouping keeps how often each pair occurs. -/
theorem regrouped_perm [DecidableEq V] (pairs : List (String × V)) : (regrouped pairs).Perm pairs := by
  refine List.perm_iff_count.mpr fun owned => ?_
  have ofKey (l : List (String × V)) :
      (l.filter fun pair => pair.1 = owned.1).count owned = l.count owned :=
    List.count_filter (decide_eq_true rfl)
  rw [← ofKey, filter_key_regrouped, ofKey]

/-- A filter on owners can be taken before or after grouping. -/
theorem filter_regrouped (p : String → Bool) :
    (regrouped pairs).filter (fun owned => p owned.1) = regrouped (pairs.filter fun owned => p owned.1) := by
  have lookups (k : String) : (groupBy (pairs.filter fun owned => p owned.1))[k]? =
      if p k then (groupBy pairs)[k]? else none := by
    rw [getElem?_groupBy, getElem?_groupBy, List.filter_filter]
    by_cases keep : p k = true
    · have same : (fun pair : String × V => decide (pair.1 = k) && p pair.1) =
          fun pair => decide (pair.1 = k) := by
        funext pair
        by_cases keyed : pair.1 = k <;> simp [keyed, keep]
      have present : k ∈ (pairs.filter fun owned => p owned.1).map Prod.fst ↔ k ∈ pairs.map Prod.fst := by
        simp only [List.mem_map, List.mem_filter]
        constructor
        · rintro ⟨pair, ⟨member, _⟩, keyed⟩
          exact ⟨pair, member, keyed⟩
        · rintro ⟨pair, member, rfl⟩
          exact ⟨pair, ⟨member, keep⟩, rfl⟩
      rw [same, if_pos keep]
      exact if_congr present rfl rfl
    · rw [if_neg keep, if_neg]
      intro member
      obtain ⟨pair, kept, rfl⟩ := List.mem_map.mp member
      exact keep (List.mem_filter.mp kept).2
  rw [regrouped, regrouped, filter_flatMap_groups, Std.TreeMap.filter_toList_eq p lookups]

end Regrouped

/-! ## Batches as statements -/

/-- Every node row of a batch, in writing order. -/
def nodeRows (batch : GraphBatch) : List (NodeMerge Label Field BoltType) :=
  (batch.enis.map eniRow).map (nodeUpsert .eni) ++
    (batch.securityGroups.map securityGroupRow).map (nodeUpsert .securityGroup) ++
    (batch.networkAcls.map networkAclRow).map (nodeUpsert .networkAcl) ++
    (batch.subnets.map subnetRow).map (nodeUpsert .subnet) ++
    (batch.vpcs.map vpcRow).map (nodeUpsert .vpc) ++
    (batch.routeTables.map routeTableRow).map (nodeUpsert .routeTable)

/-- The statements some edges are written in. -/
def edgeStatements (edges : List Edge) : List Statement :=
  [(hasSgUpsert, (edges.filterMap asHasSg).map hasSgRow)] ++
    [(inSubnetUpsert, (edges.filterMap asInSubnet).map inSubnetRow)] ++
    [(protectedByUpsert, (edges.filterMap asProtectedBy).map protectedByRow)] ++
    [(usesRouteTableUpsert, (edges.filterMap asUsesRouteTable).map usesRouteTableRow)] ++
    routeStatements (edges.filterMap asRoutesTo) ++
    sgRuleStatements .ingress (sgRuleBatches (edges.filterMap asAllowsIngress)) ++
    sgRuleStatements .egress (sgRuleBatches (edges.filterMap asAllowsEgress)) ++
    [(hasRuleUpsert, (naclRuleBatches (edges.filterMap asHasRule)).flatMap fun batch =>
      batch.rules.map (naclRuleRow batch.networkAclId))]

theorem allSent_edgeStatements (edges : List Edge) : AllSent (edgeStatements edges) := by
  unfold edgeStatements
  refine AllSent.append (AllSent.append (AllSent.append (AllSent.append (AllSent.append
    (AllSent.append (AllSent.append ?_ ?_) ?_) ?_) ?_) ?_) ?_) ?_
  · exact allSent_of_kind_none (by decide) (by decide) _
  · exact allSent_of_kind_none (by decide) (by decide) _
  · exact allSent_of_kind_none (by decide) (by decide) _
  · exact allSent_of_kind_none (by decide) (by decide) _
  · exact allSent_routeStatements _
  · exact allSent_sgRuleStatements .ingress _
  · exact allSent_sgRuleStatements .egress _
  · exact allSent_of_kind_none (by decide) (by decide) _

/-- Writing a batch merges its nodes and runs its statements. -/
theorem writeBatch_eq {batch : GraphBatch}
    (consistent : ∀ edge ∈ batch.edges.filterMap asRoutesTo, edge.Consistent) (graph : Neo4jGraph) :
    writeBatch batch graph =
      runStatements (edgeStatements batch.edges) (graph.mergeNodes (nodeRows batch)) := by
  have single (query : EdgeQuery) (rows : List Row) := runStatements_singleton query rows
  have nodes : graph.mergeNodes (nodeRows batch) =
      (((((graph.mergeNodes ((batch.enis.map eniRow).map (nodeUpsert .eni))).mergeNodes
        ((batch.securityGroups.map securityGroupRow).map (nodeUpsert .securityGroup))).mergeNodes
        ((batch.networkAcls.map networkAclRow).map (nodeUpsert .networkAcl))).mergeNodes
        ((batch.subnets.map subnetRow).map (nodeUpsert .subnet))).mergeNodes
        ((batch.vpcs.map vpcRow).map (nodeUpsert .vpc))).mergeNodes
        ((batch.routeTables.map routeTableRow).map (nodeUpsert .routeTable)) := by
    simp only [nodeRows, PropertyGraph.mergeNodes_append]
  rw [nodes, edgeStatements]
  simp only [runStatements_append, single, ← upsertRoutesToEdges_eq consistent,
    ← upsertAllowsIngressRules_eq, ← upsertAllowsEgressRules_eq]
  simp only [writeBatch, upsertEnis, upsertSecurityGroups, upsertNetworkAcls, upsertSubnets, upsertVpcs,
    upsertRouteTables, runNodeUpsert_eq]
  simp only [bind_assoc]
  rfl

end NetHound.Ingest
