import NetHound.Ingest.Port
import NetHound.Soundness.RuleEdges

/-! # A batch hands every edge to the writer once

Whatever the writer, a batch that is written has made fourteen calls: the six node slices, then eight
slices that carry its edges between them, each edge once, under its own kind, direction and owner. The
rule slices hold one group for each owner, the same groups that `group_rule_edges` builds, and each of
their rules becomes one row.
-/

namespace NetHound.Soundness

open Domain Graph Ingest

/-- The slices of the eight edge and rule upserts. -/
structure EdgeCalls where
  hasSgEdges : List HasSgEdge
  inSubnetEdges : List InSubnetEdge
  protectedByEdges : List ProtectedByEdge
  usesRouteTableEdges : List UsesRouteTableEdge
  routesToEdges : List RoutesToEdge
  ingressBatches : List SgRuleBatch
  egressBatches : List SgRuleBatch
  naclBatches : List NaclRuleBatch

/-- All calls in order: each node slice to its own upsert, then the edges. -/
def EdgeCalls.upserts (calls : EdgeCalls) (batch : GraphBatch) : List Upsert :=
  [.upsertEnis batch.enis, .upsertSecurityGroups batch.securityGroups,
    .upsertNetworkAcls batch.networkAcls, .upsertSubnets batch.subnets, .upsertVpcs batch.vpcs,
    .upsertRouteTables batch.routeTables, .upsertHasSgEdges calls.hasSgEdges,
    .upsertInSubnetEdges calls.inSubnetEdges, .upsertProtectedByEdges calls.protectedByEdges,
    .upsertUsesRouteTableEdges calls.usesRouteTableEdges, .upsertRoutesToEdges calls.routesToEdges,
    .upsertAllowsIngressRules calls.ingressBatches, .upsertAllowsEgressRules calls.egressBatches,
    .upsertHasRules calls.naclBatches]

/-- The rules of some batches with their owners, in order. -/
def ownedNaclRules (batches : List NaclRuleBatch) : List (String × NaclRule) :=
  batches.flatMap fun batch => batch.rules.map (batch.networkAclId, ·)

/-- The edges handed over, each rule under its batch's owner. -/
def EdgeCalls.edges (calls : EdgeCalls) : List Edge :=
  calls.hasSgEdges.map .hasSg ++ calls.inSubnetEdges.map .inSubnet ++
    calls.protectedByEdges.map .protectedBy ++ calls.usesRouteTableEdges.map .usesRouteTable ++
    calls.routesToEdges.map .routesTo ++
    (ownedRules calls.ingressBatches).map (fun owned => .allowsIngress owned.1 owned.2) ++
    (ownedRules calls.egressBatches).map (fun owned => .allowsEgress owned.1 owned.2) ++
    (ownedNaclRules calls.naclBatches).map fun owned => .hasRule owned.1 owned.2

def sgGroups (batches : List SgRuleBatch) : List (String × List SgRule) :=
  batches.map fun batch => (batch.securityGroupId, batch.rules)

def naclGroups (batches : List NaclRuleBatch) : List (String × List NaclRule) :=
  batches.map fun batch => (batch.networkAclId, batch.rules)

/-- One group for each owner, with the owner's rules in the order of the pairs. -/
def GroupedByOwner {V : Type} (pairs : List (String × V)) (groups : List (String × List V)) : Prop :=
  (groups.map Prod.fst).Nodup ∧ ∀ owner rules, (owner, rules) ∈ groups ↔
    rules ≠ [] ∧ rules = (pairs.filter fun pair => pair.1 = owner).map Prod.snd

/-- The map holds the same groups, key by key. -/
def SameGroups {V : Type} (map : Std.HashMap String (List V)) (groups : List (String × List V)) : Prop :=
  ∀ owner rules, map[owner]? = some rules ↔ (owner, rules) ∈ groups

/-- The three kinds of rows the rules of a direction are split into. -/
inductive SgRulePart where
  | cidr
  | sgRefResolved
  | sgRefUnresolved
deriving DecidableEq

def sgRulePart (rule : SgRule) : SgRulePart :=
  match rule.target with
  | .cidr _ => .cidr
  | .securityGroupRef _ => if rule.resolved then .sgRefResolved else .sgRefUnresolved

/-- All rows of a split, each with its kind. -/
def taggedRows (rows : SgRuleRows) : List (SgRulePart × Row) :=
  rows.cidrRows.map (.cidr, ·) ++ rows.sgRefResolvedRows.map (.sgRefResolved, ·) ++
    rows.sgRefUnresolvedRows.map (.sgRefUnresolved, ·)

/-- The split has one row for each rule, of the rule's kind. -/
def RowPerRule (batches : List SgRuleBatch) : Prop :=
  (taggedRows (splitSgRuleRows batches)).Perm
    ((ownedRules batches).map fun owned => (sgRulePart owned.2, sgRuleRow owned.1 owned.2))

/-- Eight slices that carry a batch's edges. -/
structure HandsOver (batch : GraphBatch) (calls : EdgeCalls) : Prop where
  edges : calls.edges.Perm batch.edges
  ingress : GroupedByOwner (batch.edges.filterMap asAllowsIngress) (sgGroups calls.ingressBatches)
  egress : GroupedByOwner (batch.edges.filterMap asAllowsEgress) (sgGroups calls.egressBatches)
  nacl : GroupedByOwner (batch.edges.filterMap asHasRule) (naclGroups calls.naclBatches)
  unresolved : countUnresolved batch =
    calls.routesToEdges.countP (fun edge => !edge.resolved) +
      (ownedRules calls.ingressBatches).countP (fun owned => !owned.2.resolved) +
      (ownedRules calls.egressBatches).countP (fun owned => !owned.2.resolved)
  ingressGroups : SameGroups (groupRuleEdges batch.edges).ingress (sgGroups calls.ingressBatches)
  egressGroups : SameGroups (groupRuleEdges batch.edges).egress (sgGroups calls.egressBatches)
  naclGroups : SameGroups (groupRuleEdges batch.edges).nacl (naclGroups calls.naclBatches)
  ingressRows : RowPerRule calls.ingressBatches
  egressRows : RowPerRule calls.egressBatches

/-! ## Rows -/

private theorem sgRefRow_self {owned : String × SgRule} {refId : String}
    (target : owned.2.target = .securityGroupRef refId) (resolved : Bool) :
    sgRefRow resolved owned =
      if owned.2.resolved = resolved then some (sgRuleRow owned.1 owned.2) else none := by
  simp only [sgRefRow, sgRuleRow, target]

/-- Every rule becomes one row, of the kind its target and flag name. -/
theorem rowPerRule (batches : List SgRuleBatch) : RowPerRule batches := by
  rw [RowPerRule, splitSgRuleRows_eq]
  generalize ownedRules batches = rules
  induction rules with
  | nil => rfl
  | cons owned rules ih =>
    rw [taggedRows] at ih ⊢
    rcases target : owned.2.target with cidr | refId
    · have part : sgRulePart owned.2 = .cidr := by simp only [sgRulePart, target]
      have row : cidrRow owned = some (sgRuleRow owned.1 owned.2) := by
        simp only [cidrRow, sgRuleRow, target]
      have none (resolved : Bool) : sgRefRow resolved owned = .none := by
        simp only [sgRefRow, target]
      rw [List.filterMap_cons_some row, List.filterMap_cons_none (none true),
        List.filterMap_cons_none (none false), List.map_cons, List.map_cons, part]
      exact ih.cons _
    · have none : cidrRow owned = .none := by simp only [cidrRow, target]
      have row := sgRefRow_self target
      rcases resolved : owned.2.resolved with _ | _
      · have part : sgRulePart owned.2 = .sgRefUnresolved := by simp [sgRulePart, target, resolved]
        rw [List.filterMap_cons_none none, List.filterMap_cons_none (by rw [row, resolved]; rfl),
          List.filterMap_cons_some (by rw [row, resolved]; rfl), List.map_cons, List.map_cons, part]
        exact List.perm_middle.trans (ih.cons _)
      · have part : sgRulePart owned.2 = .sgRefResolved := by simp [sgRulePart, target, resolved]
        rw [List.filterMap_cons_none none, List.filterMap_cons_some (by rw [row, resolved]; rfl),
          List.filterMap_cons_none (by rw [row, resolved]; rfl), List.map_cons, List.map_cons, part,
          List.append_assoc, List.cons_append]
        rw [List.append_assoc] at ih
        exact List.perm_middle.trans (ih.cons _)

/-! ## Groups -/

section Groups

variable {V : Type}

private theorem groupedByOwner (pairs : List (String × V)) :
    GroupedByOwner pairs (groupBy pairs).toList := by
  refine ⟨Std.TreeMap.nodup_map_fst_toList _, fun owner rules => ?_⟩
  rw [Std.TreeMap.mem_toList_iff_getElem?_eq_some, getElem?_groupBy]
  have present : owner ∈ pairs.map Prod.fst ↔
      (pairs.filter fun pair => pair.1 = owner).map Prod.snd ≠ [] := by
    simp
  split
  · next member =>
    rw [Option.some_inj, eq_comm]
    refine (and_iff_right_of_imp ?_).symm
    rintro rfl
    exact present.mp member
  · next absent =>
    refine iff_of_false (by simp) ?_
    rintro ⟨nonempty, rfl⟩
    exact absent (present.mpr nonempty)

private theorem sgGroups_sgRuleBatches (pairs : List (String × SgRule)) :
    sgGroups (sgRuleBatches pairs) = (groupBy pairs).toList := by
  rw [sgGroups, sgRuleBatches, List.map_map]
  exact List.map_id _

private theorem naclGroups_naclRuleBatches (pairs : List (String × NaclRule)) :
    naclGroups (naclRuleBatches pairs) = (groupBy pairs).toList := by
  rw [naclGroups, naclRuleBatches, List.map_map]
  exact List.map_id _

private theorem ownedNaclRules_naclRuleBatches (pairs : List (String × NaclRule)) :
    ownedNaclRules (naclRuleBatches pairs) = regrouped pairs := by
  rw [ownedNaclRules, naclRuleBatches, regrouped, List.flatMap_map]

/-- The loop over the edges fills each map with the pairs of its kind. -/
private theorem foldl_groups_push (edges : List Edge) (groups : RuleEdgeGroups) :
    edges.foldl RuleEdgeGroups.push groups =
      { egress := (edges.filterMap asAllowsEgress).foldl (fun grouped pair =>
          grouped.alter pair.1 fun rules => some (rules.getD [] ++ [pair.2])) groups.egress
        ingress := (edges.filterMap asAllowsIngress).foldl (fun grouped pair =>
          grouped.alter pair.1 fun rules => some (rules.getD [] ++ [pair.2])) groups.ingress
        nacl := (edges.filterMap asHasRule).foldl (fun grouped pair =>
          grouped.alter pair.1 fun rules => some (rules.getD [] ++ [pair.2])) groups.nacl } := by
  induction edges generalizing groups with
  | nil => rfl
  | cons edge edges ih =>
    rw [List.foldl_cons, ih]
    cases edge <;> rfl

private theorem sameGroups (pairs : List (String × V)) :
    SameGroups (pairs.foldl (fun grouped pair =>
      grouped.alter pair.1 fun rules => some (rules.getD [] ++ [pair.2])) ∅) (groupBy pairs).toList := by
  have empty (k : String) : (∅ : Std.HashMap String (List V))[k]? = (∅ : Std.TreeMap String (List V))[k]? := by
    rw [Std.HashMap.getElem?_empty, Std.TreeMap.getElem?_emptyc]
  intro owner rules
  rw [Std.TreeMap.mem_toList_iff_getElem?_eq_some, groupBy,
    ← Std.TreeMap.getElem?_foldl_alter_hashMap pairs empty]

end Groups

/-! ## Edges -/

private theorem count_map_filterMap {V : Type} {as : Edge → Option V} {mk : V → Edge}
    (inverse : ∀ edge value, as edge = some value → mk value = edge) (edges : List Edge) (edge : Edge) :
    ((edges.filterMap as).map mk).count edge =
      if (as edge).isSome then edges.count edge else 0 := by
  have kept : (edges.filterMap as).map mk = edges.filter fun edge => (as edge).isSome := by
    rw [List.map_filterMap, ← List.filterMap_eq_filter]
    refine List.filterMap_congr fun edge _ => ?_
    cases value : as edge with
    | none => simp [Option.guard, value]
    | some v => simp [Option.guard, value, inverse edge v value]
  rw [kept]
  split
  · next present => exact List.count_filter present
  · next absent => exact List.count_eq_zero.mpr fun member => absent (List.mem_filter.mp member).2

/-- The slices a batch is sorted into. -/
def edgeCalls (batch : GraphBatch) : EdgeCalls where
  hasSgEdges := batch.edges.filterMap asHasSg
  inSubnetEdges := batch.edges.filterMap asInSubnet
  protectedByEdges := batch.edges.filterMap asProtectedBy
  usesRouteTableEdges := batch.edges.filterMap asUsesRouteTable
  routesToEdges := batch.edges.filterMap asRoutesTo
  ingressBatches := sgRuleBatches (batch.edges.filterMap asAllowsIngress)
  egressBatches := sgRuleBatches (batch.edges.filterMap asAllowsEgress)
  naclBatches := naclRuleBatches (batch.edges.filterMap asHasRule)

theorem edgeCalls_upserts (batch : GraphBatch) : (edgeCalls batch).upserts batch = upserts batch := by
  rw [upserts, sortEdges_eq]
  rfl

/-- No edge is lost, repeated or moved. -/
theorem edgeCalls_edges_perm (batch : GraphBatch) : (edgeCalls batch).edges.Perm batch.edges := by
  have grouped : (edgeCalls batch).edges.Perm
      ((batch.edges.filterMap asHasSg).map .hasSg ++ (batch.edges.filterMap asInSubnet).map .inSubnet ++
        (batch.edges.filterMap asProtectedBy).map .protectedBy ++
        (batch.edges.filterMap asUsesRouteTable).map .usesRouteTable ++
        (batch.edges.filterMap asRoutesTo).map .routesTo ++
        (batch.edges.filterMap asAllowsIngress).map (fun owned => .allowsIngress owned.1 owned.2) ++
        (batch.edges.filterMap asAllowsEgress).map (fun owned => .allowsEgress owned.1 owned.2) ++
        (batch.edges.filterMap asHasRule).map fun owned => .hasRule owned.1 owned.2) := by
    simp only [EdgeCalls.edges, edgeCalls, ownedRules_sgRuleBatches, ownedNaclRules_naclRuleBatches]
    exact (((List.Perm.refl _).append ((regrouped_perm _).map _)).append ((regrouped_perm _).map _)).append
      ((regrouped_perm _).map _)
  refine grouped.trans (List.perm_iff_count.mpr fun edge => ?_)
  simp only [List.count_append]
  rw [count_map_filterMap fun _ _ found => (asHasSg_eq_some found).symm,
    count_map_filterMap fun _ _ found => (asInSubnet_eq_some found).symm,
    count_map_filterMap fun _ _ found => (asProtectedBy_eq_some found).symm,
    count_map_filterMap fun _ _ found => (asUsesRouteTable_eq_some found).symm,
    count_map_filterMap fun _ _ found => (asRoutesTo_eq_some found).symm,
    count_map_filterMap fun _ _ found => (asAllowsIngress_eq_some found).symm,
    count_map_filterMap fun _ _ found => (asAllowsEgress_eq_some found).symm,
    count_map_filterMap fun _ _ found => (asHasRule_eq_some found).symm]
  cases edge <;>
    simp [asHasSg, asInSubnet, asProtectedBy, asUsesRouteTable, asRoutesTo, asAllowsIngress, asAllowsEgress,
      asHasRule]

/-- What is counted as unresolved is what is handed over unresolved. -/
theorem countUnresolved_eq {batch : GraphBatch} {calls : EdgeCalls}
    (edges : calls.edges.Perm batch.edges) : countUnresolved batch =
    calls.routesToEdges.countP (fun edge => !edge.resolved) +
      (ownedRules calls.ingressBatches).countP (fun owned => !owned.2.resolved) +
      (ownedRules calls.egressBatches).countP (fun owned => !owned.2.resolved) := by
  have never {α : Type} (l : List α) : l.countP (fun _ => false) = 0 := List.countP_eq_zero.mpr (by simp)
  rw [countUnresolved, ← edges.countP_eq, EdgeCalls.edges]
  simp only [List.countP_append, List.countP_map, Function.comp_def, countsAsUnresolved, never, Nat.zero_add,
    Nat.add_zero]

/-- Writing a batch hands every edge to the writer exactly once. -/
theorem writeBatch_handsOver (batch : GraphBatch) :
    ∃ calls : EdgeCalls, HandsOver batch calls ∧
      ∀ (σ ε : Type) (writer : GraphWriter σ ε) (state : σ),
        writeBatchWith writer.recording batch (state, []) =
          (writeBatchWith writer batch state).map fun state => (state, calls.upserts batch) := by
  refine ⟨edgeCalls batch, ?_, fun σ ε writer state => ?_⟩
  · have edges := edgeCalls_edges_perm batch
    have groups := foldl_groups_push batch.edges ⟨∅, ∅, ∅⟩
    exact {
      edges
      ingress := by
        rw [edgeCalls, sgGroups_sgRuleBatches]
        exact groupedByOwner _
      egress := by
        rw [edgeCalls, sgGroups_sgRuleBatches]
        exact groupedByOwner _
      nacl := by
        rw [edgeCalls, naclGroups_naclRuleBatches]
        exact groupedByOwner _
      unresolved := countUnresolved_eq edges
      ingressGroups := by
        rw [edgeCalls, sgGroups_sgRuleBatches, groupRuleEdges, groups]
        exact sameGroups _
      egressGroups := by
        rw [edgeCalls, sgGroups_sgRuleBatches, groupRuleEdges, groups]
        exact sameGroups _
      naclGroups := by
        rw [edgeCalls, naclGroups_naclRuleBatches, groupRuleEdges, groups]
        exact sameGroups _
      ingressRows := rowPerRule _
      egressRows := rowPerRule _ }
  · rw [writeBatchWith_recording, edgeCalls_upserts]

end NetHound.Soundness
