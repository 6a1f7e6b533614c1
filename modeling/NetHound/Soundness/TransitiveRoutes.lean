import NetHound.Evaluate.Assembly

/-! # Routes over a third VPC

The documentation promises that only a route to the destination's own VPC counts and that a route across
VPCs is never guessed. The membership test has a second disjunct: it also accepts a VPC that both route
tables lead to. Where that VPC is not the destination's, a peering to a shared hub is taken for a route
between its spokes. A pair in different subnets keeps the promise exactly when no such third VPC is
shared or the source has the direct route besides.
-/

namespace NetHound.Soundness

open Domain Net Evaluate Graph Cypher

variable {source destination : EniNode} {routeTargets : RouteTargets}

/-- The interface's route table has a resolved route to a VPC. -/
def RoutesTo (routeTargets : RouteTargets) (eni : EniNode) (vpcId : String) : Prop :=
  ∃ routeTableId targets, eni.routeTableId = some routeTableId ∧
    routeTargets routeTableId = some targets ∧ vpcId ∈ targets

/-- The interface's route table has a row of resolved routes at all. -/
def HasRoutes (routeTargets : RouteTargets) (eni : EniNode) : Prop :=
  ∃ routeTableId targets, eni.routeTableId = some routeTableId ∧ routeTargets routeTableId = some targets

/-- Both route tables lead to one VPC that is not the destination's. -/
def SharesThirdVpc (routeTargets : RouteTargets) (source destination : EniNode) : Prop :=
  ∃ vpcId, vpcId ≠ destination.vpcId ∧ RoutesTo routeTargets source vpcId ∧
    RoutesTo routeTargets destination vpcId

private theorem RoutesTo.hasRoutes {eni : EniNode} {vpcId : String}
    (routed : RoutesTo routeTargets eni vpcId) : HasRoutes routeTargets eni := by
  obtain ⟨routeTableId, targets, table, row, -⟩ := routed
  exact ⟨routeTableId, targets, table, row⟩

private theorem routesTo_of_row {eni : EniNode} {routeTableId vpcId : String} {targets : List String}
    (table : eni.routeTableId = some routeTableId) (row : routeTargets routeTableId = some targets) :
    RoutesTo routeTargets eni vpcId ↔ vpcId ∈ targets := by
  constructor
  · rintro ⟨routeTableId', targets', table', row', listed⟩
    rw [table] at table'
    cases table'
    rw [row] at row'
    cases row'
    exact listed
  · intro listed
    exact ⟨routeTableId, targets, table, row, listed⟩

/-- Across subnets a route is found exactly when both tables have resolved routes and some target of the
source's is a target of the destination's or the destination's VPC. -/
theorem routeExists_iff (apart : source.subnetId ≠ destination.subnetId) :
    routeExists source destination routeTargets = true ↔
      HasRoutes routeTargets destination ∧ ∃ vpcId, RoutesTo routeTargets source vpcId ∧
        (RoutesTo routeTargets destination vpcId ∨ vpcId = destination.vpcId) := by
  constructor
  · intro found
    rw [routeExists, if_neg apart] at found
    split at found
    · rename_i sourceRt destinationRt sourceTable destinationTable
      split at found
      · cases found
      · rename_i sourceTargets sourceRow
        split at found
        · cases found
        · rename_i destinationTargets destinationRow
          simp only [List.any_eq_true, Bool.or_eq_true, List.contains_iff_mem, beq_iff_eq] at found
          obtain ⟨vpcId, listed, shared⟩ := found
          refine ⟨⟨_, _, destinationTable, destinationRow⟩, vpcId,
            (routesTo_of_row sourceTable sourceRow).mpr listed, ?_⟩
          rwa [routesTo_of_row destinationTable destinationRow]
    · cases found
  · rintro ⟨⟨destinationRt, destinationTargets, destinationTable, destinationRow⟩, vpcId,
      ⟨sourceRt, sourceTargets, sourceTable, sourceRow, listed⟩, shared⟩
    rw [routesTo_of_row destinationTable destinationRow] at shared
    rw [routeExists, if_neg apart, sourceTable, destinationTable]
    simp only [sourceRow, destinationRow, List.any_eq_true, Bool.or_eq_true, List.contains_iff_mem,
      beq_iff_eq]
    exact ⟨vpcId, listed, shared⟩

/-- A shared third VPC is always taken for a route. -/
theorem routeExists_of_sharesThirdVpc (apart : source.subnetId ≠ destination.subnetId)
    (shared : SharesThirdVpc routeTargets source destination) :
    routeExists source destination routeTargets = true := by
  obtain ⟨vpcId, -, toHub, fromHub⟩ := shared
  rw [routeExists_iff apart]
  exact ⟨fromHub.hasRoutes, vpcId, toHub, .inl fromHub⟩

/-- A route between subnets is one to the destination's own VPC exactly when the two tables share no
third VPC, or the direct route stands besides. -/
theorem routeExists_direct_iff (apart : source.subnetId ≠ destination.subnetId) :
    (routeExists source destination routeTargets = true →
        RoutesTo routeTargets source destination.vpcId) ↔
      ¬ SharesThirdVpc routeTargets source destination ∨
        RoutesTo routeTargets source destination.vpcId := by
  constructor
  · intro onlyDirect
    rw [or_iff_not_imp_left, not_not]
    intro shared
    apply onlyDirect
    apply routeExists_of_sharesThirdVpc apart shared
  · rintro (unshared | direct) found
    · obtain ⟨-, vpcId, toVpc, shared⟩ := (routeExists_iff apart).mp found
      by_cases own : vpcId = destination.vpcId
      · rwa [own] at toVpc
      · exact absurd ⟨vpcId, own, toVpc, shared.resolve_right own⟩ unshared
    · exact direct

section Hub

private def spoke (id vpcId subnetId : String) (routeTableId : String) : EniNode where
  id
  vpcId
  subnetId
  privateIp := "10.0.0.10"
  securityGroupIds := []
  egressRules := []
  ingressRules := []
  naclRules := []
  routeTableId := some routeTableId

/-- Two spokes peered with one hub and not with each other. -/
private def hubTargets : RouteTargets
  | "rtb-a" => some ["vpc-a", "vpc-hub"]
  | "rtb-c" => some ["vpc-c", "vpc-hub"]
  | _ => none

private theorem spoke_not_direct :
    ¬ RoutesTo hubTargets (spoke "eni-a" "vpc-a" "subnet-a" "rtb-a") "vpc-c" := by
  have row : hubTargets "rtb-a" = some ["vpc-a", "vpc-hub"] := rfl
  rw [routesTo_of_row rfl row]
  decide

theorem routeExists_hub : ¬ ∀ (source destination : EniNode) (routeTargets : RouteTargets),
    source.subnetId ≠ destination.subnetId → routeExists source destination routeTargets = true →
      RoutesTo routeTargets source destination.vpcId := by
  intro onlyDirect
  exact spoke_not_direct (onlyDirect (spoke "eni-a" "vpc-a" "subnet-a" "rtb-a")
    (spoke "eni-c" "vpc-c" "subnet-c" "rtb-c") hubTargets (by decide) (by decide))

theorem routeExists_direct_hub :
    (routeExists (spoke "eni-a" "vpc-a" "subnet-a" "rtb-a") (spoke "eni-c" "vpc-c" "subnet-c" "rtb-c")
        hubTargets = true → RoutesTo hubTargets (spoke "eni-a" "vpc-a" "subnet-a" "rtb-a") "vpc-c") ↔
      ¬ SharesThirdVpc hubTargets (spoke "eni-a" "vpc-a" "subnet-a" "rtb-a")
          (spoke "eni-c" "vpc-c" "subnet-c" "rtb-c") ∨
        RoutesTo hubTargets (spoke "eni-a" "vpc-a" "subnet-a" "rtb-a") "vpc-c" :=
  routeExists_direct_iff (by decide)

end Hub

/-! ## On the graph -/

private theorem mem_resolvedTargets_iff (graph : Neo4jGraph) (routeTableId vpcId : String) :
    vpcId ∈ resolvedTargets graph routeTableId ↔
      ∃ r ∈ graph.relationships, r.relType = .routesTo ∧ r.source = ⟨.routeTable, routeTableId⟩ ∧
        r.target = ⟨.vpc, vpcId⟩ ∧ r.props .resolved = some (.boolean true) := by
  rw [resolvedTargets, List.mem_dedup, List.mem_filterMap]
  constructor
  · rintro ⟨r, member, taken⟩
    split_ifs at taken with chosen
    obtain ⟨relType, source, label, resolved⟩ := chosen
    refine ⟨r, member, relType, source, ?_, resolved⟩
    rw [← label, ← Option.some.inj taken]
  · rintro ⟨r, member, relType, source, target, resolved⟩
    refine ⟨r, member, ?_⟩
    rw [if_pos ⟨relType, source, by rw [target], resolved⟩, target]

private theorem fetchRouteTableTargets_row_iff (graph : Neo4jGraph) (routeTableId vpcId : String) :
    (∃ targets, fetchRouteTableTargets graph routeTableId = some targets ∧ vpcId ∈ targets) ↔
      vpcId ∈ resolvedTargets graph routeTableId := by
  rw [fetchRouteTableTargets]
  cases resolvedTargets graph routeTableId with
  | nil => simp
  | cons first rest => simp

/-- On a graph, the route to a VPC is a resolved `ROUTES_TO` relationship from the table to it. -/
theorem routesTo_fetchRouteTableTargets_iff (graph : Neo4jGraph) (eni : EniNode) (vpcId : String) :
    RoutesTo (fetchRouteTableTargets graph) eni vpcId ↔
      ∃ routeTableId, eni.routeTableId = some routeTableId ∧ ∃ r ∈ graph.relationships,
        r.relType = .routesTo ∧ r.source = ⟨.routeTable, routeTableId⟩ ∧ r.target = ⟨.vpc, vpcId⟩ ∧
          r.props .resolved = some (.boolean true) := by
  simp only [← mem_resolvedTargets_iff, ← fetchRouteTableTargets_row_iff]
  constructor
  · rintro ⟨routeTableId, targets, table, found, member⟩
    exact ⟨routeTableId, table, targets, found, member⟩
  · rintro ⟨routeTableId, table, targets, found, member⟩
    exact ⟨routeTableId, targets, table, found, member⟩

end NetHound.Soundness
