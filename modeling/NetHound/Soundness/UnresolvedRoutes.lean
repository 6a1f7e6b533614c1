import NetHound.Evaluate.Engine
import NetHound.Evaluate.Footprint
import NetHound.Ingest.Pipeline

/-! # Routes whose target is unknown

An unresolved route stays in the graph as a self-loop of its table, but the query for route targets reads
resolved routes only, so assembly sees no difference between a route it could not follow and no route at
all. The engine then reports the path as not reachable before it has looked at a layer. What the
documentation asks for, that an unresolved route is never taken for a deny, holds of a pair exactly when
it does not depend on such a route or one of its layers blocks the traffic anyway.
-/

namespace NetHound.Soundness

open Domain Net Evaluate Graph Cypher Ingest

/-- The candidate assembly makes of a pair of interfaces of a graph. -/
def AssembledFrom (graph : Neo4jGraph) (boundaryId : String) (selectors : BoundarySelectors)
    (source destination : EniNode) (candidate : PathCandidate) : Prop :=
  ∃ enis, fetchEnis graph = .ok enis ∧ source ∈ enis ∧ destination ∈ enis ∧
    Paired selectors source destination ∧
    pairCandidate boundaryId (fetchRouteTableTargets graph) source destination = some candidate

/-- Every assembled candidate is that of a pair, and every pair has its own. -/
theorem mem_assembleCandidates_iff {graph : Neo4jGraph} {boundaryId : String}
    {selectors : BoundarySelectors} {candidates : List PathCandidate}
    (assembled : assembleCandidates graph boundaryId selectors = .ok candidates)
    {candidate : PathCandidate} :
    candidate ∈ candidates ↔ ∃ source destination,
      AssembledFrom graph boundaryId selectors source destination candidate := by
  obtain ⟨enis, fetched, same⟩ := Except.bind_eq_ok_iff.mp assembled
  cases same
  rw [mem_pairCandidates_iff]
  constructor
  · rintro ⟨source, inEnis, destination, inEnis', paired, built⟩
    exact ⟨source, destination, enis, fetched, inEnis, inEnis', paired, built⟩
  · rintro ⟨source, destination, enis', fetched', inEnis, inEnis', paired, built⟩
    rw [fetched] at fetched'
    cases fetched'
    exact ⟨source, inEnis, destination, inEnis', paired, built⟩

def UnresolvedRoute (r : Relationship Label RelType Field BoltType) : Prop :=
  r.relType = .routesTo ∧ r.props .resolved = some (.boolean false)

instance (r : Relationship Label RelType Field BoltType) : Decidable (UnresolvedRoute r) :=
  inferInstanceAs (Decidable (_ ∧ _))

/-- Route targets do not depend on unresolved routes. -/
theorem fetchRouteTableTargets_forget_unresolved (graph : Neo4jGraph) :
    fetchRouteTableTargets (graph.restrict fun r => ¬ UnresolvedRoute r) =
      fetchRouteTableTargets graph := by
  funext routeTableId
  rw [fetchRouteTableTargets, fetchRouteTableTargets, resolvedTargets_restrict]
  intro r _ _ _ resolved
  refine decide_eq_true fun unresolved => ?_
  rw [unresolved.2] at resolved
  cases resolved

/-- The interfaces are in different subnets, no resolved route joins them, and the source's route table
has a route whose target is unknown. -/
def AwaitsRoute (graph : Neo4jGraph) (source destination : EniNode) : Prop :=
  source.subnetId ≠ destination.subnetId ∧
    routeExists source destination (fetchRouteTableTargets graph) = false ∧
    ∃ routeTableId, source.routeTableId = some routeTableId ∧
      ∃ r ∈ graph.relationships, UnresolvedRoute r ∧ r.source = ⟨.routeTable, routeTableId⟩

/-- The rules of a layer neither admit the traffic nor leave it undecided. -/
def layerBlocks (candidate : PathCandidate) (layer : EvaluationLayer) : Prop :=
  ¬ layerAdmits candidate layer ∧ ¬ layerUndecided candidate layer

theorem layerVerdict_kind_no_iff (candidate : PathCandidate) (layer : EvaluationLayer) :
    (layerVerdict candidate layer).kind = .no ↔ layerBlocks candidate layer := by
  rw [layerBlocks, ← layerVerdict_kind_yes_iff, ← layerVerdict_kind_unknown_iff]
  cases (layerVerdict candidate layer).kind <;> decide

/-- An unresolved route is not taken for a deny exactly when the pair does not wait for one, or a layer
blocks the traffic by its own rules. -/
theorem awaited_route_denied_iff {graph : Neo4jGraph} {boundaryId : String} {selectors : BoundarySelectors}
    {source destination : EniNode} {candidate : PathCandidate}
    (pair : AssembledFrom graph boundaryId selectors source destination candidate) (computedAt : String) :
    (AwaitsRoute graph source destination →
        (evaluateCandidate computedAt candidate).reachability = .notReachable →
          ∃ layer ∈ layerOrder, (layerVerdict candidate layer).kind = .no) ↔
      ¬ AwaitsRoute graph source destination ∨ ∃ layer ∈ layerOrder, layerBlocks candidate layer := by
  obtain ⟨_, _, _, _, _, built⟩ := pair
  have denied : AwaitsRoute graph source destination →
      (evaluateCandidate computedAt candidate).reachability = .notReachable := by
    rintro ⟨_, unrouted, _⟩
    apply reachability_no_route
    rw [pairCandidate, Option.map_eq_some_iff] at built
    obtain ⟨_, _, rfl⟩ := built
    exact unrouted
  simp only [layerVerdict_kind_no_iff]
  constructor
  · intro honest
    by_cases awaits : AwaitsRoute graph source destination
    · exact Or.inr (honest awaits (denied awaits))
    · exact Or.inl awaits
  · rintro (joined | blocks) awaits _
    · exact absurd awaits joined
    · exact blocks

/-! ## A peering that was not followed -/

private def everything (direction : Direction) : SgRule :=
  ⟨direction, "-1", (PortRange.new 0 65535).toOption, .cidr "0.0.0.0/0", true⟩

private def peeringBatch (egress : List SgRule) : GraphBatch :=
  { enis := [⟨"eni-1", "111122223333", "vpc-1", "subnet-1", "10.0.0.5", none⟩,
      ⟨"eni-2", "111122223333", "vpc-2", "subnet-2", "10.1.0.5", none⟩]
    securityGroups := [⟨"sg-1", "111122223333", "vpc-1", "app", none⟩,
      ⟨"sg-2", "111122223333", "vpc-2", "data", none⟩]
    networkAcls := [⟨"acl-1", "111122223333", "vpc-1", true⟩]
    subnets := [⟨"subnet-1", "111122223333", "vpc-1", "10.0.0.0/24", "a"⟩,
      ⟨"subnet-2", "111122223333", "vpc-2", "10.1.0.0/24", "a"⟩]
    vpcs := [⟨"vpc-1", "111122223333", "10.0.0.0/16"⟩, ⟨"vpc-2", "111122223333", "10.1.0.0/16"⟩]
    routeTables := [⟨"rtb-1", "111122223333", "vpc-1", true⟩, ⟨"rtb-2", "111122223333", "vpc-2", true⟩]
    edges := [.hasSg ⟨"eni-1", "sg-1"⟩, .hasSg ⟨"eni-2", "sg-2"⟩,
      .inSubnet ⟨"eni-1", "subnet-1"⟩, .inSubnet ⟨"eni-2", "subnet-2"⟩,
      .protectedBy ⟨"subnet-1", "acl-1"⟩, .protectedBy ⟨"subnet-2", "acl-1"⟩,
      .usesRouteTable ⟨"subnet-1", "rtb-1"⟩, .usesRouteTable ⟨"subnet-2", "rtb-2"⟩,
      .routesTo ⟨"rtb-1", "10.1.0.0/16", none, false⟩,
      .hasRule "acl-1" ⟨100, .ingress, "-1", none, "0.0.0.0/0", .allow⟩,
      .hasRule "acl-1" ⟨101, .egress, "-1", none, "0.0.0.0/0", .allow⟩,
      .allowsIngress "sg-2" (everything .ingress)] ++ egress.map (.allowsEgress "sg-1") }

private def peeringGraph (egress : List SgRule) : Neo4jGraph :=
  match writeBatch (peeringBatch egress) PropertyGraph.empty with
  | .ok graph => graph
  | .error failure => failure.graph

private def openAcl : List NaclRule :=
  [⟨100, .ingress, "-1", none, "0.0.0.0/0", .allow⟩, ⟨101, .egress, "-1", none, "0.0.0.0/0", .allow⟩]

private def appEni (egress : List SgRule) : EniNode :=
  ⟨"eni-1", "vpc-1", "subnet-1", "10.0.0.5", ["sg-1"], egress, [], openAcl, some "rtb-1"⟩

private def dataEni : EniNode :=
  ⟨"eni-2", "vpc-2", "subnet-2", "10.1.0.5", ["sg-2"], [], [everything .ingress], openAcl, some "rtb-2"⟩

private def peeringCandidate (egress : List SgRule) : PathCandidate where
  source := (appEni egress).sourceEndpoint
  destination := dataEni.destinationEndpoint
  routeExists := false
  traffic := worstCaseTraffic (.v4 0x0A000005)
  destinationBoundary := "boundary"

private theorem assembledFrom_peering {egress : List SgRule}
    (fetched : (fetchEnis (peeringGraph egress)).toOption = some [appEni egress, dataEni])
    (unrouted : routeExists (appEni egress) dataEni (fetchRouteTableTargets (peeringGraph egress)) = false) :
    AssembledFrom (peeringGraph egress) "boundary" ⟨["vpc-2"], [], []⟩ (appEni egress) dataEni
      (peeringCandidate egress) := by
  rcases read : fetchEnis (peeringGraph egress) with error | enis
  · rw [read] at fetched
    cases fetched
  · rw [read] at fetched
    cases fetched
    refine ⟨_, read, List.mem_cons_self, List.mem_cons_of_mem _ List.mem_cons_self, ?_, ?_⟩
    · have outside : "vpc-1" ∉ ["vpc-2"] := by decide
      exact ⟨outside, by decide⟩
    · have parsed : parseIpAddr (appEni egress).privateIp = some (.v4 0x0A000005) :=
        show parseIpAddr "10.0.0.5" = _ by decide
      rw [pairCandidate, unrouted, parsed]
      rfl

/-- A closed egress layer blocks the pair whatever the route would have been. -/
theorem awaited_route_denied_closed :
    (AwaitsRoute (peeringGraph []) (appEni []) dataEni →
        (evaluateCandidate "" (peeringCandidate [])).reachability = .notReachable →
          ∃ layer ∈ layerOrder, (layerVerdict (peeringCandidate []) layer).kind = .no) ↔
      ¬ AwaitsRoute (peeringGraph []) (appEni []) dataEni ∨
        ∃ layer ∈ layerOrder, layerBlocks (peeringCandidate []) layer :=
  awaited_route_denied_iff (assembledFrom_peering (by decide) (by decide)) ""

/-- With every layer open, the unresolved peering alone makes the pair not reachable. -/
theorem awaited_route_denied_open :
    ¬ ∀ (graph : Neo4jGraph) (boundaryId : String) (selectors : BoundarySelectors)
        (source destination : EniNode) (candidate : PathCandidate),
      AssembledFrom graph boundaryId selectors source destination candidate →
        ∀ computedAt, AwaitsRoute graph source destination →
          (evaluateCandidate computedAt candidate).reachability = .notReachable →
            ∃ layer ∈ layerOrder, (layerVerdict candidate layer).kind = .no := by
  intro holds
  have unrouted : routeExists (appEni [everything .egress]) dataEni
      (fetchRouteTableTargets (peeringGraph [everything .egress])) = false := by decide
  have awaits : AwaitsRoute (peeringGraph [everything .egress]) (appEni [everything .egress]) dataEni :=
    ⟨by decide, unrouted, "rtb-1", rfl, by decide⟩
  have denied := holds _ _ _ _ _ _ (assembledFrom_peering (by decide) unrouted) "" awaits (by decide)
  revert denied
  decide

end NetHound.Soundness
