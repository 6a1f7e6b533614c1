import Mathlib.Data.List.Perm.Basic
import NetHound.Evaluate.Path

/-! # Pairing endpoints into path candidates

The part of `evaluate/candidates.rs` that no longer touches the graph: the endpoints read off it
are split by the boundary's VPC selector and paired destination by destination. A route table's
resolved targets are a partial map from its id.
-/

namespace NetHound.Evaluate

open Domain Net

/-- The selector lists of a boundary; only `vpcIds` has graph data to match. -/
structure BoundarySelectors where
  vpcIds : List String
  cidrs : List String
  tags : List String
deriving DecidableEq, Repr

/-- One interface's endpoint shape as read off the graph. -/
structure EniNode where
  id : String
  vpcId : String
  subnetId : String
  privateIp : String
  securityGroupIds : List String
  egressRules : List SgRule
  ingressRules : List SgRule
  naclRules : List NaclRule
  routeTableId : Option String
deriving DecidableEq, Repr

def EniNode.sourceEndpoint (eni : EniNode) : EndpointCandidate where
  eniId := eni.id
  peerSecurityGroupIds := eni.securityGroupIds
  securityGroupRules := eni.egressRules
  subnetId := eni.subnetId
  naclRules := eni.naclRules

def EniNode.destinationEndpoint (eni : EniNode) : EndpointCandidate where
  eniId := eni.id
  peerSecurityGroupIds := eni.securityGroupIds
  securityGroupRules := eni.ingressRules
  subnetId := eni.subnetId
  naclRules := eni.naclRules

/-- The resolved target VPCs of each route table that has any. -/
abbrev RouteTargets := String → Option (List String)

def routeExists (source destination : EniNode) (routeTargets : RouteTargets) : Bool :=
  if source.subnetId = destination.subnetId then true
  else
    match source.routeTableId, destination.routeTableId with
    | some sourceRt, some destinationRt =>
        match routeTargets sourceRt with
        | none => false
        | some sourceTargets =>
            match routeTargets destinationRt with
            | none => false
            | some destinationTargets =>
                sourceTargets.any fun vpcId =>
                  destinationTargets.contains vpcId || vpcId == destination.vpcId
    | _, _ => false

/-- The fixed worst-case traffic of every candidate. -/
def worstCaseTraffic (peerAddress : IpAddr) : Traffic := ⟨.all, none, peerAddress⟩

/-- The candidate of one pair; a source whose address does not parse is skipped. -/
def pairCandidate (boundaryId : String) (routeTargets : RouteTargets) (source destination : EniNode) :
    Option PathCandidate :=
  (parseIpAddr source.privateIp).map fun peerAddress =>
    { source := source.sourceEndpoint
      destination := destination.destinationEndpoint
      routeExists := routeExists source destination routeTargets
      traffic := worstCaseTraffic peerAddress
      destinationBoundary := boundaryId }

/-- The pairing loop of `assemble_candidates`, outer over destinations. -/
def pairCandidates (boundaryId : String) (selectors : BoundarySelectors) (routeTargets : RouteTargets)
    (enis : List EniNode) : List PathCandidate :=
  let (destinations, sources) := enis.partition fun eni => selectors.vpcIds.contains eni.vpcId
  destinations.flatMap fun destination =>
    sources.filterMap fun source => pairCandidate boundaryId routeTargets source destination

/-- An interface outside the boundary and one inside it. -/
def Paired (selectors : BoundarySelectors) (source destination : EniNode) : Prop :=
  source.vpcId ∉ selectors.vpcIds ∧ destination.vpcId ∈ selectors.vpcIds

instance (selectors : BoundarySelectors) (source destination : EniNode) :
    Decidable (Paired selectors source destination) :=
  inferInstanceAs (Decidable (_ ∧ _))

/-- Assembly yields exactly the candidates of the pairs across the boundary. -/
theorem mem_pairCandidates_iff {boundaryId : String} {selectors : BoundarySelectors}
    {routeTargets : RouteTargets} {enis : List EniNode} {candidate : PathCandidate} :
    candidate ∈ pairCandidates boundaryId selectors routeTargets enis ↔
      ∃ source ∈ enis, ∃ destination ∈ enis, Paired selectors source destination ∧
        pairCandidate boundaryId routeTargets source destination = some candidate := by
  simp only [pairCandidates, List.partition_eq_filter_filter, List.mem_flatMap, List.mem_filter,
    List.mem_filterMap, Function.comp_apply, List.contains_eq_mem, decide_eq_true_eq,
    Bool.not_eq_true', decide_eq_false_iff_not, Paired]
  constructor
  · rintro ⟨destination, ⟨inEnis, inside⟩, source, ⟨inEnis', outside⟩, built⟩
    exact ⟨source, inEnis', destination, inEnis, ⟨outside, inside⟩, built⟩
  · rintro ⟨source, inEnis', destination, inEnis, ⟨outside, inside⟩, built⟩
    exact ⟨destination, ⟨inEnis, inside⟩, source, ⟨inEnis', outside⟩, built⟩

/-- The order of the endpoints only orders the candidates. -/
theorem pairCandidates_perm (boundaryId : String) (selectors : BoundarySelectors)
    (routeTargets : RouteTargets) {enis enis' : List EniNode} (perm : enis.Perm enis') :
    (pairCandidates boundaryId selectors routeTargets enis).Perm
      (pairCandidates boundaryId selectors routeTargets enis') := by
  simp only [pairCandidates, List.partition_eq_filter_filter]
  exact (perm.filter _).flatMap fun _ _ => (perm.filter _).filterMap _

end NetHound.Evaluate
