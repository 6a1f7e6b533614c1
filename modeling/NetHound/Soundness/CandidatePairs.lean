import Mathlib.Data.List.ProdSigma
import NetHound.Evaluate.Assembly
import NetHound.ToMathlib.ListPieces

/-! # One candidate for each pair

Assembly pairs every endpoint inside the boundary with every one outside it whose address parses, once,
and reads the two ends of each candidate off the two endpoints. With distinct ids no pair is lost,
repeated or mixed up, and the order of the rows only orders the candidates.
-/

namespace NetHound.Soundness

open Domain Net Graph Evaluate

/-- `assemble_candidates` on what the two queries return. -/
def assembleRows (boundaryId : String) (selectors : BoundarySelectors) (routeTargets : RouteTargets)
    (rows : List EniRow) : Except CandidateAssemblyError (List PathCandidate) := do
  let enis ← rows.mapM eniFromRow
  return pairCandidates boundaryId selectors routeTargets enis

theorem assembleCandidates_eq (graph : Neo4jGraph) (boundaryId : String) (selectors : BoundarySelectors) :
    assembleCandidates graph boundaryId selectors =
      assembleRows boundaryId selectors (fetchRouteTableTargets graph) (eniRows graph) := rfl

/-- The interfaces of a candidate, source first. -/
def endIds (candidate : PathCandidate) : String × String :=
  (candidate.source.eniId, candidate.destination.eniId)

/-- The candidate's ends are those two endpoints, seen from their own side. -/
structure Joins (source destination : EniNode) (candidate : PathCandidate) : Prop where
  sourceId : candidate.source.eniId = source.id
  sourceRules : candidate.source.securityGroupRules = source.egressRules
  sourceGroups : candidate.source.peerSecurityGroupIds = source.securityGroupIds
  sourceSubnet : candidate.source.subnetId = source.subnetId
  sourceNaclRules : candidate.source.naclRules = source.naclRules
  destinationId : candidate.destination.eniId = destination.id
  destinationRules : candidate.destination.securityGroupRules = destination.ingressRules
  destinationGroups : candidate.destination.peerSecurityGroupIds = destination.securityGroupIds
  destinationSubnet : candidate.destination.subnetId = destination.subnetId
  destinationNaclRules : candidate.destination.naclRules = destination.naclRules

/-- A pair across the boundary whose source has an address. -/
def Pairable (selectors : BoundarySelectors) (source destination : EniNode) : Prop :=
  Paired selectors source destination ∧ (parseIpAddr source.privateIp).isSome

/-- Some row reads as the endpoint. -/
def Read (rows : List EniRow) (eni : EniNode) : Prop := ∃ row ∈ rows, eniFromRow row = .ok eni

/-- The candidates are those of the pairs that can be formed, each once. -/
structure AssembledExactly (boundaryId : String) (selectors : BoundarySelectors)
    (routeTargets : RouteTargets) (rows : List EniRow) (candidates : List PathCandidate) : Prop where
  once : ∀ source destination, Read rows source → Read rows destination →
    Pairable selectors source destination → (candidates.map endIds).count (source.id, destination.id) = 1
  noOther : ∀ candidate ∈ candidates, ∃ source destination, Read rows source ∧ Read rows destination ∧
    Pairable selectors source destination ∧ Joins source destination candidate
  joined : ∀ source destination, Read rows source → Read rows destination →
    ∀ candidate ∈ candidates, endIds candidate = (source.id, destination.id) →
      Joins source destination candidate
  notSelf : ∀ candidate ∈ candidates, candidate.source.eniId ≠ candidate.destination.eniId
  reordered : ∀ rows', rows.Perm rows' → ∃ candidates',
    assembleRows boundaryId selectors routeTargets rows' = .ok candidates' ∧ candidates.Perm candidates'

/-! ## Pairs of endpoints -/

section Endpoints

variable {boundaryId : String} {selectors : BoundarySelectors} {routeTargets : RouteTargets}
  {enis : List EniNode}

theorem joins_of_pairCandidate {source destination : EniNode} {candidate : PathCandidate}
    (built : pairCandidate boundaryId routeTargets source destination = some candidate) :
    (parseIpAddr source.privateIp).isSome ∧ Joins source destination candidate := by
  obtain ⟨peerAddress, parsed, rfl⟩ := Option.map_eq_some_iff.mp built
  exact ⟨parsed ▸ rfl, ⟨rfl, rfl, rfl, rfl, rfl, rfl, rfl, rfl, rfl, rfl⟩⟩

/-- The ends of the candidates are a product of two lists of ids. -/
private theorem map_ends_pairCandidates :
    (pairCandidates boundaryId selectors routeTargets enis).map
        (fun candidate => (candidate.destination.eniId, candidate.source.eniId)) =
      (enis.filter fun eni => selectors.vpcIds.contains eni.vpcId).map EniNode.id ×ˢ
        ((enis.filter fun eni => !selectors.vpcIds.contains eni.vpcId).filter fun eni =>
          (parseIpAddr eni.privateIp).isSome).map EniNode.id := by
  simp only [pairCandidates, List.partition_eq_filter_filter, SProd.sprod, List.product, List.map_flatMap,
    List.flatMap_map, List.map_map]
  refine List.flatMap_congr fun destination _ => ?_
  unfold pairCandidate
  refine List.map_filterMap_map ?_ _
  exact fun _ _ _ => rfl

private theorem nodup_ends (distinct : (enis.map EniNode.id).Nodup) :
    ((pairCandidates boundaryId selectors routeTargets enis).map endIds).Nodup := by
  have swapped : ((pairCandidates boundaryId selectors routeTargets enis).map
      fun candidate => (candidate.destination.eniId, candidate.source.eniId)).Nodup := by
    rw [map_ends_pairCandidates]
    refine List.Nodup.product ?_ ?_
    · exact distinct.sublist (List.filter_sublist.map _)
    · exact distinct.sublist ((List.filter_sublist.trans List.filter_sublist).map _)
  refine List.Nodup.of_map Prod.swap ?_
  rw [List.map_map]
  exact swapped

/-- A pair that can be formed has its candidate. -/
private theorem mem_ends {source destination : EniNode} (inEnis : source ∈ enis) (inEnis' : destination ∈ enis)
    (pairable : Pairable selectors source destination) :
    (source.id, destination.id) ∈ (pairCandidates boundaryId selectors routeTargets enis).map endIds := by
  obtain ⟨paired, parses⟩ := pairable
  obtain ⟨candidate, built⟩ :
      ∃ candidate, pairCandidate boundaryId routeTargets source destination = some candidate := by
    obtain ⟨peerAddress, parsed⟩ := Option.isSome_iff_exists.mp parses
    exact ⟨_, by rw [pairCandidate, parsed, Option.map_some]⟩
  obtain ⟨-, joins⟩ := joins_of_pairCandidate built
  refine List.mem_map.mpr ⟨candidate, ?_, Prod.ext joins.sourceId joins.destinationId⟩
  exact mem_pairCandidates_iff.mpr ⟨source, inEnis, destination, inEnis', paired, built⟩

end Endpoints

/-! ## Rows -/

/-- Whatever rows with distinct ids are read, the candidates assembled from them are those of the pairs
across the boundary, each once, with the two ends read off the two rows. -/
theorem assembleRows_exactly {boundaryId : String} {selectors : BoundarySelectors}
    {routeTargets : RouteTargets} {rows : List EniRow} {candidates : List PathCandidate}
    (distinct : (rows.map EniRow.eniId).Nodup)
    (assembled : assembleRows boundaryId selectors routeTargets rows = .ok candidates) :
    AssembledExactly boundaryId selectors routeTargets rows candidates := by
  obtain ⟨enis, ran, done⟩ := Except.bind_eq_ok_iff.mp assembled
  cases done
  have mem_of_read {eni : EniNode} (reads : Read rows eni) : eni ∈ enis := by
    obtain ⟨row, inRows, found⟩ := reads
    obtain ⟨eni', inEnis, found'⟩ := List.exists_of_mapM_eq_ok ran inRows
    cases found.symm.trans found'
    exact inEnis
  have sameIds : enis.map EniNode.id = rows.map EniRow.eniId := by
    rw [← List.forall₂_eq_eq_eq, List.forall₂_map_left_iff, List.forall₂_map_right_iff]
    exact ((List.mapM_eq_ok_iff.mp ran).imp fun _ _ read => (eniFromRow_eq_ok_iff.mp read).id).flip
  have distinctEnis : (enis.map EniNode.id).Nodup := sameIds ▸ distinct
  have origin {candidate : PathCandidate}
      (member : candidate ∈ pairCandidates boundaryId selectors routeTargets enis) :
      ∃ source ∈ enis, ∃ destination ∈ enis, Pairable selectors source destination ∧
        Joins source destination candidate := by
    obtain ⟨source, inEnis, destination, inEnis', paired, built⟩ := mem_pairCandidates_iff.mp member
    obtain ⟨parses, joins⟩ := joins_of_pairCandidate built
    exact ⟨source, inEnis, destination, inEnis', ⟨paired, parses⟩, joins⟩
  exact {
    once := fun source destination ofSource ofDestination pairable =>
      List.count_eq_one_of_mem (nodup_ends distinctEnis)
        (mem_ends (mem_of_read ofSource) (mem_of_read ofDestination) pairable)
    noOther := fun candidate member => by
      obtain ⟨source, inEnis, destination, inEnis', pairable, joins⟩ := origin member
      exact ⟨source, destination, List.exists_of_mem_mapM_ok ran inEnis,
        List.exists_of_mem_mapM_ok ran inEnis', pairable, joins⟩
    joined := fun source destination ofSource ofDestination candidate member ends => by
      obtain ⟨source', inEnis, destination', inEnis', -, joins⟩ := origin member
      have sameSource : source' = source :=
        List.inj_on_of_nodup_map distinctEnis inEnis (mem_of_read ofSource)
          (joins.sourceId.symm.trans (Prod.mk.inj ends).1)
      have sameDestination : destination' = destination :=
        List.inj_on_of_nodup_map distinctEnis inEnis' (mem_of_read ofDestination)
          (joins.destinationId.symm.trans (Prod.mk.inj ends).2)
      rw [← sameSource, ← sameDestination]
      exact joins
    notSelf := fun candidate member same => by
      obtain ⟨source, inEnis, destination, inEnis', pairable, joins⟩ := origin member
      rw [joins.sourceId, joins.destinationId] at same
      cases List.inj_on_of_nodup_map distinctEnis inEnis inEnis' same
      exact pairable.1.1 pairable.1.2
    reordered := fun rows' perm => by
      obtain ⟨enis', ran', permEnis⟩ := List.exists_perm_of_mapM_ok perm ran
      exact ⟨_, Except.bind_eq_ok_iff.mpr ⟨enis', ran', rfl⟩,
        pairCandidates_perm boundaryId selectors routeTargets permEnis⟩ }

private def endpointRow (eniId vpcId privateIp : String) (securityGroupIds : List String) : EniRow :=
  { eniId
    vpcId := some (.string vpcId)
    subnetId := some (.string "subnet-1")
    privateIp := some (.string privateIp)
    routeTableId := none
    securityGroupIds
    egressRules := []
    ingressRules := []
    naclRules := [] }

/-- One endpoint inside the boundary, one outside it, and one outside it without an address. -/
private def threeRows : List EniRow :=
  [endpointRow "eni-1" "vpc-1" "10.0.0.1" ["sg-1"], endpointRow "eni-2" "vpc-2" "10.0.0.2" ["sg-2"],
    endpointRow "eni-3" "vpc-1" "" []]

theorem threeRows_exactly :
    AssembledExactly "boundary" ⟨["vpc-2"], [], []⟩ (fun _ => none) threeRows
      [{ source := ⟨"eni-1", ["sg-1"], [], "subnet-1", []⟩
         destination := ⟨"eni-2", ["sg-2"], [], "subnet-1", []⟩
         routeExists := true
         traffic := ⟨.all, none, .v4 167772161⟩
         destinationBoundary := "boundary" }] :=
  assembleRows_exactly (by decide) (by decide)

end NetHound.Soundness
