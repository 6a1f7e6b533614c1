import NetHound.Evaluate.OrderFree
import NetHound.Soundness.BoundaryCoverage
import NetHound.Soundness.Reingestion

/-! # Two reads of one graph

Neither query orders what it returns. A second read of an unchanged graph may list the interfaces, and
the groups, rules and route targets of each, in another order, and a finding cites a security group rule
by its place in that list. Some of the interfaces yield the same findings in every order, timestamps
aside, exactly when every pair among them is free of it.
-/

namespace NetHound.Soundness

open Domain Net Evaluate Graph Cypher Ingest

/-- What the two queries return. -/
structure GraphRead where
  rows : List EniRow
  routeTargets : RouteTargets

/-- The same results in another order. -/
structure GraphRead.Reordered (read read' : GraphRead) : Prop where
  rows : ∃ rows, read.rows.Perm rows ∧ List.Forall₂ SameRow rows read'.rows
  routeTargets : ∀ routeTableId,
    Option.Rel List.Perm (read.routeTargets routeTableId) (read'.routeTargets routeTableId)

/-- The findings of a read. -/
def GraphRead.findings (read : GraphRead) (clock : ℕ → String) (boundaryId : String)
    (selectors : BoundarySelectors) : Except CandidateAssemblyError (List ReachabilityFinding) := do
  let enis ← read.rows.mapM eniFromRow
  return evaluateAll clock (pairCandidates boundaryId selectors read.routeTargets enis)

/-- A run evaluates what the read of its graph assembles. -/
theorem findings_of_graph (graph : Neo4jGraph) (clock : ℕ → String) (boundaryId : String)
    (selectors : BoundarySelectors) :
    (GraphRead.mk (eniRows graph) (fetchRouteTableTargets graph)).findings clock boundaryId selectors =
      (assembleCandidates graph boundaryId selectors).map (evaluateAll clock) := by
  rw [GraphRead.findings, assembleCandidates, fetchEnis]
  cases (eniRows graph).mapM eniFromRow <;> rfl

/-- A candidate of two of the rows. -/
def GraphRead.Pairs (read : GraphRead) (boundaryId : String) (selectors : BoundarySelectors)
    (candidate : PathCandidate) : Prop :=
  ∃ source destination, (∃ row ∈ read.rows, eniFromRow row = .ok source) ∧
    (∃ row ∈ read.rows, eniFromRow row = .ok destination) ∧ Paired selectors source destination ∧
      pairCandidate boundaryId read.routeTargets source destination = some candidate

/-- Equal findings up to their order and their timestamps, or no findings at all. -/
inductive SameFindings : Except CandidateAssemblyError (List ReachabilityFinding) →
    Except CandidateAssemblyError (List ReachabilityFinding) → Prop
  | found {findings findings' : List ReachabilityFinding}
      (perm : (findings.map ReachabilityFinding.masked).Perm (findings'.map ReachabilityFinding.masked)) :
      SameFindings (.ok findings) (.ok findings')
  | failed (error error' : CandidateAssemblyError) : SameFindings (.error error) (.error error')

/-- Any two orders of the read yield the same findings. -/
def GraphRead.Reproducible (read : GraphRead) (boundaryId : String) (selectors : BoundarySelectors) : Prop :=
  ∀ first second, read.Reordered first → read.Reordered second → ∀ clock clock',
    SameFindings (first.findings clock boundaryId selectors) (second.findings clock' boundaryId selectors)

theorem SameFindings.symm {run run' : Except CandidateAssemblyError (List ReachabilityFinding)}
    (same : SameFindings run run') : SameFindings run' run := by
  cases same with
  | found perm => exact .found perm.symm
  | failed error error' => exact .failed error' error

theorem SameFindings.trans {run run' run'' : Except CandidateAssemblyError (List ReachabilityFinding)}
    (first : SameFindings run run') (second : SameFindings run' run'') : SameFindings run run'' := by
  cases first with
  | found perm =>
    cases second with
    | found perm' => exact .found (perm.trans perm')
  | failed error _ =>
    cases second with
    | failed _ error' => exact .failed error error'

theorem SameRow.refl (row : EniRow) : SameRow row row :=
  ⟨rfl, rfl, rfl, rfl, rfl, .refl _, .refl _, .refl _, .refl _⟩

private theorem rel_perm_refl (routeTargets : RouteTargets) (routeTableId : String) :
    Option.Rel List.Perm (routeTargets routeTableId) (routeTargets routeTableId) := by
  cases routeTargets routeTableId with
  | none => exact .none
  | some targetVpcIds => exact .some (.refl _)

theorem GraphRead.Reordered.refl (read : GraphRead) : read.Reordered read :=
  ⟨⟨read.rows, .refl _, List.forall₂_same.mpr fun row _ => .refl row⟩, rel_perm_refl _⟩

/-! ## Candidates of reordered reads -/

private theorem masked_evaluateAll (clock : ℕ → String) (candidates : List PathCandidate) :
    (evaluateAll clock candidates).map ReachabilityFinding.masked = candidates.map (evaluateCandidate "") := by
  refine List.ext_getElem (by simp [evaluateAll]) fun index _ _ => ?_
  simp only [evaluateAll, List.getElem_map, List.getElem_mapIdx, masked_evaluateCandidate]

private theorem exists_sameEndpoints {rows rows' : List EniRow} (same : List.Forall₂ SameRow rows rows')
    {enis : List EniNode} (read : rows.mapM eniFromRow = .ok enis) :
    ∃ enis', rows'.mapM eniFromRow = .ok enis' ∧ List.Forall₂ SameEndpoint enis enis' := by
  simp only [List.mapM_eq_ok_iff] at read ⊢
  induction same generalizing enis with
  | nil =>
    cases read
    exact ⟨[], .nil, .nil⟩
  | cons head _ ih =>
    cases read with
    | cons first rest =>
      obtain ⟨eni', first', sameEni⟩ := (sameRead_of_sameRow head).1 _ first
      obtain ⟨enis', rest', sameEnis⟩ := ih rest
      exact ⟨eni' :: enis', .cons first' rest', .cons sameEni sameEnis⟩

private theorem routeExists_same {source source' destination destination' : EniNode}
    (sameSource : SameEndpoint source source') (sameDestination : SameEndpoint destination destination')
    {routeTargets routeTargets' : RouteTargets}
    (sameTargets : ∀ routeTableId,
      Option.Rel List.Perm (routeTargets routeTableId) (routeTargets' routeTableId)) :
    routeExists source destination routeTargets = routeExists source' destination' routeTargets' := by
  rw [routeExists, routeExists, sameSource.subnetId, sameDestination.subnetId, sameSource.routeTableId,
    sameDestination.routeTableId, sameDestination.vpcId]
  split_ifs with joined
  · rfl
  · rcases source'.routeTableId with _ | sourceRt
    · rfl
    · rcases destination'.routeTableId with _ | destinationRt
      · rfl
      · have ofSource := sameTargets sourceRt
        have ofDestination := sameTargets destinationRt
        dsimp only
        generalize routeTargets sourceRt = targets, routeTargets' sourceRt = targets' at ofSource ⊢
        generalize routeTargets destinationRt = inside, routeTargets' destinationRt = inside'
          at ofDestination ⊢
        cases ofSource with
        | none => rfl
        | some perm =>
          cases ofDestination with
          | none => rfl
          | some perm' => simp only [perm'.contains_eq, perm.any_eq]

private theorem pairCandidate_same {source source' destination destination' : EniNode}
    (sameSource : SameEndpoint source source') (sameDestination : SameEndpoint destination destination')
    {routeTargets routeTargets' : RouteTargets}
    (sameTargets : ∀ routeTableId,
      Option.Rel List.Perm (routeTargets routeTableId) (routeTargets' routeTableId)) (boundaryId : String) :
    Option.Rel SameCandidate (pairCandidate boundaryId routeTargets source destination)
      (pairCandidate boundaryId routeTargets' source' destination') := by
  rw [pairCandidate, pairCandidate, routeExists_same sameSource sameDestination sameTargets,
    sameSource.privateIp]
  cases parseIpAddr source'.privateIp with
  | none => exact .none
  | some peerAddress =>
    exact .some {
      source := ⟨sameSource.id, sameSource.subnetId, sameSource.securityGroupIds, sameSource.egressRules,
        sameSource.naclRules⟩
      destination := ⟨sameDestination.id, sameDestination.subnetId, sameDestination.securityGroupIds,
        sameDestination.ingressRules, sameDestination.naclRules⟩
      routeExists := rfl
      traffic := rfl
      destinationBoundary := rfl }

private theorem pairCandidates_same (boundaryId : String) (selectors : BoundarySelectors)
    {routeTargets routeTargets' : RouteTargets}
    (sameTargets : ∀ routeTableId,
      Option.Rel List.Perm (routeTargets routeTableId) (routeTargets' routeTableId))
    {enis enis' : List EniNode} (same : List.Forall₂ SameEndpoint enis enis') :
    List.Forall₂ SameCandidate (pairCandidates boundaryId selectors routeTargets enis)
      (pairCandidates boundaryId selectors routeTargets' enis') := by
  simp only [pairCandidates, List.partition_eq_filter_filter]
  refine List.rel_flatMap (List.rel_filter (fun _ _ sameEni => ?_) same) fun _ _ sameDestination => ?_
  · simp only [sameEni.vpcId]
  · refine List.rel_filterMap (fun _ _ sameSource => ?_) (List.rel_filter (fun _ _ sameEni => ?_) same)
    · exact pairCandidate_same sameSource sameDestination sameTargets boundaryId
    · simp only [Function.comp_apply, sameEni.vpcId]

private theorem pairs_of_mem {read : GraphRead} {enis : List EniNode}
    (ran : read.rows.mapM eniFromRow = .ok enis) {boundaryId : String} {selectors : BoundarySelectors}
    {candidate : PathCandidate}
    (member : candidate ∈ pairCandidates boundaryId selectors read.routeTargets enis) :
    read.Pairs boundaryId selectors candidate := by
  obtain ⟨source, inEnis, destination, inEnis', paired, built⟩ := mem_pairCandidates_iff.mp member
  exact ⟨source, destination, List.exists_of_mem_mapM_ok ran inEnis,
    List.exists_of_mem_mapM_ok ran inEnis', paired, built⟩

/-- A reordered read yields the same findings when every pair is free of the order. -/
private theorem GraphRead.Reordered.findings {read read' : GraphRead} (reordered : read.Reordered read')
    {boundaryId : String} {selectors : BoundarySelectors}
    (free : ∀ candidate, read.Pairs boundaryId selectors candidate → candidate.OrderFree)
    (clock clock' : ℕ → String) :
    SameFindings (read.findings clock boundaryId selectors)
      (read'.findings clock' boundaryId selectors) := by
  obtain ⟨rows, perm, same⟩ := reordered.rows
  cases ran : read.rows.mapM eniFromRow with
  | error error =>
    cases ran' : read'.rows.mapM eniFromRow with
    | error error' =>
      rw [GraphRead.findings, GraphRead.findings, ran, ran']
      exact .failed error error'
    | ok enis' =>
      obtain ⟨enis₁, ran₁, _⟩ := exists_sameEndpoints (same.flip.imp fun _ _ row => row.symm) ran'
      obtain ⟨enis, ranAgain, _⟩ := List.exists_perm_of_mapM_ok perm.symm ran₁
      rw [ran] at ranAgain
      cases ranAgain
  | ok enis =>
    obtain ⟨enis₁, ran₁, permEnis⟩ := List.exists_perm_of_mapM_ok perm ran
    obtain ⟨enis', ran', sameEnis⟩ := exists_sameEndpoints same ran₁
    rw [GraphRead.findings, GraphRead.findings, ran, ran']
    refine .found ?_
    rw [masked_evaluateAll, masked_evaluateAll]
    have candidates := pairCandidates_perm boundaryId selectors read.routeTargets permEnis
    refine (candidates.map _).trans (List.Perm.of_eq ?_)
    rw [← List.forall₂_eq_eq_eq, List.forall₂_map_left_iff, List.forall₂_map_right_iff]
    have sameCandidates := pairCandidates_same boundaryId selectors reordered.routeTargets sameEnis
    have ofPairs : ∀ candidate ∈ pairCandidates boundaryId selectors read.routeTargets enis₁,
        candidate.OrderFree := fun candidate member =>
      free candidate (pairs_of_mem ran (candidates.mem_iff.mpr member))
    refine ((List.forall₂_and_left _ _).mpr ⟨ofPairs, sameCandidates⟩).imp fun _ _ both => ?_
    exact (evaluateCandidate_perm_iff _).mpr both.1 _ both.2

/-! ## Rows behind a reordered candidate -/

/-- Any order of an endpoint's lists, but for the sorting of its ACL rules, is read from some order of
the row. -/
private theorem exists_sameRow {row : EniRow} {eni eni' : EniNode} (read : eniFromRow row = .ok eni)
    (same : SameEndpoint eni eni') : ∃ row', SameRow row row' ∧ eniFromRow row' =
      .ok { eni' with naclRules := eni'.naclRules.insertionSort fun a b => Nacl.sortKey a ≤ Nacl.sortKey b } := by
  have parts := eniFromRow_eq_ok_iff.mp read
  obtain ⟨nacl, naclRead, sorted⟩ := parts.naclRules
  obtain ⟨egressRules, egressPerm, egressRead'⟩ :=
    List.exists_perm_of_mapM_filter_ok parts.egressRules same.egressRules
  obtain ⟨ingressRules, ingressPerm, ingressRead'⟩ :=
    List.exists_perm_of_mapM_filter_ok parts.ingressRules same.ingressRules
  obtain ⟨naclRules, naclPerm, naclRead'⟩ := List.exists_perm_of_mapM_filter_ok naclRead
    ((List.perm_insertionSort _ _).symm.trans (sorted ▸ same.naclRules))
  refine ⟨{ row with securityGroupIds := eni'.securityGroupIds, egressRules, ingressRules, naclRules },
    ⟨rfl, rfl, rfl, rfl, rfl, parts.securityGroupIds ▸ same.securityGroupIds, egressPerm, ingressPerm,
      naclPerm⟩, eniFromRow_eq_ok_iff.mpr ?_⟩
  exact {
    id := same.id ▸ parts.id
    vpcId := same.vpcId ▸ parts.vpcId
    subnetId := same.subnetId ▸ parts.subnetId
    privateIp := same.privateIp ▸ parts.privateIp
    securityGroupIds := rfl
    egressRules := egressRead'
    ingressRules := ingressRead'
    naclRules := ⟨_, naclRead', rfl⟩
    routeTableId := same.routeTableId ▸ parts.routeTableId }

private theorem findings_pair {routeTargets : RouteTargets} {sourceRow destinationRow : EniRow}
    {source destination : EniNode} (readSource : eniFromRow sourceRow = .ok source)
    (readDestination : eniFromRow destinationRow = .ok destination) {boundaryId : String}
    {selectors : BoundarySelectors} (paired : Paired selectors source destination)
    {candidate : PathCandidate}
    (built : pairCandidate boundaryId routeTargets source destination = some candidate)
    (clock : ℕ → String) :
    (GraphRead.mk [sourceRow, destinationRow] routeTargets).findings clock boundaryId selectors =
      .ok [evaluateCandidate (clock 0) candidate] := by
  have ran : [sourceRow, destinationRow].mapM eniFromRow = .ok [source, destination] :=
    List.mapM_eq_ok_iff.mpr (.cons readSource (.cons readDestination .nil))
  have candidates : pairCandidates boundaryId selectors routeTargets [source, destination] = [candidate] := by
    simp [pairCandidates, paired.1, paired.2, built, List.partition_eq_filter_filter]
  rw [GraphRead.findings, ran]
  exact congrArg (fun candidates => Except.ok (evaluateAll clock candidates)) candidates

/-- Every order of a pair's candidate has the finding of some order of the pair's rows. -/
private theorem exists_reordered_pair {routeTargets : RouteTargets} {sourceRow destinationRow : EniRow}
    {source destination : EniNode} (readSource : eniFromRow sourceRow = .ok source)
    (readDestination : eniFromRow destinationRow = .ok destination) {boundaryId : String}
    {selectors : BoundarySelectors} (paired : Paired selectors source destination)
    {candidate candidate' : PathCandidate}
    (built : pairCandidate boundaryId routeTargets source destination = some candidate)
    (same : SameCandidate candidate candidate') :
    ∃ read, (GraphRead.mk [sourceRow, destinationRow] routeTargets).Reordered read ∧ ∀ clock,
      ∃ finding, read.findings clock boundaryId selectors = .ok [finding] ∧
        finding.masked = evaluateCandidate "" candidate' := by
  rw [pairCandidate, Option.map_eq_some_iff] at built
  obtain ⟨peerAddress, parsed, rfl⟩ := built
  have sameSource : SameEndpoint source { source with
      securityGroupIds := candidate'.source.peerSecurityGroupIds
      egressRules := candidate'.source.securityGroupRules
      naclRules := candidate'.source.naclRules } :=
    ⟨rfl, rfl, rfl, rfl, rfl, same.source.peerSecurityGroupIds, same.source.securityGroupRules, .refl _,
      same.source.naclRules⟩
  have sameDestination : SameEndpoint destination { destination with
      securityGroupIds := candidate'.destination.peerSecurityGroupIds
      ingressRules := candidate'.destination.securityGroupRules
      naclRules := candidate'.destination.naclRules } :=
    ⟨rfl, rfl, rfl, rfl, rfl, same.destination.peerSecurityGroupIds, .refl _,
      same.destination.securityGroupRules, same.destination.naclRules⟩
  obtain ⟨sourceRow', sameSourceRow, readSource'⟩ := exists_sameRow readSource sameSource
  obtain ⟨destinationRow', sameDestinationRow, readDestination'⟩ :=
    exists_sameRow readDestination sameDestination
  refine ⟨⟨[sourceRow', destinationRow'], routeTargets⟩,
    ⟨⟨_, .refl _, .cons sameSourceRow (.cons sameDestinationRow .nil)⟩, rel_perm_refl _⟩, fun clock => ?_⟩
  have built' : pairCandidate boundaryId routeTargets
      { source with
        securityGroupIds := candidate'.source.peerSecurityGroupIds
        egressRules := candidate'.source.securityGroupRules
        naclRules := candidate'.source.naclRules.insertionSort fun a b => Nacl.sortKey a ≤ Nacl.sortKey b }
      { destination with
        securityGroupIds := candidate'.destination.peerSecurityGroupIds
        ingressRules := candidate'.destination.securityGroupRules
        naclRules := candidate'.destination.naclRules.insertionSort fun a b =>
          Nacl.sortKey a ≤ Nacl.sortKey b } = some candidate'.sortedAcls := by
    rw [pairCandidate, parsed]
    rcases candidate' with ⟨⟨_, _, _, _, _⟩, ⟨_, _, _, _, _⟩, _, _, _⟩
    obtain ⟨⟨rfl, rfl, _, _, _⟩, ⟨rfl, rfl, _, _, _⟩, rfl, rfl, rfl⟩ := same
    rfl
  refine ⟨_, findings_pair readSource' readDestination' paired built' clock, ?_⟩
  rw [masked_evaluateCandidate, evaluateCandidate_sortedAcls]

/-- Some of the interfaces of a graph yield the same findings in every order exactly when every pair
among them is free of the order. -/
theorem reproducible_iff (graph : Neo4jGraph) (boundaryId : String) (selectors : BoundarySelectors) :
    (∀ rows, rows.Subperm (eniRows graph) →
        (GraphRead.mk rows (fetchRouteTableTargets graph)).Reproducible boundaryId selectors) ↔
      ∀ candidate, (GraphRead.mk (eniRows graph) (fetchRouteTableTargets graph)).Pairs boundaryId selectors
        candidate → candidate.OrderFree := by
  constructor
  · rintro reproducible candidate ⟨source, destination, ⟨sourceRow, inRows, readSource⟩,
      ⟨destinationRow, inRows', readDestination⟩, paired, built⟩
    have distinct : sourceRow ≠ destinationRow := by
      rintro rfl
      rw [readSource] at readDestination
      cases readDestination
      exact paired.1 paired.2
    have part : [sourceRow, destinationRow].Subperm (eniRows graph) := by
      refine List.subperm_of_subset (by simpa using distinct) fun row member => ?_
      rcases List.mem_pair.mp member with rfl | rfl
      · exact inRows
      · exact inRows'
    refine (evaluateCandidate_perm_iff candidate).mp fun candidate' same => ?_
    obtain ⟨read, reordered, finds⟩ :=
      exists_reordered_pair readSource readDestination paired built same
    obtain ⟨finding, found, masked⟩ := finds fun _ => ""
    have alike := reproducible _ part _ read (.refl _) reordered (fun _ => "") fun _ => ""
    rw [findings_pair readSource readDestination paired built, found] at alike
    cases alike with
    | found perm =>
      have single := List.singleton_perm_singleton.mp perm
      rw [masked_evaluateCandidate, masked] at single
      exact single
  · intro free rows part first second reordered reordered' clock clock'
    have freeParts : ∀ candidate, (GraphRead.mk rows (fetchRouteTableTargets graph)).Pairs boundaryId
        selectors candidate → candidate.OrderFree := by
      rintro candidate ⟨source, destination, ⟨row, inRows, read⟩, ⟨row', inRows', read'⟩, pair⟩
      exact free candidate ⟨source, destination, ⟨row, part.subset inRows, read⟩,
        ⟨row', part.subset inRows', read'⟩, pair⟩
    exact (reordered.findings freeParts clock clock).symm.trans (reordered'.findings freeParts clock clock')

/-! ## Two egress rules in the other order -/

/-- No two rules of an ACL share a direction and a number. -/
def UniqueRuleNumbers (graph : Neo4jGraph) : Prop :=
  graph.relationships.Pairwise fun r r' => ¬ (r.relType = .hasRule ∧ r'.relType = .hasRule ∧
    r.source = r'.source ∧ r.props .direction = r'.props .direction ∧
      r.props .ruleNumber = r'.props .ruleNumber)

instance (graph : Neo4jGraph) : Decidable (UniqueRuleNumbers graph) :=
  inferInstanceAs (Decidable (List.Pairwise _ _))

private def allTraffic (direction : Direction) (cidr : String) : SgRule :=
  ⟨direction, "-1", (PortRange.new 0 65535).toOption, .cidr cidr, true⟩

private def peeredBatch : GraphBatch :=
  { enis := [⟨"eni-1", "111122223333", "vpc-1", "subnet-1", "10.0.0.5", none⟩,
      ⟨"eni-2", "111122223333", "vpc-2", "subnet-2", "10.1.0.5", none⟩]
    securityGroups := [⟨"sg-1", "111122223333", "vpc-1", "app", none⟩,
      ⟨"sg-2", "111122223333", "vpc-2", "data", none⟩]
    networkAcls := [⟨"acl-1", "111122223333", "vpc-1", true⟩, ⟨"acl-2", "111122223333", "vpc-2", true⟩]
    subnets := [⟨"subnet-1", "111122223333", "vpc-1", "10.0.0.0/24", "a"⟩,
      ⟨"subnet-2", "111122223333", "vpc-2", "10.1.0.0/24", "a"⟩]
    vpcs := [⟨"vpc-1", "111122223333", "10.0.0.0/16"⟩, ⟨"vpc-2", "111122223333", "10.1.0.0/16"⟩]
    routeTables := [⟨"rtb-1", "111122223333", "vpc-1", true⟩, ⟨"rtb-2", "111122223333", "vpc-2", true⟩]
    edges := [.hasSg ⟨"eni-1", "sg-1"⟩, .hasSg ⟨"eni-2", "sg-2"⟩,
      .inSubnet ⟨"eni-1", "subnet-1"⟩, .inSubnet ⟨"eni-2", "subnet-2"⟩,
      .protectedBy ⟨"subnet-1", "acl-1"⟩, .protectedBy ⟨"subnet-2", "acl-2"⟩,
      .usesRouteTable ⟨"subnet-1", "rtb-1"⟩, .usesRouteTable ⟨"subnet-2", "rtb-2"⟩,
      .routesTo ⟨"rtb-1", "10.1.0.0/16", some "vpc-2", true⟩,
      .routesTo ⟨"rtb-2", "10.1.0.0/16", some "vpc-2", true⟩,
      .hasRule "acl-1" ⟨100, .egress, "-1", none, "0.0.0.0/0", .allow⟩,
      .hasRule "acl-2" ⟨100, .ingress, "-1", none, "0.0.0.0/0", .allow⟩,
      .allowsEgress "sg-1" (allTraffic .egress "10.0.0.0/8"),
      .allowsEgress "sg-1" (allTraffic .egress "192.168.0.0/16"),
      .allowsIngress "sg-2" (allTraffic .ingress "0.0.0.0/0")] }

private def peeredGraph : Neo4jGraph :=
  match writeBatch peeredBatch PropertyGraph.empty with
  | .ok graph => graph
  | .error failure => failure.graph

/-- The rows with the egress rules of each interface the other way round. -/
private def backwards (read : GraphRead) : GraphRead :=
  { read with rows := read.rows.map fun row => { row with egressRules := row.egressRules.reverse } }

private theorem reordered_backwards (read : GraphRead) : read.Reordered (backwards read) := by
  refine ⟨⟨read.rows, .refl _, ?_⟩, rel_perm_refl _⟩
  rw [backwards, List.forall₂_map_right_iff, List.forall₂_same]
  exact fun row _ => { SameRow.refl row with egressRules := (List.reverse_perm _).symm }

/-- The masked findings of a run, if it has any. -/
private def maskedFindings (run : Except CandidateAssemblyError (List ReachabilityFinding)) :
    List ReachabilityFinding :=
  match run with
  | .ok findings => findings.map ReachabilityFinding.masked
  | .error _ => []

private theorem SameFindings.maskedFindings
    {run run' : Except CandidateAssemblyError (List ReachabilityFinding)} (same : SameFindings run run') :
    (Soundness.maskedFindings run).Perm (Soundness.maskedFindings run') := by
  cases same with
  | found perm => exact perm
  | failed _ _ => exact .refl _

/-- The reachable pair cites the same egress rule by another index. -/
theorem reproducible_reordered : ¬ ∀ graph : Neo4jGraph, UniqueRuleNumbers graph →
    ∀ (boundaryId : String) (selectors : BoundarySelectors),
      (GraphRead.mk (eniRows graph) (fetchRouteTableTargets graph)).Reproducible boundaryId selectors := by
  intro reproducible
  have alike := reproducible peeredGraph (by decide) "boundary" ⟨["vpc-2"], [], []⟩ _ _ (.refl _)
    (reordered_backwards _) (fun _ => "") fun _ => ""
  have masked := alike.maskedFindings
  revert masked
  decide

end NetHound.Soundness
