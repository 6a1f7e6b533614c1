import NetHound.Audit.Config
import NetHound.Audit.Run
import NetHound.Evaluate.Footprint

/-! # What a clean audit has checked

Candidate assembly selects destinations by VPC only: CIDR and tag selectors are accepted, warned about
and matched against nothing. So a clean outcome says that every interface of a listed VPC was paired with
every interface outside them whose address parses, and found not reachable; and a boundary that lists no
VPC is clean whatever the graph holds.
-/

namespace NetHound.Soundness

open Domain Net Evaluate Graph Cypher Audit

abbrev GraphNode := Node Label Field BoltType

def interfaces (graph : Neo4jGraph) : List GraphNode := graph.nodes.filter fun node => node.ref.label = .eni

def HasAddress (node : GraphNode) (address : IpAddr) : Prop :=
  ∃ text, node.props .privateIp = stringProp text ∧ parseIpAddr text = some address

def SelectedByVpc (boundary : BoundaryConfig) (node : GraphNode) : Prop :=
  ∃ vpcId ∈ boundary.vpcIds, node.props .vpcId = stringProp vpcId

def SelectedByCidr (boundary : BoundaryConfig) (node : GraphNode) : Prop :=
  ∃ address, HasAddress node address ∧ ∃ cidr ∈ boundary.cidrs, cidrAdmits cidr address = true

/-- Every selected interface is the destination of a candidate from every other interface whose address
parses. -/
def Covers (graph : Neo4jGraph) (candidates : List PathCandidate) (selected : GraphNode → Prop) : Prop :=
  ∀ destination ∈ interfaces graph, selected destination →
    ∀ source ∈ interfaces graph, ¬ selected source → (∃ address, HasAddress source address) →
      ∃ candidate ∈ candidates, candidate.source.eniId = source.ref.id ∧
        candidate.destination.eniId = destination.ref.id

/-- The findings of some candidates, each at its own time. -/
def evaluateAll (clock : ℕ → String) (candidates : List PathCandidate) : List ReachabilityFinding :=
  candidates.mapIdx fun index candidate => evaluateCandidate (clock index) candidate

/-- Assembly reads no selector but the VPC ids. -/
theorem assembleCandidates_ignores (graph : Neo4jGraph) (boundaryId : String) (selectors : BoundarySelectors)
    (cidrs tags : List String) :
    assembleCandidates graph boundaryId { selectors with cidrs, tags } =
      assembleCandidates graph boundaryId selectors := rfl

private theorem pairCandidates_of_no_vpcIds (boundaryId : String) (routeTargets : RouteTargets)
    (enis : List EniNode) (cidrs tags : List String) :
    pairCandidates boundaryId ⟨[], cidrs, tags⟩ routeTargets enis = [] := by
  rw [List.eq_nil_iff_forall_not_mem]
  intro candidate member
  obtain ⟨_, _, _, _, ⟨_, selected⟩, _⟩ := mem_pairCandidates_iff.mp member
  cases selected

/-- Every interface of an assembled graph has an endpoint with its properties. -/
private theorem exists_endpoint {graph : Neo4jGraph} {enis : List EniNode}
    (fetched : fetchEnis graph = .ok enis) {node : GraphNode} (member : node ∈ interfaces graph) :
    ∃ eni ∈ enis, eni.id = node.ref.id ∧ node.props .vpcId = stringProp eni.vpcId ∧
      node.props .privateIp = stringProp eni.privateIp := by
  obtain ⟨routeTableId, rest, group⟩ := List.exists_cons_of_ne_nil (groupsOf_ne_nil graph node.ref.id)
  have inRows : Evaluate.eniRow graph node routeTableId ∈ eniRows graph := by
    refine List.mem_flatMap.mpr ⟨node, member, List.mem_map_of_mem ?_⟩
    rw [group]
    exact List.mem_cons_self
  obtain ⟨eni, inEnis, read⟩ := List.exists_of_mapM_eq_ok fetched inRows
  obtain ⟨vpcId, _, privateIp⟩ := eniFromRow_props read
  exact ⟨eni, inEnis, (eniFromRow_eq_ok_iff.mp read).id, vpcId, privateIp⟩

private theorem selectedByVpc_iff {boundary : BoundaryConfig} {node : GraphNode} {vpcId : String}
    (inVpc : node.props .vpcId = stringProp vpcId) :
    SelectedByVpc boundary node ↔ vpcId ∈ boundary.vpcIds := by
  constructor
  · rintro ⟨listed, member, same⟩
    rw [inVpc] at same
    obtain rfl := BoltType.string.inj (Option.some.inj same)
    exact member
  · exact fun member => ⟨vpcId, member, inVpc⟩

private theorem covers_assembled {graph : Neo4jGraph} {boundaryId : String} {boundary : BoundaryConfig}
    {candidates : List PathCandidate}
    (assembled : assembleCandidates graph boundaryId ⟨boundary.vpcIds, boundary.cidrs, boundary.tags⟩ =
      .ok candidates) :
    Covers graph candidates (SelectedByVpc boundary) := by
  obtain ⟨enis, fetched, done⟩ := Except.bind_eq_ok_iff.mp assembled
  cases done
  rintro destination isInterface selected source isInterface' unselected ⟨address, text, hasText, parsed⟩
  obtain ⟨inside, inEnis, insideId, insideVpc, _⟩ := exists_endpoint fetched isInterface
  obtain ⟨outside, inEnis', outsideId, outsideVpc, outsideAddress⟩ := exists_endpoint fetched isInterface'
  rw [selectedByVpc_iff insideVpc] at selected
  rw [selectedByVpc_iff outsideVpc] at unselected
  rw [hasText] at outsideAddress
  obtain rfl := BoltType.string.inj (Option.some.inj outsideAddress)
  have built : pairCandidate boundaryId (fetchRouteTableTargets graph) outside inside =
      some ⟨outside.sourceEndpoint, inside.destinationEndpoint,
        routeExists outside inside (fetchRouteTableTargets graph), worstCaseTraffic address, boundaryId⟩ := by
    rw [pairCandidate, parsed]
    rfl
  refine ⟨_, mem_pairCandidates_iff.mpr
    ⟨outside, inEnis', inside, inEnis, ⟨unselected, selected⟩, built⟩, ?_, ?_⟩
  · exact outsideId
  · exact insideId

/-- A clean outcome covers the interfaces of the listed VPCs; the other selectors change no candidate, and
without a listed VPC there is none. -/
theorem clean_covers_vpcIds {isUppercase : Char → Bool} {config : Config}
    {validated : ValidatedConfig isUppercase} (valid : config.validate isUppercase = .ok validated)
    {graph : Neo4jGraph} {boundaryId : String} {candidates : List PathCandidate}
    (assembled : assembleCandidates graph boundaryId validated.selectors = .ok candidates)
    (clock : ℕ → String) :
    (findingsToOutcome (evaluateAll clock candidates) = .clean →
        Covers graph candidates (SelectedByVpc config.boundary) ∧
          ∀ finding ∈ evaluateAll clock candidates, finding.reachability = .notReachable) ∧
      (∀ cidrs tags, assembleCandidates graph boundaryId { validated.selectors with cidrs, tags } =
        .ok candidates) ∧
      (config.boundary.vpcIds = [] →
        candidates = [] ∧ findingsToOutcome (evaluateAll clock candidates) = .clean) := by
  rw [Config.selectors_of_valid valid] at assembled ⊢
  refine ⟨fun clean => ⟨covers_assembled assembled, findingsToOutcome_eq_clean_iff.mp clean⟩, ?_, ?_⟩
  · intro cidrs tags
    rw [assembleCandidates_ignores]
    exact assembled
  · intro unlisted
    have none : candidates = [] := by
      rw [unlisted] at assembled
      obtain ⟨enis, _, done⟩ := Except.bind_eq_ok_iff.mp assembled
      cases done
      exact pairCandidates_of_no_vpcIds _ _ _ _ _
    exact ⟨none, by rw [none]; rfl⟩

private def inOffice : EniRecord := ⟨"eni-1", "111122223333", "vpc-1", "subnet-1", "10.0.0.5", none⟩

private def atHome : EniRecord := ⟨"eni-2", "111122223333", "vpc-2", "subnet-2", "192.168.0.5", none⟩

private def nodeOf (record : EniRecord) : GraphNode := (nodeUpsert .eni (Graph.eniRow record)).create

private def twoEnis : Neo4jGraph :=
  PropertyGraph.empty.mergeNodes
    [nodeUpsert .eni (Graph.eniRow inOffice), nodeUpsert .eni (Graph.eniRow atHome)]

private theorem interfaces_twoEnis : interfaces twoEnis = [nodeOf inOffice, nodeOf atHome] := rfl

private def configFor (boundary : BoundaryConfig) : Config :=
  ⟨"us-east-1", "default", boundary, "./audit-report.json", ⟨"bolt://127.0.0.1:7687", "neo4j"⟩⟩

private theorem exists_validated (boundary : BoundaryConfig) (selects : boundary.isEmpty = false) :
    ∃ validated, (configFor boundary).validate Char.isUpper = .ok validated :=
  ⟨⟨"us-east-1", "default", boundary, "./audit-report.json", ⟨"bolt://127.0.0.1:7687", "neo4j"⟩, selects,
    by decide⟩, Config.validate_eq_ok_iff.mpr rfl⟩

theorem clean_covers_vpcIds_office :
    ∃ candidates, assembleCandidates twoEnis "boundary" ⟨["vpc-1"], [], []⟩ = .ok candidates ∧
      (findingsToOutcome (evaluateAll (fun _ => "") candidates) = .clean →
        Covers twoEnis candidates (SelectedByVpc ⟨["vpc-1"], [], []⟩) ∧
          ∀ finding ∈ evaluateAll (fun _ => "") candidates, finding.reachability = .notReachable) := by
  obtain ⟨validated, valid⟩ := exists_validated ⟨["vpc-1"], [], []⟩ (by decide)
  have same : validated.selectors = ⟨["vpc-1"], [], []⟩ := Config.selectors_of_valid valid
  have assembles : (assembleCandidates twoEnis "boundary" ⟨["vpc-1"], [], []⟩).isOk = true := by decide
  rcases assembled : assembleCandidates twoEnis "boundary" ⟨["vpc-1"], [], []⟩ with error | candidates
  · rw [assembled] at assembles
    cases assembles
  · rw [← same] at assembled
    exact ⟨candidates, rfl, (clean_covers_vpcIds valid assembled fun _ => "").1⟩

/-- A run that is clean by the reading of `validate`: every selector that was accepted selects. -/
def NeverVacuous (selected : BoundaryConfig → GraphNode → Prop) : Prop :=
  ∀ (isUppercase : Char → Bool) (config : Config) (validated : ValidatedConfig isUppercase)
    (graph : Neo4jGraph) (boundaryId : String) (candidates : List PathCandidate) (clock : ℕ → String),
    config.validate isUppercase = .ok validated →
      assembleCandidates graph boundaryId validated.selectors = .ok candidates →
        findingsToOutcome (evaluateAll clock candidates) = .clean →
          Covers graph candidates (selected config.boundary)

/-- Boundaries that only list tags are never clean over interfaces. -/
def TagsNeverClean : Prop :=
  ∀ (isUppercase : Char → Bool) (config : Config) (validated : ValidatedConfig isUppercase)
    (graph : Neo4jGraph) (boundaryId : String) (candidates : List PathCandidate) (clock : ℕ → String),
    config.validate isUppercase = .ok validated →
      assembleCandidates graph boundaryId validated.selectors = .ok candidates →
        findingsToOutcome (evaluateAll clock candidates) = .clean →
          config.boundary.vpcIds = [] → config.boundary.cidrs = [] → interfaces graph = []

private theorem assembled_unlisted {boundary : BoundaryConfig} (unlisted : boundary.vpcIds = [])
    {validated : ValidatedConfig Char.isUpper}
    (valid : (configFor boundary).validate Char.isUpper = .ok validated) :
    assembleCandidates twoEnis "boundary" validated.selectors = .ok [] := by
  have fetches : (fetchEnis twoEnis).isOk = true := by decide
  rcases fetched : fetchEnis twoEnis with error | enis
  · rw [fetched] at fetches
    cases fetches
  · refine Except.bind_eq_ok_iff.mpr ⟨enis, fetched, congrArg Except.ok ?_⟩
    rw [Config.selectors_of_valid valid]
    change pairCandidates _ ⟨boundary.vpcIds, _, _⟩ _ _ = []
    rw [unlisted]
    exact pairCandidates_of_no_vpcIds _ _ _ _ _

/-- CIDR and tag selectors pass validation and select nothing: the run is clean over both. -/
theorem neverVacuous_unmatched :
    ¬ NeverVacuous (fun boundary node => SelectedByVpc boundary node ∨ SelectedByCidr boundary node) ∧
      ¬ TagsNeverClean := by
  constructor
  · intro holds
    obtain ⟨validated, valid⟩ := exists_validated ⟨[], ["10.0.0.0/16"], []⟩ (by decide)
    have covered := holds _ _ validated twoEnis "boundary" [] (fun _ => "") valid
      (assembled_unlisted rfl valid) rfl
    rw [Covers, interfaces_twoEnis] at covered
    have parsed : parseIpAddr "10.0.0.5" = some (.v4 0x0A000005) := by decide
    have parsed' : parseIpAddr "192.168.0.5" = some (.v4 0xC0A80005) := by decide
    obtain ⟨_, none, _⟩ := covered (nodeOf inOffice) List.mem_cons_self
      (Or.inr ⟨_, ⟨"10.0.0.5", rfl, parsed⟩, "10.0.0.0/16", List.mem_singleton_self _, by decide⟩)
      (nodeOf atHome) (List.mem_cons_of_mem _ List.mem_cons_self) (by
        rintro (⟨_, listed, _⟩ | ⟨address, ⟨text, hasText, ofText⟩, cidr, listed, inside⟩)
        · cases listed
        · obtain rfl : "192.168.0.5" = text := BoltType.string.inj (Option.some.inj hasText)
          rw [parsed'] at ofText
          cases ofText
          obtain rfl := List.mem_singleton.mp listed
          revert inside
          decide) ⟨_, "192.168.0.5", rfl, parsed'⟩
    cases none
  · intro holds
    obtain ⟨validated, valid⟩ := exists_validated ⟨[], [], ["env:pci-prod"]⟩ (by decide)
    have empty := holds _ _ validated twoEnis "boundary" [] (fun _ => "") valid
      (assembled_unlisted rfl valid) rfl rfl rfl
    rw [interfaces_twoEnis] at empty
    cases empty

end NetHound.Soundness
