import NetHound.Evaluate.Candidates
import NetHound.Evaluate.Engine

/-! # Which end each layer is judged against

Egress rules speak about where traffic goes and ingress rules about where it comes from, so the two
egress layers should test their CIDRs against the destination's address and the two ingress layers
against the source's. `outcomeAtEnds` is that judgement. A candidate carries the source's address
only, so the engine agrees with it, over all rule sets of a pair, exactly when the pair has no
route or the destination's address is the source's.
-/

namespace NetHound.Soundness

open Domain Net Evaluate

/-- Whether the CIDR contains the address a text denotes. -/
def cidrHolds (addressText : String) (cidr : String) : Bool :=
  match parseIpAddr addressText with
  | some address => cidrAdmits cidr address
  | none => false

section Judgement

variable (contains : String → Bool)

/-- A security group rule against worst-case traffic, its CIDR tested by `contains`. -/
def sgRuleKindAt (groups : List String) (rule : SgRule) : Kleene :=
  if rule.protocol = "-1" then
    match rule.target with
    | .cidr cidr => if contains cidr then .yes else .no
    | .securityGroupRef refId =>
        if rule.resolved then (if refId ∈ groups then .yes else .no) else .unknown
  else .no

def sgKindAt (groups : List String) (direction : Direction) (rules : List SgRule) : Kleene :=
  Kleene.any ((Sg.ofDirection direction rules).map (sgRuleKindAt contains groups))

/-- The first network ACL rule whose CIDR passes `contains`, in rule-number order. -/
def naclRuleAt (direction : Direction) (rules : List NaclRule) : Option NaclRule :=
  rules.leastMatch Nacl.sortKey
    (fun rule => decide (rule.direction = direction) && (rule.protocol == "-1" && contains rule.cidr))

def naclKindAt (direction : Direction) (rules : List NaclRule) : Kleene :=
  if (naclRuleAt contains direction rules).any (fun rule => rule.action = .allow) then .yes else .no

end Judgement

/-- The outcome with every layer judged at the end its rules speak about. -/
def outcomeAtEnds (routeTargets : RouteTargets) (source destination : EniNode) : Kleene :=
  if routeExists source destination routeTargets then
    Kleene.firstUnmet
      [sgKindAt (cidrHolds destination.privateIp) destination.securityGroupIds .egress
          source.egressRules,
        naclKindAt (cidrHolds destination.privateIp) .egress source.naclRules,
        naclKindAt (cidrHolds source.privateIp) .ingress destination.naclRules,
        sgKindAt (cidrHolds source.privateIp) source.securityGroupIds .ingress
          destination.ingressRules]
  else .no

/-- What a reachable finding about the pair asserts of its rules. -/
def AdmitsEnds (source destination : EniNode) : Prop :=
  (∃ rule ∈ source.egressRules, rule.direction = .egress ∧
      sgRuleKindAt (cidrHolds destination.privateIp) destination.securityGroupIds rule = .yes) ∧
    (∃ rule, naclRuleAt (cidrHolds destination.privateIp) .egress source.naclRules = some rule ∧
      rule.action = .allow) ∧
    (∃ rule, naclRuleAt (cidrHolds source.privateIp) .ingress destination.naclRules = some rule ∧
      rule.action = .allow) ∧
    ∃ rule ∈ destination.ingressRules, rule.direction = .ingress ∧
      sgRuleKindAt (cidrHolds source.privateIp) source.securityGroupIds rule = .yes

/-- The interface with other rule sets. -/
def EniNode.withRules (eni : EniNode) (egressRules ingressRules : List SgRule)
    (naclRules : List NaclRule) : EniNode :=
  { eni with egressRules, ingressRules, naclRules }

/-- Every candidate of the pair, whatever its rule sets, is judged at both ends. -/
def JudgedAtEnds (computedAt boundaryId : String) (routeTargets : RouteTargets)
    (source destination : EniNode) : Prop :=
  ∀ sourceEgress sourceIngress sourceNacl destinationEgress destinationIngress destinationNacl
    candidate,
    let source' := EniNode.withRules source sourceEgress sourceIngress sourceNacl
    let destination' := EniNode.withRules destination destinationEgress destinationIngress destinationNacl
    pairCandidate boundaryId routeTargets source' destination' = some candidate →
      (evaluateCandidate computedAt candidate).reachability.kind =
          outcomeAtEnds routeTargets source' destination' ∧
        ((evaluateCandidate computedAt candidate).reachability = .reachable →
          AdmitsEnds source' destination')

section Engine

variable {contains : String → Bool} {peerAddress : IpAddr}

private theorem ruleKind_worstCaseTraffic (same : contains = fun cidr => cidrAdmits cidr peerAddress)
    (groups : List String) (rule : SgRule) :
    Sg.ruleKind (worstCaseTraffic peerAddress) groups rule = sgRuleKindAt contains groups rule := by
  subst same
  by_cases sentinel : rule.protocol = "-1"
  · simp only [Sg.ruleKind, worstCaseTraffic, sgRuleKindAt, sentinel, ruleCovers_sentinel, ↓reduceIte]
    rfl
  · simp [Sg.ruleKind, worstCaseTraffic, sgRuleKindAt, ruleCovers_all, sentinel]

private theorem sgEvaluate_worstCaseTraffic
    (same : contains = fun cidr => cidrAdmits cidr peerAddress) (groups : List String)
    (securityGroupId : String) (direction : Direction) (rules : List SgRule) :
    (Sg.evaluate securityGroupId rules direction (worstCaseTraffic peerAddress) ⟨groups⟩).kind =
      sgKindAt contains groups direction rules := by
  rw [Sg.evaluate_kind, sgKindAt]
  exact congrArg Kleene.any (List.map_congr_left fun rule _ => ruleKind_worstCaseTraffic same groups rule)

private theorem naclEvaluate_worstCaseTraffic
    (same : contains = fun cidr => cidrAdmits cidr peerAddress) (networkAclId : String)
    (direction : Direction) (rules : List NaclRule) :
    (Nacl.evaluate networkAclId rules direction (worstCaseTraffic peerAddress)).kind =
      naclKindAt contains direction rules := by
  have selected : Nacl.deciding rules direction (worstCaseTraffic peerAddress) =
      naclRuleAt contains direction rules := by
    subst same
    refine List.leastMatch_congr fun rule _ => ?_
    rw [Nacl.ruleMatches_eq, worstCaseTraffic, ruleCovers_all]
  rw [Nacl.evaluate_eq, selected, naclKindAt]
  cases naclRuleAt contains direction rules with
  | none => rfl
  | some rule => cases action : rule.action <;> simp [Nacl.verdictOf, Verdict.kind, action]

private theorem cidrHolds_parsed {text : String} (parsed : parseIpAddr text = some peerAddress) :
    cidrHolds text = fun cidr => cidrAdmits cidr peerAddress := by
  funext cidr
  rw [cidrHolds, parsed]

/-- With one address at both ends, the engine judges every layer at its end. -/
private theorem reachability_kind_sameAddress (computedAt boundaryId : String)
    (routeTargets : RouteTargets) {source destination : EniNode} {candidate : PathCandidate}
    (parsedSource : parseIpAddr source.privateIp = some peerAddress)
    (parsedDestination : parseIpAddr destination.privateIp = some peerAddress)
    (built : pairCandidate boundaryId routeTargets source destination = some candidate) :
    (evaluateCandidate computedAt candidate).reachability.kind =
      outcomeAtEnds routeTargets source destination := by
  simp only [pairCandidate, parsedSource, Option.map_some, Option.some.injEq] at built
  subst built
  cases routed : routeExists source destination routeTargets with
  | false => simp [reachability_no_route, routed, outcomeAtEnds, Reachability.kind]
  | true =>
    have sourceHolds := cidrHolds_parsed parsedSource
    have destinationHolds := cidrHolds_parsed parsedDestination
    rw [reachability_kind computedAt _ rfl, outcomeAtEnds, if_pos routed]
    simp only [layerKinds, layerOrder, List.map_cons, List.map_nil, layerVerdict,
      EniNode.sourceEndpoint, EniNode.destinationEndpoint, Sg.evaluateSgEgress, Sg.evaluateSgIngress,
      Nacl.evaluateNaclEgress, Nacl.evaluateNaclIngress, sgEvaluate_worstCaseTraffic sourceHolds,
      naclEvaluate_worstCaseTraffic sourceHolds]
    rw [sourceHolds, destinationHolds]

end Engine

private theorem sgKindAt_yes {contains : String → Bool} {groups : List String}
    {direction : Direction} {rules : List SgRule}
    (admitted : sgKindAt contains groups direction rules = .yes) :
    ∃ rule ∈ rules, rule.direction = direction ∧ sgRuleKindAt contains groups rule = .yes := by
  obtain ⟨rule, member, kind⟩ := List.mem_map.mp (Kleene.any_eq_yes_iff.mp admitted)
  obtain ⟨inRules, inDirection⟩ := List.mem_filter.mp member
  exact ⟨rule, inRules, by simpa using inDirection, kind⟩

private theorem naclKindAt_yes {contains : String → Bool} {direction : Direction}
    {rules : List NaclRule} (admitted : naclKindAt contains direction rules = .yes) :
    ∃ rule, naclRuleAt contains direction rules = some rule ∧ rule.action = .allow := by
  unfold naclKindAt at admitted
  cases selected : naclRuleAt contains direction rules with
  | none => simp [selected] at admitted
  | some rule => exact ⟨rule, rfl, by simpa [selected] using admitted⟩

private theorem admitsEnds_of_outcome {routeTargets : RouteTargets} {source destination : EniNode}
    (outcome : outcomeAtEnds routeTargets source destination = .yes) :
    AdmitsEnds source destination := by
  unfold outcomeAtEnds at outcome
  split at outcome
  · have met := Kleene.firstUnmet_eq_yes_iff.mp outcome
    simp only [List.forall_mem_cons] at met
    obtain ⟨sgEgress, naclEgress, naclIngress, sgIngress, _⟩ := met
    exact ⟨sgKindAt_yes sgEgress, naclKindAt_yes naclEgress, naclKindAt_yes naclIngress,
      sgKindAt_yes sgIngress⟩
  · cases outcome

/-- Allow rules for one CIDR, in both directions. -/
private def onlyCidr (cidr : String) (eni : EniNode) : EniNode :=
  EniNode.withRules eni [⟨.egress, "-1", none, .cidr cidr, true⟩]
    [⟨.ingress, "-1", none, .cidr cidr, true⟩]
    [⟨100, .ingress, "-1", none, cidr, .allow⟩, ⟨100, .egress, "-1", none, cidr, .allow⟩]

/-- Rules for the source's own host CIDR let the engine through. -/
private theorem reachable_onlyCidr (computedAt boundaryId : String) {routeTargets : RouteTargets}
    {source destination : EniNode} {peerAddress : IpAddr} {cidr : String}
    (routed : routeExists source destination routeTargets = true)
    (inside : cidrAdmits cidr peerAddress = true) {candidate : PathCandidate}
    (parsed : parseIpAddr source.privateIp = some peerAddress)
    (built : pairCandidate boundaryId routeTargets (onlyCidr cidr source) (onlyCidr cidr destination) =
      some candidate) :
    (evaluateCandidate computedAt candidate).reachability = .reachable := by
  have parsed' : parseIpAddr (onlyCidr cidr source).privateIp = some peerAddress := parsed
  simp only [pairCandidate, parsed', Option.map_some, Option.some.injEq] at built
  subst built
  refine (reachable_iff computedAt _).mpr ⟨routed, ?_⟩
  simp [layerOrder, layerAdmits, EniNode.sourceEndpoint, EniNode.destinationEndpoint, onlyCidr,
    EniNode.withRules, Sg.admits, Sg.ruleKind, Nacl.admits, Nacl.deciding, List.leastMatch,
    Nacl.ruleMatches_eq, worstCaseTraffic, inside]

/-- Every rule set of a pair is judged at both ends exactly when the pair is skipped, has no route,
or has one address at both ends. -/
theorem judgedAtEnds_iff (computedAt boundaryId : String) (routeTargets : RouteTargets)
    (source destination : EniNode) :
    JudgedAtEnds computedAt boundaryId routeTargets source destination ↔
      parseIpAddr source.privateIp = none ∨ routeExists source destination routeTargets = false ∨
        parseIpAddr destination.privateIp = parseIpAddr source.privateIp := by
  constructor
  · intro judged
    cases parsed : parseIpAddr source.privateIp with
    | none => exact .inl rfl
    | some peerAddress =>
      cases routed : routeExists source destination routeTargets with
      | false => exact .inr (.inl rfl)
      | true =>
        -- The source's own host CIDR separates its address from any other.
        obtain ⟨cidr, only⟩ : ∃ cidr, ∀ address, cidrAdmits cidr address = decide (peerAddress = address) :=
          ⟨_, cidrAdmits_host parsed⟩
        have inside : cidrAdmits cidr peerAddress = true := by simp [only]
        obtain ⟨candidate, built⟩ : ∃ candidate, pairCandidate boundaryId routeTargets
            (onlyCidr cidr source) (onlyCidr cidr destination) = some candidate :=
          Option.isSome_iff_exists.mp (by simp [pairCandidate, onlyCidr, EniNode.withRules, parsed])
        obtain ⟨⟨rule, member, _, admitted⟩, _⟩ :=
          (judged _ _ _ _ _ _ candidate built).2
            (reachable_onlyCidr computedAt boundaryId routed inside parsed built)
        obtain rfl : rule = ⟨.egress, "-1", none, .cidr cidr, true⟩ := by
          simpa [onlyCidr, EniNode.withRules] using member
        change sgRuleKindAt (cidrHolds destination.privateIp) _ _ = _ at admitted
        have held : cidrHolds destination.privateIp cidr = true := by
          simpa [sgRuleKindAt] using admitted
        refine .inr (.inr ?_)
        unfold cidrHolds at held
        cases parsedDestination : parseIpAddr destination.privateIp with
        | none => simp [parsedDestination] at held
        | some address =>
          simp only [parsedDestination, only, decide_eq_true_eq] at held
          rw [held]
  · intro condition _ _ _ _ _ _ candidate source' destination' built
    suffices judged : (evaluateCandidate computedAt candidate).reachability.kind =
        outcomeAtEnds routeTargets source' destination' from
      ⟨judged, fun reachable => admitsEnds_of_outcome (judged.symm.trans (by rw [reachable]; rfl))⟩
    cases parsed : parseIpAddr source.privateIp with
    | none =>
      have skipped : parseIpAddr source'.privateIp = none := parsed
      simp [pairCandidate, skipped] at built
    | some peerAddress =>
      rcases condition with unparsed | unrouted | same
      · simp [unparsed] at parsed
      · have unrouted' : routeExists source' destination' routeTargets = false := unrouted
        have noRoute : candidate.routeExists = false := by
          obtain ⟨_, _, rfl⟩ := Option.map_eq_some_iff.mp built
          exact unrouted'
        rw [reachability_no_route computedAt candidate noRoute, outcomeAtEnds, unrouted']
        rfl
      · have parsed' : parseIpAddr source'.privateIp = some peerAddress := parsed
        exact reachability_kind_sameAddress computedAt boundaryId routeTargets parsed'
          (same.trans parsed) built

/-- An interface whose egress rule covers its own network only. -/
def homeboundSource : EniNode where
  id := "eni-a"
  vpcId := "vpc-1"
  subnetId := "subnet-1"
  privateIp := "10.0.0.10"
  securityGroupIds := ["sg-a"]
  egressRules := [⟨.egress, "-1", none, .cidr "10.0.0.0/16", true⟩]
  ingressRules := []
  naclRules := [⟨100, .egress, "-1", none, "0.0.0.0/0", .allow⟩]
  routeTableId := some "rtb-a"

/-- An interface of another network, open to everyone. -/
def openDestination : EniNode where
  id := "eni-b"
  vpcId := "vpc-2"
  subnetId := "subnet-2"
  privateIp := "10.1.0.10"
  securityGroupIds := ["sg-b"]
  egressRules := []
  ingressRules := [⟨.ingress, "-1", none, .cidr "0.0.0.0/0", true⟩]
  naclRules := [⟨100, .ingress, "-1", none, "0.0.0.0/0", .allow⟩]
  routeTableId := some "rtb-b"

def peeredTargets : RouteTargets := fun routeTableId =>
  if routeTableId = "rtb-a" then some ["vpc-1", "vpc-2"]
  else if routeTableId = "rtb-b" then some ["vpc-2", "vpc-1"] else none

theorem pairCandidates_homebound :
    (pairCandidates "boundary" ⟨["vpc-2"], [], []⟩ peeredTargets [homeboundSource, openDestination]).map
        (fun candidate => (evaluateCandidate "" candidate).reachability) = [.reachable] ∧
      outcomeAtEnds peeredTargets homeboundSource openDestination = .no ∧
      homeboundSource.egressRules.map SgRule.target = [.cidr "10.0.0.0/16"] ∧
      cidrHolds openDestination.privateIp "10.0.0.0/16" = false := by
  decide

end NetHound.Soundness
