import NetHound.Evaluate.Engine

/-! # Evidence as a certificate

A finding's evidence can be checked against its candidate without the evaluators. `RuleAdmits` and
`RuleAwaits` read one rule, `SgReplays` and `NaclReplays` say what a verdict asserts about the rules
it was computed from, and `Certificate` is the shape of the steps, their agreement with the reported
reachability and the replay of each.
-/

namespace NetHound.Soundness

open Domain Net Evaluate

/-! ## Replaying one step -/

/-- The rule lets the traffic through: it covers protocol and port and names the peer, by an address
range or by a membership that could be resolved. -/
inductive RuleAdmits (traffic : Traffic) (groups : List String) (rule : SgRule) : Prop where
  | cidr {cidr : String} (covers : ruleCovers rule.protocol rule.portRange traffic = true)
      (target : rule.target = .cidr cidr) (contains : cidrContains cidr traffic.peerAddress = some true)
  | member {refId : String} (covers : ruleCovers rule.protocol rule.portRange traffic = true)
      (target : rule.target = .securityGroupRef refId) (resolved : rule.resolved = true)
      (member : refId ∈ groups)

/-- The rule covers protocol and port and refers to a group that could not be resolved. -/
structure RuleAwaits (traffic : Traffic) (refId : String) (rule : SgRule) : Prop where
  covers : ruleCovers rule.protocol rule.portRange traffic = true
  target : rule.target = .securityGroupRef refId
  unresolved : rule.resolved = false

/-- The rule covers protocol and port and its CIDR contains the peer. -/
structure RuleApplies (traffic : Traffic) (rule : NaclRule) : Prop where
  covers : ruleCovers rule.protocol rule.portRange traffic = true
  contains : cidrContains rule.cidr traffic.peerAddress = some true

/-- What a security group verdict asserts about the rules of its direction. -/
def SgReplays (owner : String) (rules : List SgRule) (direction : Direction) (traffic : Traffic)
    (groups : List String) : Verdict → Prop
  | .allowed matchedBy => ∃ index, matchedBy = .securityGroup owner index ∧
      ∃ bound : index < rules.length, rules[index].direction = direction ∧
        RuleAdmits traffic groups rules[index] ∧
        ∀ (earlier : ℕ) (before : earlier < index), rules[earlier].direction = direction →
          ¬ RuleAdmits traffic groups rules[earlier]
  | .indeterminate (.unresolvedReference refId) =>
      (∀ rule ∈ rules, rule.direction = direction → ¬ RuleAdmits traffic groups rule) ∧
        ∃ before rule after, rules = before ++ rule :: after ∧ rule.direction = direction ∧
          RuleAwaits traffic refId rule ∧
          ∀ earlier ∈ before, earlier.direction = direction → ∀ other, ¬ RuleAwaits traffic other earlier
  | .denied reason => reason = .noMatchingRule ∧ ∀ rule ∈ rules, rule.direction = direction →
      ¬ RuleAdmits traffic groups rule ∧ ∀ refId, ¬ RuleAwaits traffic refId rule

/-- The rule decides its direction: it applies, every other applying rule has a number at least as
great, and a greater one when it is listed before. -/
def NaclDecides (rules : List NaclRule) (direction : Direction) (traffic : Traffic) (rule : NaclRule) :
    Prop :=
  ∃ before after, rules = before ++ rule :: after ∧ rule.direction = direction ∧
    RuleApplies traffic rule ∧
    (∀ other ∈ before, other.direction = direction → RuleApplies traffic other →
      rule.ruleNumber < other.ruleNumber) ∧
    ∀ other ∈ after, other.direction = direction → RuleApplies traffic other →
      rule.ruleNumber ≤ other.ruleNumber

/-- What a network ACL verdict asserts about the rules of its direction. -/
def NaclReplays (owner : String) (rules : List NaclRule) (direction : Direction) (traffic : Traffic) :
    Verdict → Prop
  | .allowed matchedBy => ∃ rule, NaclDecides rules direction traffic rule ∧ rule.action = .allow ∧
      matchedBy = .networkAcl owner rule.ruleNumber
  | .denied (.explicitDeny matchedBy) => ∃ rule, NaclDecides rules direction traffic rule ∧
      rule.action = .deny ∧ matchedBy = .networkAcl owner rule.ruleNumber
  | .denied .noMatchingRule => ∀ rule ∈ rules, rule.direction = direction → ¬ RuleApplies traffic rule
  | .indeterminate _ => False

/-- What a step asserts about its candidate. -/
def Replays (candidate : PathCandidate) (step : EvaluationStep) : Prop :=
  match step.layer with
  | .sgEgress => step.resourceId = candidate.source.eniId ∧
      SgReplays candidate.source.eniId candidate.source.securityGroupRules .egress candidate.traffic
        candidate.destination.peerSecurityGroupIds step.verdict
  | .naclEgress => step.resourceId = candidate.source.subnetId ∧
      NaclReplays candidate.source.subnetId candidate.source.naclRules .egress candidate.traffic
        step.verdict
  | .naclIngress => step.resourceId = candidate.destination.subnetId ∧
      NaclReplays candidate.destination.subnetId candidate.destination.naclRules .ingress
        candidate.traffic step.verdict
  | .sgIngress => step.resourceId = candidate.destination.eniId ∧
      SgReplays candidate.destination.eniId candidate.destination.securityGroupRules .ingress
        candidate.traffic candidate.source.peerSecurityGroupIds step.verdict

section Rules

variable {direction : Direction} {traffic : Traffic} {groups : List String}

theorem ruleAdmits_iff {rule : SgRule} :
    Sg.ruleKind traffic groups rule = .yes ↔ RuleAdmits traffic groups rule := by
  constructor
  · intro admitted
    rw [Sg.ruleKind] at admitted
    cases target : rule.target with
    | cidr cidr =>
      simp only [target] at admitted
      split_ifs at admitted with covers contains
      rw [cidrAdmits, beq_iff_eq] at contains
      exact .cidr covers target contains
    | securityGroupRef refId =>
      simp only [target] at admitted
      split_ifs at admitted with covers resolved member
      exact .member covers target resolved member
  · rintro (⟨covers, target, contains⟩ | ⟨covers, target, resolved, member⟩)
    · rw [Sg.ruleKind, if_pos covers, target]
      simp only [cidrAdmits, contains, beq_self_eq_true, if_true]
    · rw [Sg.ruleKind, if_pos covers, target]
      simp only [resolved, member, if_true]

private theorem admitsIn_iff {rule : SgRule} : Sg.admitsIn direction traffic groups rule = true ↔
    rule.direction = direction ∧ RuleAdmits traffic groups rule := by
  rw [Sg.admitsIn, Bool.and_eq_true, decide_eq_true_eq, decide_eq_true_eq, ruleAdmits_iff]

theorem awaitedIn_iff {rule : SgRule} {refId : String} :
    Sg.awaitedIn direction traffic rule = some refId ↔
      rule.direction = direction ∧ RuleAwaits traffic refId rule := by
  rw [Sg.awaitedIn]
  constructor
  · intro found
    cases target : rule.target with
    | cidr cidr =>
      simp only [target] at found
      cases found
    | securityGroupRef named =>
      simp only [target] at found
      split_ifs at found with holds
      obtain ⟨ofDirection, covers, unresolved⟩ := holds
      cases found
      exact ⟨ofDirection, covers, target, unresolved⟩
  · rintro ⟨ofDirection, covers, target, unresolved⟩
    simp only [target]
    exact if_pos ⟨ofDirection, covers, unresolved⟩

private theorem not_awaitedIn_iff {rule : SgRule} : Sg.awaitedIn direction traffic rule = none ↔
    (rule.direction = direction → ∀ refId, ¬ RuleAwaits traffic refId rule) := by
  rw [Option.eq_none_iff_forall_ne_some]
  simp only [ne_eq, awaitedIn_iff, not_and]
  exact forall_comm

theorem ruleApplies_iff {rule : NaclRule} :
    (decide (rule.direction = direction) && Nacl.ruleMatches rule traffic) = true ↔
      rule.direction = direction ∧ RuleApplies traffic rule := by
  rw [Bool.and_eq_true, decide_eq_true_eq, Nacl.ruleMatches_eq, Bool.and_eq_true, cidrAdmits, beq_iff_eq]
  refine and_congr_right fun _ => ⟨fun both => ⟨both.1, both.2⟩, fun applies => ?_⟩
  exact ⟨applies.covers, applies.contains⟩

/-- A security group evaluation replays on its rules. -/
theorem sgReplays_evaluate (owner : String) (rules : List SgRule) (direction : Direction)
    (traffic : Traffic) (groups : List String) :
    SgReplays owner rules direction traffic groups
      (Sg.evaluate owner rules direction traffic ⟨groups⟩) := by
  rw [Sg.evaluate_eq]
  cases admitting : rules.findIdx? (Sg.admitsIn direction traffic groups) with
  | some index =>
    obtain ⟨bound, admits, first⟩ := List.findIdx?_eq_some_iff_getElem.mp admitting
    obtain ⟨ofDirection, admits⟩ := admitsIn_iff.mp admits
    refine ⟨index, rfl, bound, ofDirection, admits, fun earlier before sameDirection admits' => ?_⟩
    exact first earlier before (admitsIn_iff.mpr ⟨sameDirection, admits'⟩)
  | none =>
    have none_admits : ∀ rule ∈ rules, rule.direction = direction → ¬ RuleAdmits traffic groups rule := by
      intro rule member ofDirection admits
      have rejected := List.findIdx?_eq_none_iff.mp admitting rule member
      rw [admitsIn_iff.mpr ⟨ofDirection, admits⟩] at rejected
      cases rejected
    cases awaited : rules.findSome? (Sg.awaitedIn direction traffic) with
    | some refId =>
      obtain ⟨before, rule, after, split, found, earlier⟩ := List.findSome?_eq_some_iff.mp awaited
      obtain ⟨ofDirection, awaits⟩ := awaitedIn_iff.mp found
      exact ⟨none_admits, before, rule, after, split, ofDirection, awaits, fun other member =>
        not_awaitedIn_iff.mp (earlier other member)⟩
    | none =>
      refine ⟨rfl, fun rule member ofDirection => ⟨none_admits rule member ofDirection, ?_⟩⟩
      exact not_awaitedIn_iff.mp (List.findSome?_eq_none_iff.mp awaited rule member) ofDirection

/-- The rule that decides is the one the evaluator selects. -/
theorem naclDecides_iff {rules : List NaclRule} {rule : NaclRule} :
    NaclDecides rules direction traffic rule ↔ Nacl.deciding rules direction traffic = some rule := by
  have number {other : NaclRule} : rule.ruleNumber < other.ruleNumber ↔
      Nacl.sortKey rule < Nacl.sortKey other := UInt16.lt_iff_toNat_lt
  have number' {other : NaclRule} : rule.ruleNumber ≤ other.ruleNumber ↔
      Nacl.sortKey rule ≤ Nacl.sortKey other := UInt16.le_iff_toNat_le
  rw [Nacl.deciding, List.leastMatch_eq_some_iff]
  simp only [NaclDecides, ruleApplies_iff, number, number', and_imp, and_assoc]

/-- A network ACL evaluation replays on its rules. -/
theorem naclReplays_evaluate (owner : String) (rules : List NaclRule) (direction : Direction)
    (traffic : Traffic) :
    NaclReplays owner rules direction traffic (Nacl.evaluate owner rules direction traffic) := by
  rw [Nacl.evaluate_eq]
  cases found : Nacl.deciding rules direction traffic with
  | none =>
    intro rule member ofDirection applies
    have rejected := List.leastMatch_eq_none_iff.mp found rule member
    rw [ruleApplies_iff.mpr ⟨ofDirection, applies⟩] at rejected
    cases rejected
  | some rule =>
    have decides := naclDecides_iff.mpr found
    cases action : rule.action with
    | allow =>
      simp only [Nacl.verdictOf, action]
      exact ⟨rule, decides, action, rfl⟩
    | deny =>
      simp only [Nacl.verdictOf, action]
      exact ⟨rule, decides, action, rfl⟩

end Rules

/-! ## The steps of a finding -/

/-- A finding whose evidence proves its verdict. -/
structure Certificate (candidate : PathCandidate) (finding : ReachabilityFinding) : Prop where
  ordered : finding.pathEvidence.steps.map EvaluationStep.layer <+:
    [.sgEgress, .naclEgress, .naclIngress, .sgIngress]
  empty_iff : finding.pathEvidence.steps = [] ↔ candidate.routeExists = false
  allowed_before : ∀ step ∈ finding.pathEvidence.steps.dropLast,
    ∃ matchedBy, step.verdict = .allowed matchedBy
  stopped_short : finding.pathEvidence.steps.length < 4 →
    ∀ step ∈ finding.pathEvidence.steps.getLast?, ∀ matchedBy, step.verdict ≠ .allowed matchedBy
  nacl_decided : ∀ step ∈ finding.pathEvidence.steps,
    step.layer = .naclEgress ∨ step.layer = .naclIngress → ∀ reason, step.verdict ≠ .indeterminate reason
  reachable_iff : finding.reachability = .reachable ↔ finding.pathEvidence.steps.length = 4 ∧
    ∀ step ∈ finding.pathEvidence.steps, ∃ matchedBy, step.verdict = .allowed matchedBy
  indeterminate_iff : ∀ layers, finding.reachability = .indeterminate layers ↔
    ∃ step ∈ finding.pathEvidence.steps.getLast?,
      (∃ reason, step.verdict = .indeterminate reason) ∧ layers = [step.layer]
  notReachable_iff : finding.reachability = .notReachable ↔
    ∀ step ∈ finding.pathEvidence.steps.getLast?, ∃ reason, step.verdict = .denied reason
  replays : ∀ step ∈ finding.pathEvidence.steps, Replays candidate step

/-- Without a route the evidence is empty and the verdict is that there is no path. -/
private theorem certificate_no_route (computedAt : String) {candidate : PathCandidate}
    (unrouted : candidate.routeExists = false) :
    Certificate candidate (evaluateCandidate computedAt candidate) := by
  rw [evaluateCandidate_no_route computedAt candidate unrouted]
  constructor <;> simp [finishWith, unrouted]

section Routed

variable (candidate : PathCandidate)

/-- The steps of a routed candidate. -/
private abbrev steps : List EvaluationStep :=
  Kleene.consulted EvaluationStep.kind (layerSteps candidate)

private theorem steps_ne_nil : steps candidate ≠ [] := by
  rw [steps, ne_eq, Kleene.consulted_eq_nil_iff]
  exact List.cons_ne_nil _ _

private theorem mem_layerSteps {step : EvaluationStep} (member : step ∈ steps candidate) :
    step.resourceId = layerResource candidate step.layer ∧
      step.verdict = layerVerdict candidate step.layer := by
  obtain ⟨layer, _, rfl⟩ := List.mem_map.mp ((Kleene.consulted_prefix _ _).subset member)
  exact ⟨rfl, rfl⟩

private theorem kind_ne_unknown_of_nacl {step : EvaluationStep} (member : step ∈ steps candidate)
    (nacl : step.layer = .naclEgress ∨ step.layer = .naclIngress) : step.kind ≠ .unknown := by
  rw [EvaluationStep.kind, (mem_layerSteps candidate member).2]
  rcases nacl with egress | ingress
  · rw [egress]
    exact Nacl.evaluate_kind_ne_unknown _ _ _ _
  · rw [ingress]
    exact Nacl.evaluate_kind_ne_unknown _ _ _ _

private theorem replays_of_mem {step : EvaluationStep} (member : step ∈ steps candidate) :
    Replays candidate step := by
  obtain ⟨resource, verdict⟩ := mem_layerSteps candidate member
  rw [Replays]
  split <;> next layer =>
    rw [resource, verdict, layer]
    first
      | exact ⟨rfl, sgReplays_evaluate _ _ _ _ _⟩
      | exact ⟨rfl, naclReplays_evaluate _ _ _ _⟩

private theorem length_steps_iff :
    (steps candidate).length = 4 ↔ steps candidate = layerSteps candidate := by
  constructor
  · exact fun full => (Kleene.consulted_prefix _ _).eq_of_length full
  · intro same
    rw [same]
    rfl

private theorem reachability_steps (computedAt : String) (routed : candidate.routeExists = true)
    {step : EvaluationStep} (last : (steps candidate).getLast? = some step) :
    (evaluateCandidate computedAt candidate).reachability =
      .ofCombined (.single step.layer step.kind) := by
  rw [evaluateCandidate_eq computedAt candidate routed]
  change combineVerdicts (steps candidate) = _
  rw [combineVerdicts_eq, Kleene.combine_consulted_getLast EvaluationStep.layer last]

/-- Every step is allowed when the last one is. -/
private theorem forall_allowed_iff_last {last : EvaluationStep}
    (atEnd : (steps candidate).getLast? = some last) :
    (∀ step ∈ steps candidate, step.kind = .yes) ↔ last.kind = .yes := by
  refine ⟨fun allowed => allowed last (List.mem_of_getLast? atEnd), fun allowed step member => ?_⟩
  rw [← List.dropLast_append_getLast? last atEnd] at member
  rcases List.mem_append.mp member with before | isLast
  · exact Kleene.kind_of_mem_dropLast_consulted before
  · rw [List.mem_singleton.mp isLast]
    exact allowed

/-- No layer is left out when the last step is allowed. -/
private theorem length_steps_of_allowed {last : EvaluationStep}
    (atEnd : (steps candidate).getLast? = some last) (allowed : last.kind = .yes) :
    (steps candidate).length = 4 := by
  by_contra short
  have stopped := Kleene.kind_getLast_consulted atEnd fun same =>
    short ((length_steps_iff candidate).mpr same)
  exact stopped allowed

private theorem certificate_routed (computedAt : String) (routed : candidate.routeExists = true) :
    Certificate candidate (evaluateCandidate computedAt candidate) := by
  have evidence : (evaluateCandidate computedAt candidate).pathEvidence.steps = steps candidate := by
    rw [evaluateCandidate_eq computedAt candidate routed]
    rfl
  obtain ⟨last, atEnd⟩ := Option.ne_none_iff_exists'.mp fun empty =>
    steps_ne_nil candidate (List.getLast?_eq_none_iff.mp empty)
  have reachability := reachability_steps candidate computedAt routed atEnd
  constructor
  case ordered =>
    rw [evidence]
    exact (Kleene.consulted_prefix _ _).map EvaluationStep.layer
  case empty_iff =>
    rw [evidence, routed]
    exact iff_of_false (steps_ne_nil candidate) Bool.noConfusion
  case allowed_before =>
    intro step member
    rw [evidence] at member
    have allowed : step.kind = .yes := Kleene.kind_of_mem_dropLast_consulted member
    exact Verdict.kind_eq_yes_iff.mp allowed
  case stopped_short =>
    rw [evidence]
    intro short step isLast matchedBy allowed
    refine Kleene.kind_getLast_consulted isLast (fun same => ?_)
      (Verdict.kind_eq_yes_iff.mpr ⟨matchedBy, allowed⟩)
    have full := (length_steps_iff candidate).mpr same
    omega
  case nacl_decided =>
    rw [evidence]
    intro step member nacl reason undecided
    apply kind_ne_unknown_of_nacl candidate member nacl
    rw [EvaluationStep.kind, undecided]
    rfl
  case reachable_iff =>
    rw [evidence, reachability]
    simp only [← Verdict.kind_eq_yes_iff]
    change _ ↔ _ ∧ ∀ step ∈ steps candidate, step.kind = .yes
    rw [forall_allowed_iff_last candidate atEnd,
      and_iff_right_of_imp (length_steps_of_allowed candidate atEnd)]
    cases last.kind <;> simp [Kleene.Combined.single, Reachability.ofCombined]
  case indeterminate_iff =>
    rw [evidence, reachability, atEnd]
    intro layers
    simp only [Option.mem_some_iff, exists_eq_left', ← Verdict.kind_eq_unknown_iff]
    change _ ↔ last.kind = .unknown ∧ _
    cases last.kind <;> simp [Kleene.Combined.single, Reachability.ofCombined, eq_comm]
  case notReachable_iff =>
    rw [evidence, reachability, atEnd]
    simp only [Option.mem_some_iff, forall_eq', ← Verdict.kind_eq_no_iff]
    change _ ↔ last.kind = .no
    cases last.kind <;> simp [Kleene.Combined.single, Reachability.ofCombined]
  case replays =>
    rw [evidence]
    exact fun step => replays_of_mem candidate

end Routed

/-- Every finding is a certificate: its steps are the layers in order up to the first that is not
allowed, its reachability is read off the last, and each step replays on the candidate's rules. -/
theorem evaluateCandidate_certificate (computedAt : String) (candidate : PathCandidate) :
    Certificate candidate (evaluateCandidate computedAt candidate) := by
  cases routed : candidate.routeExists with
  | false => exact certificate_no_route computedAt routed
  | true => exact certificate_routed candidate computedAt routed

end NetHound.Soundness
