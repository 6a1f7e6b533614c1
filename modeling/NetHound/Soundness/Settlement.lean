import NetHound.Evaluate.Engine

/-! # Settling unresolved references

An unresolved security group reference may turn out to name a group the other endpoint belongs to
or one it does not. `Settles` is one rule's possible outcome and `Settlement` a candidate's, every
rule on its own. The evaluation of a settled candidate refines the evaluation of the original one
in the information order, so no decided outcome is ever reversed; an undecided layer goes the way
its references are settled.
-/

namespace NetHound.Soundness

open Domain Net Evaluate

/-- A rule that waits on an unresolved security group reference. -/
def IsUnresolved (rule : SgRule) : Prop :=
  rule.resolved = false ∧ ∃ refId, rule.target = .securityGroupRef refId

/-- An unresolved reference becomes a resolved one to a group `choice` admits; other rules stay. -/
inductive Settles (choice : String → Prop) : SgRule → SgRule → Prop
  | reference {rule : SgRule} {group : String} (unresolved : IsUnresolved rule)
      (chosen : choice group) :
      Settles choice rule { rule with target := .securityGroupRef group, resolved := true }
  | unchanged {rule : SgRule} (settled : ¬ IsUnresolved rule) : Settles choice rule rule

/-- Every rule of both endpoints settled either way, and nothing else changed. -/
structure Settlement (candidate settled : PathCandidate) : Prop where
  source : List.Forall₂ (Settles fun _ => True) candidate.source.securityGroupRules
    settled.source.securityGroupRules
  destination : List.Forall₂ (Settles fun _ => True) candidate.destination.securityGroupRules
    settled.destination.securityGroupRules
  frame : settled = { candidate with
    source := { candidate.source with securityGroupRules := settled.source.securityGroupRules }
    destination :=
      { candidate.destination with securityGroupRules := settled.destination.securityGroupRules } }

/-- The endpoint whose rules a layer evaluates. -/
def layerEndpoint (candidate : PathCandidate) : EvaluationLayer → EndpointCandidate
  | .sgEgress | .naclEgress => candidate.source
  | .naclIngress | .sgIngress => candidate.destination

/-- The endpoint on the other side of a layer. -/
def otherEndpoint (candidate : PathCandidate) : EvaluationLayer → EndpointCandidate
  | .sgEgress | .naclEgress => candidate.destination
  | .naclIngress | .sgIngress => candidate.source

theorem Settles.direction {choice : String → Prop} {rule settled : SgRule}
    (settles : Settles choice rule settled) : settled.direction = rule.direction := by
  cases settles <;> rfl

private theorem ruleKind_unresolved {rule : SgRule} (unresolved : IsUnresolved rule)
    (traffic : Traffic) (groups : List String) :
    Sg.ruleKind traffic groups rule =
      if ruleCovers rule.protocol rule.portRange traffic then .unknown else .no := by
  obtain ⟨flag, refId, target⟩ := unresolved
  simp [Sg.ruleKind, flag, target]

private theorem ruleKind_ne_unknown {rule : SgRule} (settled : ¬ IsUnresolved rule)
    (traffic : Traffic) (groups : List String) : Sg.ruleKind traffic groups rule ≠ .unknown := by
  by_cases covered : ruleCovers rule.protocol rule.portRange traffic
  · simp only [Sg.ruleKind, covered, ↓reduceIte]
    cases target : rule.target with
    | cidr cidr =>
      dsimp only
      split <;> simp
    | securityGroupRef refId =>
      have flag : rule.resolved = true := by
        by_contra unresolved
        exact settled ⟨by simpa using unresolved, refId, target⟩
      simp only [flag, ↓reduceIte]
      split <;> simp
  · simp [Sg.ruleKind, covered]

private theorem ruleKind_reference (rule : SgRule) (group : String) (traffic : Traffic)
    (groups : List String) :
    Sg.ruleKind traffic groups { rule with target := .securityGroupRef group, resolved := true } =
      if ruleCovers rule.protocol rule.portRange traffic then (if group ∈ groups then .yes else .no)
      else .no := rfl

/-- Settling a rule settles its truth value and never reverses it. -/
theorem Settles.refines {choice : String → Prop} {rule settled : SgRule}
    (settles : Settles choice rule settled) (traffic : Traffic) (groups : List String) :
    (Sg.ruleKind traffic groups rule).Refines (Sg.ruleKind traffic groups settled) := by
  cases settles with
  | reference unresolved _ =>
    rw [ruleKind_unresolved unresolved, ruleKind_reference]
    split_ifs <;> decide
  | unchanged _ => exact .refl _

/-- A rule settled to a group the peer is not in admits only what it admitted before. -/
theorem Settles.nonMember {groups : List String} {rule settled : SgRule}
    (settles : Settles (· ∉ groups) rule settled) (traffic : Traffic)
    (notAdmitted : Sg.ruleKind traffic groups rule ≠ .yes) :
    Sg.ruleKind traffic groups settled = .no := by
  cases settles with
  | reference unresolved notMember =>
    rw [ruleKind_reference, if_neg notMember, ite_self]
  | unchanged decided =>
    have known := ruleKind_ne_unknown decided traffic groups
    cases kind : Sg.ruleKind traffic groups rule <;> simp_all

/-- An undecided rule settled to a group the peer is in admits. -/
theorem Settles.member {groups : List String} {rule settled : SgRule}
    (settles : Settles (· ∈ groups) rule settled) (traffic : Traffic)
    (undecided : Sg.ruleKind traffic groups rule = .unknown) :
    Sg.ruleKind traffic groups settled = .yes := by
  cases settles with
  | reference unresolved isMember =>
    rw [ruleKind_unresolved unresolved] at undecided
    split_ifs at undecided with covered
    rw [ruleKind_reference, if_pos covered, if_pos isMember]
  | unchanged decided => exact absurd undecided (ruleKind_ne_unknown decided traffic groups)

section Evaluation

variable {choice : String → Prop} {rules settled : List SgRule}

private theorem settles_ofDirection (settles : List.Forall₂ (Settles choice) rules settled)
    (direction : Direction) :
    List.Forall₂ (Settles choice) (Sg.ofDirection direction rules)
      (Sg.ofDirection direction settled) := by
  refine List.rel_filter ?_ settles
  intro rule rule' same
  simp [same.direction]

/-- Settling the rules refines the evaluation of a direction. -/
theorem evaluate_refines (settles : List.Forall₂ (Settles choice) rules settled)
    (securityGroupId : String) (direction : Direction) (traffic : Traffic) (peer : Sg.PeerIdentity) :
    (Sg.evaluate securityGroupId rules direction traffic peer).kind.Refines
      (Sg.evaluate securityGroupId settled direction traffic peer).kind := by
  rw [Sg.evaluate_kind, Sg.evaluate_kind]
  refine Kleene.any_refines ?_
  rw [List.forall₂_map_left_iff, List.forall₂_map_right_iff]
  exact (settles_ofDirection settles direction).imp
    fun _ _ rule => rule.refines traffic peer.securityGroupIds

private theorem exists_settled {rule : SgRule} (settles : List.Forall₂ (Settles choice) rules settled)
    (member : rule ∈ rules) : ∃ rule' ∈ settled, Settles choice rule rule' := by
  induction settles with
  | nil => cases member
  | cons head _ ih =>
    rcases List.mem_cons.mp member with rfl | member
    · exact ⟨_, List.mem_cons_self, head⟩
    · obtain ⟨rule', member', settles⟩ := ih member
      exact ⟨rule', List.mem_cons_of_mem _ member', settles⟩

private theorem exists_original {rule' : SgRule}
    (settles : List.Forall₂ (Settles choice) rules settled) (member : rule' ∈ settled) :
    ∃ rule ∈ rules, Settles choice rule rule' := by
  induction settles with
  | nil => cases member
  | cons head _ ih =>
    rcases List.mem_cons.mp member with rfl | member
    · exact ⟨_, List.mem_cons_self, head⟩
    · obtain ⟨rule, member', settles⟩ := ih member
      exact ⟨rule, List.mem_cons_of_mem _ member', settles⟩

variable {groups : List String}

theorem evaluate_settled_nonMember (settles : List.Forall₂ (Settles (· ∉ groups)) rules settled)
    (securityGroupId : String) (direction : Direction) (traffic : Traffic)
    (undecided : (Sg.evaluate securityGroupId rules direction traffic ⟨groups⟩).kind = .unknown) :
    (Sg.evaluate securityGroupId settled direction traffic ⟨groups⟩).kind = .no := by
  rw [Sg.evaluate_kind, Kleene.any_eq_unknown_iff] at undecided
  rw [Sg.evaluate_kind, Kleene.any_eq_no_iff]
  intro kind present
  obtain ⟨rule', member', rfl⟩ := List.mem_map.mp present
  obtain ⟨rule, member, settled⟩ := exists_original (settles_ofDirection settles direction) member'
  exact settled.nonMember traffic fun admitted =>
    undecided.1 (List.mem_map.mpr ⟨rule, member, admitted⟩)

theorem evaluate_settled_member (settles : List.Forall₂ (Settles (· ∈ groups)) rules settled)
    (securityGroupId : String) (direction : Direction) (traffic : Traffic)
    (undecided : (Sg.evaluate securityGroupId rules direction traffic ⟨groups⟩).kind = .unknown) :
    (Sg.evaluate securityGroupId settled direction traffic ⟨groups⟩).kind = .yes := by
  rw [Sg.evaluate_kind, Kleene.any_eq_unknown_iff] at undecided
  rw [Sg.evaluate_kind, Kleene.any_eq_yes_iff]
  obtain ⟨rule, member, unknown⟩ := List.mem_map.mp undecided.2
  obtain ⟨rule', member', settled⟩ := exists_settled (settles_ofDirection settles direction) member
  exact List.mem_map.mpr ⟨rule', member', settled.member traffic unknown⟩

end Evaluation

section Candidates

variable {candidate settled : PathCandidate}

private theorem layerVerdict_refines (settlement : Settlement candidate settled)
    (layer : EvaluationLayer) :
    (layerVerdict candidate layer).kind.Refines (layerVerdict settled layer).kind := by
  rw [settlement.frame]
  cases layer with
  | sgEgress => exact evaluate_refines settlement.source _ _ _ _
  | sgIngress => exact evaluate_refines settlement.destination _ _ _ _
  | naclEgress | naclIngress => exact .refl _

/-- A settled candidate's outcome refines the original one's. -/
theorem reachability_refines (computedAt : String) (settlement : Settlement candidate settled) :
    (evaluateCandidate computedAt candidate).reachability.kind.Refines
      (evaluateCandidate computedAt settled).reachability.kind := by
  have sameRoute : settled.routeExists = candidate.routeExists := by rw [settlement.frame]
  cases routed : candidate.routeExists with
  | false =>
    rw [reachability_no_route computedAt candidate routed,
      reachability_no_route computedAt settled (sameRoute.trans routed)]
    exact .refl _
  | true =>
    rw [reachability_kind computedAt candidate routed,
      reachability_kind computedAt settled (sameRoute.trans routed)]
    refine Kleene.firstUnmet_refines ?_
    rw [layerKinds, layerKinds, List.forall₂_map_left_iff, List.forall₂_map_right_iff]
    exact List.forall₂_same.mpr fun layer _ => layerVerdict_refines settlement layer

/-- An indeterminate outcome lists the one security group layer evaluation stopped at. -/
theorem indeterminate_layer (computedAt : String) {layers : List EvaluationLayer}
    (outcome : (evaluateCandidate computedAt candidate).reachability = .indeterminate layers) :
    ∃ layer, layers = [layer] ∧ (layer = .sgEgress ∨ layer = .sgIngress) ∧
      (layerVerdict candidate layer).kind = .unknown := by
  cases routed : candidate.routeExists with
  | false =>
    rw [reachability_no_route computedAt candidate routed] at outcome
    cases outcome
  | true =>
    rw [evaluateCandidate_eq computedAt candidate routed] at outcome
    change combineVerdicts _ = _ at outcome
    rw [combineVerdicts_eq] at outcome
    change _ = Reachability.ofCombined (.unknown layers) at outcome
    have combined := Reachability.ofCombined_injective outcome
    obtain ⟨step, member, unknown, named⟩ := Kleene.combine_consulted_unknown combined
    obtain ⟨layer, _, rfl⟩ := List.mem_map.mp member
    refine ⟨layer, named, ?_, unknown⟩
    have undecided := (layerVerdict_kind_unknown_iff candidate layer).mp unknown
    cases layer with
    | sgEgress => exact .inl rfl
    | sgIngress => exact .inr rfl
    | naclEgress | naclIngress => exact undecided.elim

/-- Settling references never reverses a decided outcome, and decides an undecided layer the way
its references are settled. -/
theorem evaluateCandidate_settlement (computedAt : String)
    (settlement : Settlement candidate settled) :
    ((evaluateCandidate computedAt candidate).reachability = .reachable →
        (evaluateCandidate computedAt settled).reachability = .reachable) ∧
      ((evaluateCandidate computedAt candidate).reachability = .notReachable →
        (evaluateCandidate computedAt settled).reachability = .notReachable) ∧
      ∀ layers, (evaluateCandidate computedAt candidate).reachability = .indeterminate layers →
        ∃ layer, layers = [layer] ∧
          (List.Forall₂ (Settles (· ∉ (otherEndpoint candidate layer).peerSecurityGroupIds))
              (layerEndpoint candidate layer).securityGroupRules
              (layerEndpoint settled layer).securityGroupRules →
            ∃ reason, layerVerdict settled layer = .denied reason) ∧
          (List.Forall₂ (Settles (· ∈ (otherEndpoint candidate layer).peerSecurityGroupIds))
              (layerEndpoint candidate layer).securityGroupRules
              (layerEndpoint settled layer).securityGroupRules →
            ∃ matchedBy, layerVerdict settled layer = .allowed matchedBy) := by
  have refines := reachability_refines computedAt settlement
  refine ⟨?_, ?_, ?_⟩
  · intro reachable
    rw [reachable] at refines
    exact Reachability.kind_eq_yes_iff.mp refines.yes
  · intro notReachable
    rw [notReachable] at refines
    exact Reachability.kind_eq_no_iff.mp refines.no
  · intro layers outcome
    obtain ⟨layer, named, which, undecided⟩ := indeterminate_layer computedAt outcome
    refine ⟨layer, named, fun settles => Verdict.kind_eq_no_iff.mp ?_,
      fun settles => Verdict.kind_eq_yes_iff.mp ?_⟩
    all_goals
      rw [settlement.frame]
      rw [settlement.frame] at settles
    · rcases which with rfl | rfl <;> exact evaluate_settled_nonMember settles _ _ _ undecided
    · rcases which with rfl | rfl <;> exact evaluate_settled_member settles _ _ _ undecided

end Candidates

/-- A path that waits on one unresolved reference of its source. -/
def waiting : PathCandidate where
  source := ⟨"eni-a", ["sg-a"], [⟨.egress, "-1", none, .securityGroupRef "sg-x", false⟩], "subnet-a",
    [⟨100, .egress, "-1", none, "0.0.0.0/0", .allow⟩]⟩
  destination := ⟨"eni-b", ["sg-b"], [⟨.ingress, "-1", none, .cidr "0.0.0.0/0", true⟩], "subnet-b",
    [⟨100, .ingress, "-1", none, "0.0.0.0/0", .allow⟩]⟩
  routeExists := true
  traffic := ⟨.all, none, .v4 0x0A00000A⟩
  destinationBoundary := "boundary"

/-- The same path with the reference settled to the destination's own group. -/
def waitingSettled : PathCandidate :=
  { waiting with
    source := { waiting.source with
      securityGroupRules := [⟨.egress, "-1", none, .securityGroupRef "sg-b", true⟩] } }

private theorem waiting_settlement : Settlement waiting waitingSettled where
  source := .cons (.reference ⟨rfl, "sg-x", rfl⟩ trivial) .nil
  destination := .cons (.unchanged fun unresolved => by simp [IsUnresolved] at unresolved) .nil
  frame := rfl

theorem evaluateCandidate_settlement_waiting :
    (evaluateCandidate "" waiting).reachability = .indeterminate [.sgEgress] ∧
      ∃ matchedBy, layerVerdict waitingSettled .sgEgress = .allowed matchedBy := by
  have outcome : (evaluateCandidate "" waiting).reachability = .indeterminate [.sgEgress] := by decide
  obtain ⟨layer, named, _, member⟩ :=
    (evaluateCandidate_settlement "" waiting_settlement).2.2 _ outcome
  obtain rfl : layer = .sgEgress := by simpa using named.symm
  refine ⟨outcome, member (.cons (.reference ⟨rfl, "sg-x", rfl⟩ ?_) .nil)⟩
  simp [otherEndpoint, waiting]

end NetHound.Soundness
