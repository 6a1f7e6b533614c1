import NetHound.Evaluate.Engine
import NetHound.ToMathlib.OrderFree

/-! # Findings and the order rules are listed in

A security group verdict cites a rule by its place in the list and an unresolved reference by the first
rule that has one, so a finding depends on the order of the lists its layers get. `Sg.OrderFree` and
`Nacl.OrderFree` say when a single layer does not; `PathCandidate.OrderFree` asks it of the layers an
evaluation gets to, which is exactly what the finding needs.
-/

namespace NetHound.Evaluate

open Domain Net

namespace Sg

/-- Every rule admits the traffic, or none does and the rules that wait for a group wait for one. -/
def OrderFree (rules : List SgRule) (direction : Direction) (traffic : Traffic) (groups : List String) :
    Prop :=
  (∀ rule ∈ rules, admitsIn direction traffic groups rule = true) ∨
    (∀ rule ∈ rules, admitsIn direction traffic groups rule = false) ∧
      ∀ rule ∈ rules, ∀ rule' ∈ rules, ∀ refId refId', awaitedIn direction traffic rule = some refId →
        awaitedIn direction traffic rule' = some refId' → refId = refId'

private theorem verdictOf_some_inj {securityGroupId : String} {index : ℕ} {index' : Option ℕ}
    {awaited awaited' : Option String}
    (same : verdictOf securityGroupId index' awaited' = verdictOf securityGroupId (some index) awaited) :
    index' = some index := by
  cases index' with
  | some other =>
    have cited := RuleRef.securityGroup.inj (Verdict.allowed.inj same)
    rw [cited.2]
  | none => cases awaited' <;> cases same

private theorem verdictOf_none_inj {securityGroupId : String} {awaited awaited' : Option String} :
    verdictOf securityGroupId none awaited' = verdictOf securityGroupId none awaited ↔
      awaited' = awaited := by
  cases awaited <;> cases awaited' <;> simp [verdictOf]

private theorem findIdx?_none {rules : List SgRule} {direction : Direction} {traffic : Traffic}
    {groups : List String} (none : ∀ rule ∈ rules, admitsIn direction traffic groups rule = false)
    {rules' : List SgRule} (perm : rules.Perm rules') :
    rules'.findIdx? (admitsIn direction traffic groups) = .none :=
  List.findIdx?_eq_none_iff.mpr fun rule member => none rule (perm.mem_iff.mpr member)

/-- A verdict is the same in every order of the rules exactly when they are free of it. -/
theorem evaluate_perm_iff (securityGroupId : String) (rules : List SgRule) (direction : Direction)
    (traffic : Traffic) (peer : PeerIdentity) :
    (∀ rules', rules.Perm rules' → evaluate securityGroupId rules' direction traffic peer =
        evaluate securityGroupId rules direction traffic peer) ↔
      OrderFree rules direction traffic peer.securityGroupIds := by
  simp only [evaluate_eq]
  by_cases none : ∀ rule ∈ rules, admitsIn direction traffic peer.securityGroupIds rule = false
  · have undecided : OrderFree rules direction traffic peer.securityGroupIds ↔
        ∀ rule ∈ rules, ∀ rule' ∈ rules, ∀ refId refId', awaitedIn direction traffic rule = some refId →
          awaitedIn direction traffic rule' = some refId' → refId = refId' := by
      refine ⟨?_, fun alike => .inr ⟨none, alike⟩⟩
      rintro (all | ⟨_, alike⟩)
      · intro rule member
        have admitted := all rule member
        rw [none rule member] at admitted
        cases admitted
      · exact alike
    rw [undecided, ← List.findSome?_perm_iff, findIdx?_none none (.refl _)]
    refine forall₂_congr fun rules' perm => ?_
    rw [findIdx?_none none perm, verdictOf_none_inj]
  · have decided : OrderFree rules direction traffic peer.securityGroupIds ↔
        (∀ rule ∈ rules, admitsIn direction traffic peer.securityGroupIds rule = true) ∨
          ∀ rule ∈ rules, admitsIn direction traffic peer.securityGroupIds rule = false :=
      or_congr_right (iff_of_false (fun both => none both.1) none)
    rw [decided, ← List.findIdx?_perm_iff]
    cases first : rules.findIdx? (admitsIn direction traffic peer.securityGroupIds) with
    | none => exact absurd (List.findIdx?_eq_none_iff.mp first) none
    | some index =>
      constructor
      · exact fun same rules' perm => verdictOf_some_inj (same rules' perm)
      · intro same rules' perm
        rw [same rules' perm]
        rfl

/-- The order of the peer's groups does not matter. -/
theorem evaluate_peer_perm (securityGroupId : String) (rules : List SgRule) (direction : Direction)
    (traffic : Traffic) {groups groups' : List String} (perm : groups.Perm groups') :
    evaluate securityGroupId rules direction traffic ⟨groups⟩ =
      evaluate securityGroupId rules direction traffic ⟨groups'⟩ := by
  have kinds (rule : SgRule) : ruleKind traffic groups rule = ruleKind traffic groups' rule := by
    simp only [ruleKind, perm.mem_iff]
  have admitted : admitsIn direction traffic groups = admitsIn direction traffic groups' := by
    funext rule
    rw [admitsIn, admitsIn, kinds]
  rw [evaluate_eq, evaluate_eq, admitted]

end Sg

namespace Nacl

/-- The predicate of a direction's search. -/
def matchesIn (direction : Direction) (traffic : Traffic) (rule : NaclRule) : Bool :=
  decide (rule.direction = direction) && ruleMatches rule traffic

/-- The matching rules of least number agree on their action. -/
def OrderFree (rules : List NaclRule) (direction : Direction) (traffic : Traffic) : Prop :=
  ∀ rule rule', List.LeastMatches sortKey (matchesIn direction traffic) rules rule →
    List.LeastMatches sortKey (matchesIn direction traffic) rules rule' → rule.action = rule'.action

private theorem verdictOf_inj {networkAclId : String} {rule rule' : Option NaclRule} :
    verdictOf networkAclId rule' = verdictOf networkAclId rule ↔
      rule'.map (fun rule => (rule.ruleNumber, rule.action)) =
        rule.map fun rule => (rule.ruleNumber, rule.action) := by
  rcases rule with _ | rule <;> rcases rule' with _ | rule'
  · simp
  · cases action : rule'.action <;> simp [verdictOf, action]
  · cases action : rule.action <;> simp [verdictOf, action]
  · cases action : rule.action <;> cases action' : rule'.action <;> simp [verdictOf, action, action']

/-- A verdict is the same in every order of the rules exactly when they are free of it. -/
theorem evaluate_perm_iff (networkAclId : String) (rules : List NaclRule) (direction : Direction)
    (traffic : Traffic) :
    (∀ rules', rules.Perm rules' → evaluate networkAclId rules' direction traffic =
        evaluate networkAclId rules direction traffic) ↔
      OrderFree rules direction traffic := by
  have seen : OrderFree rules direction traffic ↔ ∀ rule rule',
      List.LeastMatches sortKey (matchesIn direction traffic) rules rule →
        List.LeastMatches sortKey (matchesIn direction traffic) rules rule' →
          (rule.ruleNumber, rule.action) = (rule'.ruleNumber, rule'.action) := by
    refine forall₂_congr fun rule rule' => forall₂_congr fun least least' => ?_
    have sameNumber : rule.ruleNumber = rule'.ruleNumber :=
      UInt16.toNat_inj.mp (le_antisymm (least.2.2 _ least'.1 least'.2.1) (least'.2.2 _ least.1 least.2.1))
    rw [Prod.mk.injEq, and_iff_right sameNumber]
  rw [seen, ← @List.leastMatch_perm_iff _ _ _ _ _ _ fun rule : NaclRule => (rule.ruleNumber, rule.action)]
  refine forall₂_congr fun rules' perm => ?_
  rw [evaluate_eq, evaluate_eq, verdictOf_inj]
  rfl

/-- Reading the rules in ascending order changes nothing. -/
theorem evaluate_insertionSort (networkAclId : String) (rules : List NaclRule) (direction : Direction)
    (traffic : Traffic) :
    evaluate networkAclId (rules.insertionSort fun a b => sortKey a ≤ sortKey b) direction traffic =
      evaluate networkAclId rules direction traffic := by
  rw [evaluate_eq, evaluate_eq, deciding, deciding, List.leastMatch_insertionSort]

/-- Rules with a number of their own in the direction are free of their order. -/
theorem orderFree_of_unique {rules : List NaclRule} {direction : Direction}
    (unique : ∀ rule ∈ rules, ∀ rule' ∈ rules, rule.direction = direction → rule'.direction = direction →
      rule.ruleNumber = rule'.ruleNumber → rule = rule') (traffic : Traffic) :
    OrderFree rules direction traffic := by
  intro rule rule' least least'
  obtain ⟨ofDirection, _⟩ := Bool.and_eq_true_iff.mp least.2.1
  obtain ⟨ofDirection', _⟩ := Bool.and_eq_true_iff.mp least'.2.1
  have sameNumber : rule.ruleNumber = rule'.ruleNumber :=
    UInt16.toNat_inj.mp (le_antisymm (least.2.2 _ least'.1 least'.2.1) (least'.2.2 _ least.1 least.2.1))
  rw [unique rule least.1 rule' least'.1 (of_decide_eq_true ofDirection) (of_decide_eq_true ofDirection')
    sameNumber]

end Nacl

/-! ## Candidates -/

/-- One end of a candidate, up to the order of its lists. -/
structure SameEnd (endpoint endpoint' : EndpointCandidate) : Prop where
  eniId : endpoint.eniId = endpoint'.eniId
  subnetId : endpoint.subnetId = endpoint'.subnetId
  peerSecurityGroupIds : endpoint.peerSecurityGroupIds.Perm endpoint'.peerSecurityGroupIds
  securityGroupRules : endpoint.securityGroupRules.Perm endpoint'.securityGroupRules
  naclRules : endpoint.naclRules.Perm endpoint'.naclRules

theorem SameEnd.refl (endpoint : EndpointCandidate) : SameEnd endpoint endpoint :=
  ⟨rfl, rfl, .refl _, .refl _, .refl _⟩

structure SameCandidate (candidate candidate' : PathCandidate) : Prop where
  source : SameEnd candidate.source candidate'.source
  destination : SameEnd candidate.destination candidate'.destination
  routeExists : candidate.routeExists = candidate'.routeExists
  traffic : candidate.traffic = candidate'.traffic
  destinationBoundary : candidate.destinationBoundary = candidate'.destinationBoundary

/-- The verdict of a layer does not depend on the order of its rules. -/
def layerOrderFree (candidate : PathCandidate) : EvaluationLayer → Prop
  | .sgEgress =>
      Sg.OrderFree candidate.source.securityGroupRules .egress candidate.traffic
        candidate.destination.peerSecurityGroupIds
  | .naclEgress => Nacl.OrderFree candidate.source.naclRules .egress candidate.traffic
  | .naclIngress => Nacl.OrderFree candidate.destination.naclRules .ingress candidate.traffic
  | .sgIngress =>
      Sg.OrderFree candidate.destination.securityGroupRules .ingress candidate.traffic
        candidate.source.peerSecurityGroupIds

/-- No layer that an evaluation of the candidate gets to depends on the order of its rules. -/
def PathCandidate.OrderFree (candidate : PathCandidate) : Prop :=
  candidate.routeExists = true → ∀ before layer after, layerOrder = before ++ layer :: after →
    (∀ earlier ∈ before, layerAdmits candidate earlier) → layerOrderFree candidate layer

/-- A finding with its timestamp masked. -/
def ReachabilityFinding.masked (finding : ReachabilityFinding) : ReachabilityFinding :=
  { finding with computedAt := "" }

theorem masked_evaluateCandidate (computedAt : String) (candidate : PathCandidate) :
    (evaluateCandidate computedAt candidate).masked = evaluateCandidate "" candidate := by
  cases routed : candidate.routeExists with
  | false =>
    rw [evaluateCandidate_no_route _ _ routed, evaluateCandidate_no_route _ _ routed]
    rfl
  | true =>
    rw [evaluateCandidate_eq _ _ routed, evaluateCandidate_eq _ _ routed]
    rfl

/-- The candidate with its ACL rules in ascending order. -/
def PathCandidate.sortedAcls (candidate : PathCandidate) : PathCandidate :=
  { candidate with
    source := { candidate.source with
      naclRules := candidate.source.naclRules.insertionSort fun a b => Nacl.sortKey a ≤ Nacl.sortKey b }
    destination := { candidate.destination with
      naclRules := candidate.destination.naclRules.insertionSort fun a b =>
        Nacl.sortKey a ≤ Nacl.sortKey b } }

theorem evaluateCandidate_sortedAcls (computedAt : String) (candidate : PathCandidate) :
    evaluateCandidate computedAt candidate.sortedAcls = evaluateCandidate computedAt candidate := by
  simp only [evaluateCandidate, PathCandidate.sortedAcls, Nacl.evaluateNaclEgress, Nacl.evaluateNaclIngress,
    Nacl.evaluate_insertionSort]
  rfl

theorem layerResource_eq {candidate candidate' : PathCandidate} (same : SameCandidate candidate candidate')
    (layer : EvaluationLayer) : layerResource candidate layer = layerResource candidate' layer := by
  cases layer with
  | sgEgress => exact same.source.eniId
  | naclEgress => exact same.source.subnetId
  | naclIngress => exact same.destination.subnetId
  | sgIngress => exact same.destination.eniId

/-- Two evaluations find the same exactly when they agree on every layer the first one gets to. -/
theorem evaluateCandidate_eq_iff {candidate candidate' : PathCandidate}
    (same : SameCandidate candidate candidate') :
    evaluateCandidate "" candidate = evaluateCandidate "" candidate' ↔
      (candidate.routeExists = true → ∀ before layer after, layerOrder = before ++ layer :: after →
        (∀ earlier ∈ before, layerAdmits candidate earlier) →
          layerVerdict candidate layer = layerVerdict candidate' layer) := by
  cases routed : candidate.routeExists with
  | false =>
    rw [evaluateCandidate_no_route _ _ routed,
      evaluateCandidate_no_route _ _ (same.routeExists.symm.trans routed)]
    refine iff_of_true ?_ fun routed => nomatch routed
    rw [finishWith, finishWith, same.source.eniId, same.destinationBoundary]
  | true =>
    rw [evaluateCandidate_eq _ _ routed, evaluateCandidate_eq _ _ (same.routeExists.symm.trans routed)]
    have steps (consulted consulted' : List EvaluationStep) :
        finish "" candidate consulted = finish "" candidate' consulted' ↔ consulted = consulted' := by
      constructor
      · exact fun alike => congrArg (fun finding => finding.pathEvidence.steps) alike
      · rintro rfl
        rw [finish, finish, finishWith, finishWith, same.source.eniId, same.destinationBoundary]
    rw [steps, layerSteps, layerSteps, Kleene.consulted_map_eq_iff, forall_prop_of_true rfl]
    refine forall₃_congr fun before layer after => forall_congr' fun _ => ?_
    simp only [EvaluationStep.kind, layerVerdict_kind_yes_iff, layerResource_eq same, EvaluationStep.mk.injEq,
      true_and]

private theorem layerVerdict_of_orderFree {candidate candidate' : PathCandidate}
    (same : SameCandidate candidate candidate') {layer : EvaluationLayer}
    (free : layerOrderFree candidate layer) :
    layerVerdict candidate layer = layerVerdict candidate' layer := by
  cases layer with
  | sgEgress =>
    have verdict := (Sg.evaluate_perm_iff candidate.source.eniId _ _ _ ⟨_⟩).mpr free _
      same.source.securityGroupRules
    rw [layerVerdict, layerVerdict, ← same.source.eniId, ← same.traffic]
    exact verdict.symm.trans (Sg.evaluate_peer_perm _ _ _ _ same.destination.peerSecurityGroupIds)
  | naclEgress =>
    rw [layerVerdict, layerVerdict, ← same.source.subnetId, ← same.traffic]
    exact ((Nacl.evaluate_perm_iff _ _ _ _).mpr free _ same.source.naclRules).symm
  | naclIngress =>
    rw [layerVerdict, layerVerdict, ← same.destination.subnetId, ← same.traffic]
    exact ((Nacl.evaluate_perm_iff _ _ _ _).mpr free _ same.destination.naclRules).symm
  | sgIngress =>
    have verdict := (Sg.evaluate_perm_iff candidate.destination.eniId _ _ _ ⟨_⟩).mpr free _
      same.destination.securityGroupRules
    rw [layerVerdict, layerVerdict, ← same.destination.eniId, ← same.traffic]
    exact verdict.symm.trans (Sg.evaluate_peer_perm _ _ _ _ same.source.peerSecurityGroupIds)

/-- The finding of a candidate is the same in every order of its lists exactly when the layers its
evaluation gets to are free of it. -/
theorem evaluateCandidate_perm_iff (candidate : PathCandidate) :
    (∀ candidate', SameCandidate candidate candidate' →
        evaluateCandidate "" candidate = evaluateCandidate "" candidate') ↔ candidate.OrderFree := by
  constructor
  · intro alike routed before layer after split earlier
    have layers (candidate' : PathCandidate) (same : SameCandidate candidate candidate') :=
      (evaluateCandidate_eq_iff same).mp (alike candidate' same) routed before layer after split earlier
    cases layer with
    | sgEgress =>
      refine (Sg.evaluate_perm_iff candidate.source.eniId _ _ _ ⟨_⟩).mp fun rules perm => ?_
      exact (layers { candidate with source := { candidate.source with securityGroupRules := rules } }
        ⟨⟨rfl, rfl, .refl _, perm, .refl _⟩, .refl _, rfl, rfl, rfl⟩).symm
    | naclEgress =>
      refine (Nacl.evaluate_perm_iff candidate.source.subnetId _ _ _).mp fun rules perm => ?_
      exact (layers { candidate with source := { candidate.source with naclRules := rules } }
        ⟨⟨rfl, rfl, .refl _, .refl _, perm⟩, .refl _, rfl, rfl, rfl⟩).symm
    | naclIngress =>
      refine (Nacl.evaluate_perm_iff candidate.destination.subnetId _ _ _).mp fun rules perm => ?_
      exact (layers { candidate with destination := { candidate.destination with naclRules := rules } }
        ⟨.refl _, ⟨rfl, rfl, .refl _, .refl _, perm⟩, rfl, rfl, rfl⟩).symm
    | sgIngress =>
      refine (Sg.evaluate_perm_iff candidate.destination.eniId _ _ _ ⟨_⟩).mp fun rules perm => ?_
      exact (layers { candidate with destination := { candidate.destination with securityGroupRules := rules } }
        ⟨.refl _, ⟨rfl, rfl, .refl _, perm, .refl _⟩, rfl, rfl, rfl⟩).symm
  · intro free candidate' same
    refine (evaluateCandidate_eq_iff same).mpr fun routed before layer after split earlier => ?_
    exact layerVerdict_of_orderFree same (free routed before layer after split earlier)

end NetHound.Evaluate
