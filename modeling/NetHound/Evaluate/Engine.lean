import NetHound.Evaluate.Nacl
import NetHound.Evaluate.Path
import NetHound.Evaluate.Sg

/-! # The four-layer intersection

`evaluate/engine.rs`. The clock enters as an argument. `layerSteps` lists the step of each layer
run on its own; `evaluateCandidate_eq` states that the engine consults the part of that list up to
the first step that is not allowed and combines what it consulted.
-/

namespace NetHound.Evaluate

open Domain Net

def combineVerdictsFrom (indeterminateLayers : List EvaluationLayer) :
    List EvaluationStep → Reachability
  | [] => if indeterminateLayers = [] then .reachable else .indeterminate indeterminateLayers
  | step :: steps =>
      match step.verdict with
      | .denied _ => .notReachable
      | .indeterminate _ => combineVerdictsFrom (indeterminateLayers ++ [step.layer]) steps
      | .allowed _ => combineVerdictsFrom indeterminateLayers steps

def combineVerdicts (steps : List EvaluationStep) : Reachability := combineVerdictsFrom [] steps

def severityFor : Reachability → Severity
  | .reachable => .high
  | .indeterminate _ => .medium
  | .notReachable => .low

def finishWith (computedAt : String) (candidate : PathCandidate) (pathEvidence : PathEvidence)
    (reachability : Reachability) : ReachabilityFinding where
  computedAt
  source := candidate.source.eniId
  destinationBoundary := candidate.destinationBoundary
  pathEvidence
  reachability
  severity := severityFor reachability

def finish (computedAt : String) (candidate : PathCandidate) (steps : List EvaluationStep) :
    ReachabilityFinding :=
  finishWith computedAt candidate ⟨steps⟩ (combineVerdicts steps)

def evaluateCandidate (computedAt : String) (candidate : PathCandidate) : ReachabilityFinding :=
  -- With no route there is nothing to intersect: the evidence is empty and bypasses the fold.
  if !candidate.routeExists then finishWith computedAt candidate ⟨[]⟩ .notReachable
  else
    let destinationPeer : Sg.PeerIdentity := ⟨candidate.destination.peerSecurityGroupIds⟩
    let sgEgressVerdict := Sg.evaluateSgEgress candidate.source.eniId
      candidate.source.securityGroupRules candidate.traffic destinationPeer
    let steps := [⟨.sgEgress, candidate.source.eniId, sgEgressVerdict⟩]
    if !sgEgressVerdict.isAllowed then finish computedAt candidate steps
    else
      let naclEgressVerdict := Nacl.evaluateNaclEgress candidate.source.subnetId
        candidate.source.naclRules candidate.traffic
      let steps := steps ++ [⟨.naclEgress, candidate.source.subnetId, naclEgressVerdict⟩]
      if !naclEgressVerdict.isAllowed then finish computedAt candidate steps
      else
        let naclIngressVerdict := Nacl.evaluateNaclIngress candidate.destination.subnetId
          candidate.destination.naclRules candidate.traffic
        let steps := steps ++ [⟨.naclIngress, candidate.destination.subnetId, naclIngressVerdict⟩]
        if !naclIngressVerdict.isAllowed then finish computedAt candidate steps
        else
          let sourcePeer : Sg.PeerIdentity := ⟨candidate.source.peerSecurityGroupIds⟩
          let sgIngressVerdict := Sg.evaluateSgIngress candidate.destination.eniId
            candidate.destination.securityGroupRules candidate.traffic sourcePeer
          finish computedAt candidate
            (steps ++ [⟨.sgIngress, candidate.destination.eniId, sgIngressVerdict⟩])

/-- The four layers in the order they are evaluated. -/
def layerOrder : List EvaluationLayer := [.sgEgress, .naclEgress, .naclIngress, .sgIngress]

/-- A layer's verdict when it is run on its own. -/
def layerVerdict (candidate : PathCandidate) : EvaluationLayer → Verdict
  | .sgEgress =>
      Sg.evaluateSgEgress candidate.source.eniId candidate.source.securityGroupRules
        candidate.traffic ⟨candidate.destination.peerSecurityGroupIds⟩
  | .naclEgress =>
      Nacl.evaluateNaclEgress candidate.source.subnetId candidate.source.naclRules candidate.traffic
  | .naclIngress =>
      Nacl.evaluateNaclIngress candidate.destination.subnetId candidate.destination.naclRules
        candidate.traffic
  | .sgIngress =>
      Sg.evaluateSgIngress candidate.destination.eniId candidate.destination.securityGroupRules
        candidate.traffic ⟨candidate.source.peerSecurityGroupIds⟩

def layerResource (candidate : PathCandidate) : EvaluationLayer → String
  | .sgEgress => candidate.source.eniId
  | .naclEgress => candidate.source.subnetId
  | .naclIngress => candidate.destination.subnetId
  | .sgIngress => candidate.destination.eniId

/-- Every layer's step, each run on its own. -/
def layerSteps (candidate : PathCandidate) : List EvaluationStep :=
  layerOrder.map fun layer => ⟨layer, layerResource candidate layer, layerVerdict candidate layer⟩

def EvaluationStep.kind (step : EvaluationStep) : Kleene := step.verdict.kind

/-- A combined requirement as a reachability outcome. -/
def Reachability.ofCombined : Kleene.Combined EvaluationLayer → Reachability
  | .no => .notReachable
  | .unknown layers => .indeterminate layers
  | .yes => .reachable

theorem Reachability.ofCombined_injective : Function.Injective Reachability.ofCombined := by
  intro a b same
  cases a <;> cases b <;> simp_all [Reachability.ofCombined]

theorem Reachability.ofCombined_kind (combined : Kleene.Combined EvaluationLayer) :
    (Reachability.ofCombined combined).kind = combined.kind := by
  cases combined <;> rfl

private theorem combineVerdictsFrom_eq (layers : List EvaluationLayer) (steps : List EvaluationStep) :
    combineVerdictsFrom layers steps =
      if steps.any (fun step => step.kind = .no) then .notReachable
      else if layers ++ (steps.filter (fun step => step.kind = .unknown)).map EvaluationStep.layer = []
        then .reachable
        else .indeterminate
          (layers ++ (steps.filter (fun step => step.kind = .unknown)).map EvaluationStep.layer) := by
  induction steps generalizing layers with
  | nil => simp [combineVerdictsFrom]
  | cons step steps ih =>
    cases verdict : step.verdict with
    | allowed _ => simp [combineVerdictsFrom, verdict, EvaluationStep.kind, Verdict.kind, ih]
    | denied _ => simp [combineVerdictsFrom, verdict, EvaluationStep.kind, Verdict.kind]
    | indeterminate _ => simp [combineVerdictsFrom, verdict, EvaluationStep.kind, Verdict.kind, ih]

/-- The fold over the steps is the three-valued combination of their verdicts. -/
theorem combineVerdicts_eq (steps : List EvaluationStep) :
    combineVerdicts steps =
      .ofCombined (Kleene.combine EvaluationStep.kind EvaluationStep.layer steps) := by
  rw [combineVerdicts, combineVerdictsFrom_eq, List.nil_append, Kleene.combine]
  split
  · rfl
  · split
    · next empty => rw [empty]; rfl
    · next nonempty =>
      cases undecided : (steps.filter (fun step => step.kind = .unknown)).map EvaluationStep.layer with
      | nil => exact absurd undecided nonempty
      | cons layer layers => rfl

/-- The engine combines the steps up to the first one that is not allowed. -/
theorem evaluateCandidate_eq (computedAt : String) (candidate : PathCandidate)
    (routed : candidate.routeExists = true) :
    evaluateCandidate computedAt candidate =
      finish computedAt candidate (Kleene.consulted EvaluationStep.kind (layerSteps candidate)) := by
  rw [evaluateCandidate, routed]
  simp only [layerSteps, layerOrder, List.map_cons, List.map_nil, layerVerdict, layerResource]
  generalize Sg.evaluateSgEgress _ _ _ _ = sgEgress
  generalize Nacl.evaluateNaclEgress _ _ _ = naclEgress
  generalize Nacl.evaluateNaclIngress _ _ _ = naclIngress
  generalize Sg.evaluateSgIngress _ _ _ _ = sgIngress
  cases sgEgress with
  | denied _ | indeterminate _ => rfl
  | allowed _ =>
    cases naclEgress with
    | denied _ | indeterminate _ => rfl
    | allowed _ =>
      cases naclIngress with
      | denied _ | indeterminate _ => rfl
      | allowed _ => cases sgIngress <;> rfl

theorem evaluateCandidate_no_route (computedAt : String) (candidate : PathCandidate)
    (unrouted : candidate.routeExists = false) :
    evaluateCandidate computedAt candidate = finishWith computedAt candidate ⟨[]⟩ .notReachable := by
  simp [evaluateCandidate, unrouted]

/-- The whole outcome of a routed candidate is a function of its layers' truth values. -/
theorem reachability_eq (computedAt : String) (candidate : PathCandidate)
    (routed : candidate.routeExists = true) :
    (evaluateCandidate computedAt candidate).reachability =
      .ofCombined (Kleene.combine (fun layer => (layerVerdict candidate layer).kind) id
        (Kleene.consulted (fun layer => (layerVerdict candidate layer).kind) layerOrder)) := by
  rw [evaluateCandidate_eq computedAt candidate routed]
  change combineVerdicts _ = _
  rw [combineVerdicts_eq, layerSteps, Kleene.consulted_map, Kleene.combine_map]
  rfl

/-- The layers' truth values, in evaluation order. -/
def layerKinds (candidate : PathCandidate) : List Kleene :=
  layerOrder.map fun layer => (layerVerdict candidate layer).kind

/-- The outcome of a routed candidate is its first layer that is not allowed. -/
theorem reachability_kind (computedAt : String) (candidate : PathCandidate)
    (routed : candidate.routeExists = true) :
    (evaluateCandidate computedAt candidate).reachability.kind =
      Kleene.firstUnmet (layerKinds candidate) := by
  rw [evaluateCandidate_eq computedAt candidate routed]
  change (combineVerdicts _).kind = _
  rw [combineVerdicts_eq, Reachability.ofCombined_kind, Kleene.combine_consulted_kind]
  rfl

theorem reachability_no_route (computedAt : String) (candidate : PathCandidate)
    (unrouted : candidate.routeExists = false) :
    (evaluateCandidate computedAt candidate).reachability = .notReachable := by
  rw [evaluateCandidate_no_route computedAt candidate unrouted]
  rfl

/-! ## Outcomes in terms of the rules -/

/-- The rules of a layer admit the traffic. -/
def layerAdmits (candidate : PathCandidate) : EvaluationLayer → Prop
  | .sgEgress =>
      Sg.admits candidate.source.securityGroupRules .egress candidate.traffic
        candidate.destination.peerSecurityGroupIds
  | .naclEgress => Nacl.admits candidate.source.naclRules .egress candidate.traffic
  | .naclIngress => Nacl.admits candidate.destination.naclRules .ingress candidate.traffic
  | .sgIngress =>
      Sg.admits candidate.destination.securityGroupRules .ingress candidate.traffic
        candidate.source.peerSecurityGroupIds

/-- The rules of a layer leave the traffic to an unresolved reference; network ACLs never do. -/
def layerUndecided (candidate : PathCandidate) : EvaluationLayer → Prop
  | .sgEgress =>
      Sg.undecided candidate.source.securityGroupRules .egress candidate.traffic
        candidate.destination.peerSecurityGroupIds
  | .naclEgress | .naclIngress => False
  | .sgIngress =>
      Sg.undecided candidate.destination.securityGroupRules .ingress candidate.traffic
        candidate.source.peerSecurityGroupIds

theorem layerVerdict_kind_yes_iff (candidate : PathCandidate) (layer : EvaluationLayer) :
    (layerVerdict candidate layer).kind = .yes ↔ layerAdmits candidate layer := by
  cases layer with
  | sgEgress | sgIngress => exact Sg.evaluate_kind_yes_iff _ _ _ _ _
  | naclEgress | naclIngress => exact Nacl.evaluate_kind_yes_iff _ _ _ _

theorem layerVerdict_kind_unknown_iff (candidate : PathCandidate) (layer : EvaluationLayer) :
    (layerVerdict candidate layer).kind = .unknown ↔ layerUndecided candidate layer := by
  cases layer with
  | sgEgress | sgIngress => exact Sg.evaluate_kind_unknown_iff _ _ _ _ _
  | naclEgress | naclIngress => exact iff_of_false (Nacl.evaluate_kind_ne_unknown _ _ _ _) id

/-- No layer up to the first undecided one blocks the traffic. -/
def Open (candidate : PathCandidate) : Prop :=
  layerUndecided candidate .sgEgress ∨
    layerAdmits candidate .sgEgress ∧ layerAdmits candidate .naclEgress ∧
      layerAdmits candidate .naclIngress ∧
      (layerUndecided candidate .sgIngress ∨ layerAdmits candidate .sgIngress)

theorem reachable_iff (computedAt : String) (candidate : PathCandidate) :
    (evaluateCandidate computedAt candidate).reachability = .reachable ↔
      candidate.routeExists = true ∧ ∀ layer ∈ layerOrder, layerAdmits candidate layer := by
  cases routed : candidate.routeExists with
  | false => simp [reachability_no_route computedAt candidate routed]
  | true =>
    rw [← Reachability.kind_eq_yes_iff, reachability_kind computedAt candidate routed,
      Kleene.firstUnmet_eq_yes_iff, layerKinds]
    simp [layerVerdict_kind_yes_iff]

private theorem firstUnmet_ne_no_iff (sgEgress sgIngress : Kleene) {naclEgress naclIngress : Kleene}
    (egressDecided : naclEgress ≠ .unknown) (ingressDecided : naclIngress ≠ .unknown) :
    Kleene.firstUnmet [sgEgress, naclEgress, naclIngress, sgIngress] ≠ .no ↔
      sgEgress = .unknown ∨ sgEgress = .yes ∧ naclEgress = .yes ∧ naclIngress = .yes ∧
        (sgIngress = .unknown ∨ sgIngress = .yes) := by
  revert egressDecided ingressDecided
  cases sgEgress <;> cases naclEgress <;> cases naclIngress <;> cases sgIngress <;> decide

theorem ne_notReachable_iff (computedAt : String) (candidate : PathCandidate) :
    (evaluateCandidate computedAt candidate).reachability ≠ .notReachable ↔
      candidate.routeExists = true ∧ Open candidate := by
  cases routed : candidate.routeExists with
  | false => simp [reachability_no_route computedAt candidate routed]
  | true =>
    have decided (layer : EvaluationLayer) (never : ¬ layerUndecided candidate layer) :
        (layerVerdict candidate layer).kind ≠ .unknown :=
      fun undecided => never ((layerVerdict_kind_unknown_iff candidate layer).mp undecided)
    have outcome := firstUnmet_ne_no_iff (layerVerdict candidate .sgEgress).kind
      (layerVerdict candidate .sgIngress).kind (decided .naclEgress id) (decided .naclIngress id)
    simp only [layerVerdict_kind_yes_iff, layerVerdict_kind_unknown_iff] at outcome
    rw [ne_eq, ← Reachability.kind_eq_no_iff, reachability_kind computedAt candidate routed]
    exact outcome.trans (and_iff_right rfl).symm

end NetHound.Evaluate
