import NetHound.Evaluate.Engine

/-! # The intersection of all four layers

The documented outcome of a path is a function of all four layers' verdicts. The engine stops at
the first layer that is not allowed. The two agree except where the source's security group egress
is left to an unresolved reference and a later layer would not admit the traffic: the engine then
reports an indeterminate path without looking at that layer.
-/

namespace NetHound.Soundness

open Domain Net Evaluate

/-- The documented combination: a deny decides, else every undecided layer is listed in order. -/
def fourLayerOutcome (verdict : EvaluationLayer → Verdict) : Reachability :=
  if ∃ layer ∈ layerOrder, (verdict layer).kind = .no then .notReachable
  else
    match layerOrder.filter (fun layer => (verdict layer).kind = .unknown) with
    | [] => .reachable
    | layers => .indeterminate layers

private theorem fourLayerOutcome_eq (candidate : PathCandidate) :
    fourLayerOutcome (layerVerdict candidate) =
      .ofCombined (Kleene.combine EvaluationStep.kind EvaluationStep.layer (layerSteps candidate)) := by
  have denied : (layerSteps candidate).any (fun step => step.kind = .no) = true ↔
      ∃ layer ∈ layerOrder, (layerVerdict candidate layer).kind = .no := by
    simp only [List.any_eq_true, decide_eq_true_eq]
    simp [layerSteps, EvaluationStep.kind]
  have undecided : ((layerSteps candidate).filter (fun step => step.kind = .unknown)).map
      EvaluationStep.layer =
        layerOrder.filter (fun layer => (layerVerdict candidate layer).kind = .unknown) := by
    rw [layerSteps, List.filter_map, List.map_map]
    exact List.map_id _
  unfold fourLayerOutcome Kleene.combine
  simp only [denied, undecided]
  split_ifs
  · rfl
  · cases layerOrder.filter (fun layer => (layerVerdict candidate layer).kind = .unknown) <;> rfl

private theorem stoppingIsExact_iff (candidate : PathCandidate) :
    Kleene.StoppingIsExact EvaluationStep.kind (layerSteps candidate) ↔
      ((layerVerdict candidate .sgEgress).kind = .unknown →
        ∀ layer ∈ [.naclEgress, .naclIngress, .sgIngress],
          (layerVerdict candidate layer).kind = .yes) := by
  have egressDecided := mt (layerVerdict_kind_unknown_iff candidate .naclEgress).mp id
  have ingressDecided := mt (layerVerdict_kind_unknown_iff candidate .naclIngress).mp id
  simp only [layerSteps, layerOrder, List.map_cons, List.map_nil, Kleene.StoppingIsExact,
    EvaluationStep.kind, List.forall_mem_cons]
  cases sgEgress : (layerVerdict candidate .sgEgress).kind with
  | no => simp
  | unknown => simp
  | yes =>
    cases naclEgress : (layerVerdict candidate .naclEgress).kind with
    | no => simp
    | unknown => exact absurd naclEgress egressDecided
    | yes =>
      cases naclIngress : (layerVerdict candidate .naclIngress).kind with
      | no => simp
      | unknown => exact absurd naclIngress ingressDecided
      | yes => cases (layerVerdict candidate .sgIngress).kind <;> simp

/-- The engine's outcome is the documented one exactly when the source's security group egress is
decided or every later layer admits the traffic. -/
theorem evaluateCandidate_eq_fourLayerOutcome_iff (computedAt : String) (candidate : PathCandidate)
    (routed : candidate.routeExists = true) :
    (evaluateCandidate computedAt candidate).reachability =
        fourLayerOutcome (layerVerdict candidate) ↔
      ¬ layerUndecided candidate .sgEgress ∨
        ∀ layer ∈ [.naclEgress, .naclIngress, .sgIngress], layerAdmits candidate layer := by
  have outcome : (evaluateCandidate computedAt candidate).reachability =
      .ofCombined (Kleene.combine EvaluationStep.kind EvaluationStep.layer
        (Kleene.consulted EvaluationStep.kind (layerSteps candidate))) := by
    rw [evaluateCandidate_eq computedAt candidate routed, ← combineVerdicts_eq]
    rfl
  rw [outcome, fourLayerOutcome_eq, Reachability.ofCombined_injective.eq_iff,
    Kleene.combine_consulted_iff, stoppingIsExact_iff, layerVerdict_kind_unknown_iff, imp_iff_not_or]
  simp only [layerVerdict_kind_yes_iff]

/-- A path whose egress rule waits on an unresolved group and whose source network ACL is empty. -/
def unresolvedBeforeDeny : PathCandidate where
  source := ⟨"eni-a", ["sg-a"], [⟨.egress, "-1", none, .securityGroupRef "sg-x", false⟩], "subnet-a", []⟩
  destination := ⟨"eni-b", ["sg-b"], [⟨.ingress, "-1", none, .cidr "0.0.0.0/0", true⟩], "subnet-b",
    [⟨100, .ingress, "-1", none, "0.0.0.0/0", .allow⟩]⟩
  routeExists := true
  traffic := ⟨.all, none, .v4 0x0A00000A⟩
  destinationBoundary := "boundary"

theorem evaluateCandidate_unresolvedBeforeDeny :
    unresolvedBeforeDeny.routeExists = true ∧
      fourLayerOutcome (layerVerdict unresolvedBeforeDeny) = .notReachable ∧
      (evaluateCandidate "" unresolvedBeforeDeny).reachability = .indeterminate [.sgEgress] := by
  decide

theorem fourLayerOutcome_unresolvedBeforeDeny :
    (evaluateCandidate "" unresolvedBeforeDeny).reachability =
        fourLayerOutcome (layerVerdict unresolvedBeforeDeny) ↔
      ¬ layerUndecided unresolvedBeforeDeny .sgEgress ∨
        ∀ layer ∈ [.naclEgress, .naclIngress, .sgIngress], layerAdmits unresolvedBeforeDeny layer :=
  evaluateCandidate_eq_fourLayerOutcome_iff "" unresolvedBeforeDeny rfl

end NetHound.Soundness
