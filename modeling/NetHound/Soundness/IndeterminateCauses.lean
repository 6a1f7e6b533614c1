import NetHound.Evaluate.Engine
import NetHound.Report.Model

/-! # The causes of an undecided finding

Wrapping an undecided finding asks for one cause for each layer it lists and stores them in evaluation
order, so what is stored depends on the causes and not on how they were supplied. The evaluator lists the
layers of its own undecided steps, each once, so causes made from those steps are always accepted.
-/

namespace NetHound.Soundness

open Evaluate Report

/-- One cause for each listed layer, and none besides. -/
structure OneEach (layers : List EvaluationLayer) (causes : List LayerCause) : Prop where
  distinct : (causes.map LayerCause.layer).Nodup
  same : ∀ layer, layer ∈ causes.map LayerCause.layer ↔ layer ∈ layers

/-- The stored causes are the given ones in evaluation order, whatever order they came in. -/
structure Canonical (finding : ReachabilityFinding) (causes : List LayerCause)
    (wrapped : IndeterminateFinding) : Prop where
  kept : wrapped.finding = finding
  perm : wrapped.causes.Perm causes
  increasing : wrapped.causes.Pairwise fun a b => a.layer < b.layer
  reordered : ∀ causes', causes.Perm causes' → IndeterminateFinding.new finding causes' = .ok wrapped
  rebuilt : IndeterminateFinding.new wrapped.finding wrapped.causes = .ok wrapped

/-- The steps of a finding's evidence without a verdict. -/
def undecidedSteps (finding : ReachabilityFinding) : List EvaluationStep :=
  finding.pathEvidence.steps.filter fun step => step.kind = .unknown

private theorem toFinset_eq_iff {layers layers' : List EvaluationLayer} :
    layers.toFinset = layers'.toFinset ↔ ∀ layer, layer ∈ layers ↔ layer ∈ layers' := by
  simp only [Finset.ext_iff, List.mem_toFinset]

theorem exists_new_iff {finding : ReachabilityFinding} {causes : List LayerCause} :
    (∃ wrapped, IndeterminateFinding.new finding causes = .ok wrapped) ↔
      ∃ layers, finding.reachability = .indeterminate layers ∧ OneEach layers causes := by
  constructor
  · rintro ⟨wrapped, built⟩
    obtain ⟨rfl, reordered⟩ := IndeterminateFinding.new_eq_ok_iff.mp built
    have layers := reordered.map LayerCause.layer
    refine ⟨_, Reachability.kind_eq_unknown_iff.mp wrapped.undecided, ?_, fun layer => ?_⟩
    · exact layers.nodup_iff.mpr wrapped.covers.ordered.nodup_keys
    · rw [layers.mem_iff]
      exact toFinset_eq_iff.mp wrapped.covers.covered layer
  · rintro ⟨layers, undecided, distinct, same⟩
    have listed : finding.reachability.layers = layers := by rw [undecided, Reachability.layers]
    have sorted := List.perm_insertionSort (fun a b : LayerCause => a.layer ≤ b.layer) causes
    have covers : CoversLayers finding.reachability.layers (IndeterminateFinding.sortByLayer causes) := by
      refine ⟨List.keyOrdered_insertionSort distinct, toFinset_eq_iff.mpr fun layer => ?_⟩
      rw [listed, ← same layer]
      exact (sorted.map LayerCause.layer).mem_iff
    have unknown : finding.reachability.kind = .unknown := by rw [undecided, Reachability.kind]
    exact ⟨⟨finding, _, unknown, covers⟩, IndeterminateFinding.new_eq_ok_iff.mpr ⟨rfl, sorted.symm⟩⟩

theorem canonical_of_new {finding : ReachabilityFinding} {causes : List LayerCause}
    {wrapped : IndeterminateFinding} (built : IndeterminateFinding.new finding causes = .ok wrapped) :
    Canonical finding causes wrapped := by
  obtain ⟨rfl, reordered⟩ := IndeterminateFinding.new_eq_ok_iff.mp built
  exact {
    kept := rfl
    perm := reordered.symm
    increasing := wrapped.covers.ordered
    reordered := fun causes' perm =>
      IndeterminateFinding.new_eq_ok_iff.mpr ⟨rfl, perm.symm.trans reordered⟩
    rebuilt := IndeterminateFinding.new_eq_ok_iff.mpr ⟨rfl, .refl _⟩ }

/-! ## The evaluator's own findings -/

/-- No layer is evaluated twice. -/
theorem nodup_layers_evaluateCandidate (computedAt : String) (candidate : PathCandidate) :
    ((evaluateCandidate computedAt candidate).pathEvidence.steps.map EvaluationStep.layer).Nodup := by
  cases routed : candidate.routeExists with
  | false =>
    rw [evaluateCandidate_no_route computedAt candidate routed]
    exact List.nodup_nil
  | true =>
    rw [evaluateCandidate_eq computedAt candidate routed]
    have whole : ((layerSteps candidate).map EvaluationStep.layer).Nodup := by
      rw [layerSteps, List.map_map]
      exact (by decide : layerOrder.Nodup)
    exact whole.sublist ((Kleene.consulted_prefix _ _).sublist.map _)

/-- An undecided finding lists the layers of its undecided steps. -/
theorem layers_evaluateCandidate {computedAt : String} {candidate : PathCandidate}
    {layers : List EvaluationLayer}
    (undecided : (evaluateCandidate computedAt candidate).reachability = .indeterminate layers) :
    layers = (undecidedSteps (evaluateCandidate computedAt candidate)).map EvaluationStep.layer := by
  cases routed : candidate.routeExists with
  | false =>
    rw [reachability_no_route computedAt candidate routed] at undecided
    cases undecided
  | true =>
    rw [evaluateCandidate_eq computedAt candidate routed] at undecided ⊢
    change combineVerdicts _ = _ at undecided
    rw [combineVerdicts_eq, Kleene.combine] at undecided
    split_ifs at undecided
    · cases undecided
    · split at undecided
      · cases undecided
      · exact (Reachability.indeterminate.inj undecided).symm

/-- Wrapping a finding succeeds exactly when it is undecided and each of its layers has one cause; what
is stored is the causes in evaluation order, and causes made from the evaluator's own undecided steps
are accepted. -/
theorem indeterminateFinding_oneEach :
    (∀ (finding : ReachabilityFinding) (causes : List LayerCause),
      (∃ wrapped, IndeterminateFinding.new finding causes = .ok wrapped) ↔
        ∃ layers, finding.reachability = .indeterminate layers ∧ OneEach layers causes) ∧
    (∀ (finding : ReachabilityFinding) (causes : List LayerCause) (wrapped : IndeterminateFinding),
      IndeterminateFinding.new finding causes = .ok wrapped → Canonical finding causes wrapped) ∧
    ∀ (computedAt : String) (candidate : PathCandidate) (layers : List EvaluationLayer)
      (causes : List LayerCause),
      (evaluateCandidate computedAt candidate).reachability = .indeterminate layers →
        (causes.map LayerCause.layer).Perm
          ((undecidedSteps (evaluateCandidate computedAt candidate)).map EvaluationStep.layer) →
          ∃ wrapped, IndeterminateFinding.new (evaluateCandidate computedAt candidate) causes = .ok wrapped := by
  refine ⟨fun _ _ => exists_new_iff, fun _ _ _ => canonical_of_new, ?_⟩
  intro computedAt candidate layers causes undecided fromSteps
  refine exists_new_iff.mpr ⟨layers, undecided, ?_, fun layer => ?_⟩
  · refine fromSteps.nodup_iff.mpr ?_
    exact (nodup_layers_evaluateCandidate computedAt candidate).sublist (List.filter_sublist.map _)
  · rw [layers_evaluateCandidate undecided]
    exact fromSteps.mem_iff

private def undecidedCandidate : PathCandidate :=
  { source := ⟨"eni-1", [], [⟨.egress, "-1", none, .securityGroupRef "sg-9", false⟩], "subnet-1", []⟩
    destination := ⟨"eni-2", [], [], "subnet-2", []⟩
    routeExists := true
    traffic := ⟨.all, none, .v4 0⟩
    destinationBoundary := "boundary" }

/-- An unresolved reference leaves the first layer undecided, and its cause is accepted. -/
theorem undecidedCandidate_oneEach :
    ∃ wrapped, IndeterminateFinding.new (evaluateCandidate "now" undecidedCandidate)
        [⟨.sgEgress, .unresolvedSecurityGroupReference "sg-9"⟩] = .ok wrapped ∧
      Canonical (evaluateCandidate "now" undecidedCandidate)
        [⟨.sgEgress, .unresolvedSecurityGroupReference "sg-9"⟩] wrapped := by
  obtain ⟨-, canonical, accepted⟩ := indeterminateFinding_oneEach
  obtain ⟨wrapped, built⟩ := accepted "now" undecidedCandidate [.sgEgress]
    [⟨.sgEgress, .unresolvedSecurityGroupReference "sg-9"⟩] (by decide) (by decide)
  exact ⟨wrapped, built, canonical _ _ _ built⟩

end NetHound.Soundness
