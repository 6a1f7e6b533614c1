import Mathlib.Data.Finset.Sort
import Mathlib.Data.String.Basic
import NetHound.Evaluate.Path
import NetHound.ToMathlib.KeyOrder

/-! # The audit report

`report/model.rs`. Every part of a report carries the check its constructor makes: a finding sits in
the population of its own reachability, an undecided finding has one cause for each layer it lists,
a scope covers something, and a report's counts and time are what `AuditReport.new` computes. Sets of
accounts and regions are `Finset`s, read in sorted order.
-/

namespace NetHound.Report

open Evaluate

/-- Nanoseconds in a second. -/
def nanosPerSecond : ℤ := 1000000000

/-- Local date and times of the years -9999 to 9999, in nanoseconds from 1970-01-01T00:00. -/
def SupportedLocal (localNanos : ℤ) : Prop :=
  -377705116800 * nanosPerSecond ≤ localNanos ∧ localNanos < 253402300800 * nanosPerSecond

instance (localNanos : ℤ) : Decidable (SupportedLocal localNanos) :=
  inferInstanceAs (Decidable (_ ∧ _))

/-- A local date and time with its offset from UTC, in seconds. -/
@[ext] structure OffsetDateTime where
  localNanos : ℤ
  offset : ℤ
  supported : SupportedLocal localNanos
deriving DecidableEq

/-- `UtcOffset::UTC`. -/
def utc : ℤ := 0

namespace OffsetDateTime

/-- The instant, as nanoseconds from the Unix epoch. -/
def unixNanos (time : OffsetDateTime) : ℤ := time.localNanos - time.offset * nanosPerSecond

/-- `to_offset`, which panics where the new local date is outside the supported years. -/
def toOffset (time : OffsetDateTime) (offset : ℤ) : Option OffsetDateTime :=
  let localNanos := time.unixNanos + offset * nanosPerSecond
  if supported : SupportedLocal localNanos then some ⟨localNanos, offset, supported⟩ else none

theorem toOffset_eq_some_iff {time converted : OffsetDateTime} {offset : ℤ} :
    time.toOffset offset = some converted ↔
      converted.offset = offset ∧ converted.unixNanos = time.unixNanos := by
  unfold toOffset
  dsimp only
  constructor
  · intro run
    split at run
    · cases run
      refine ⟨rfl, ?_⟩
      simp only [unixNanos]
      omega
    · cases run
  · rintro ⟨rfl, sameInstant⟩
    have same : time.unixNanos + converted.offset * nanosPerSecond = converted.localNanos := by
      rw [← sameInstant, unixNanos]
      omega
    rw [dif_pos (same ▸ converted.supported)]
    apply congrArg some
    exact OffsetDateTime.ext same rfl

theorem offset_of_toOffset {time converted : OffsetDateTime} {offset : ℤ}
    (run : time.toOffset offset = some converted) : converted.offset = offset :=
  (toOffset_eq_some_iff.mp run).1

end OffsetDateTime

/-- Errors of building a report or one of its parts. -/
inductive ReportModelError where
  | reachabilityMismatch (population actual findingSource : String)
  | causeLayerMismatch (findingSource : String)
  | countsMismatch (population : String) (declared actual : ℕ)
  | emptyScope (field : String)
deriving DecidableEq, Repr

/-- The `thiserror` messages. -/
def ReportModelError.message : ReportModelError → String
  | .reachabilityMismatch population actual findingSource =>
      s!"finding from `{findingSource}` is {actual} but was placed in the {population} population"
  | .causeLayerMismatch findingSource =>
      s!"causes of indeterminate finding from `{findingSource}` do not match its layers"
  | .countsMismatch population declared actual =>
      s!"report declares {declared} {population} findings but holds {actual}"
  | .emptyScope field => s!"report scope has no {field}"

/-- Name of a finding's own reachability, for error messages. -/
def reachabilityLabel : Reachability → String
  | .reachable => "reachable"
  | .notReachable => "not_reachable"
  | .indeterminate _ => "indeterminate"

/-- The error for a finding placed in the wrong population. -/
def reachabilityMismatch (population : String) (finding : ReachabilityFinding) : ReportModelError :=
  .reachabilityMismatch population (reachabilityLabel finding.reachability) finding.source

/-- A finding of one decided reachability, the shape of the two single-finding wrappers. -/
@[ext] structure DecidedFinding (reachability : Reachability) where
  finding : ReachabilityFinding
  decided : finding.reachability = reachability
deriving DecidableEq

def DecidedFinding.new {reachability : Reachability} (population : String)
    (finding : ReachabilityFinding) : Except ReportModelError (DecidedFinding reachability) :=
  if decided : finding.reachability = reachability then .ok ⟨finding, decided⟩
  else .error (reachabilityMismatch population finding)

theorem DecidedFinding.new_eq_ok_iff {reachability : Reachability} {population : String}
    {finding : ReachabilityFinding} {wrapped : DecidedFinding reachability} :
    DecidedFinding.new population finding = .ok wrapped ↔ wrapped.finding = finding := by
  unfold DecidedFinding.new
  constructor
  · intro run
    split at run
    · cases run
      rfl
    · cases run
  · rintro rfl
    rw [dif_pos wrapped.decided]

/-- A finding confirmed reachable into the regulated boundary. -/
abbrev ReachableFinding := DecidedFinding .reachable

def ReachableFinding.new : ReachabilityFinding → Except ReportModelError ReachableFinding :=
  DecidedFinding.new "reachable"

/-- A finding confirmed not reachable. -/
abbrev NotReachableFinding := DecidedFinding .notReachable

def NotReachableFinding.new : ReachabilityFinding → Except ReportModelError NotReachableFinding :=
  DecidedFinding.new "not_reachable"

/-- Why a layer is indeterminate. -/
inductive IndeterminateCause where
  | unresolvedCrossAccountReference (accountId : String)
  | unresolvedSecurityGroupReference (groupId : String)
  | missingRouteTable (subnetId : String)
  | other (detail : String)
deriving DecidableEq, Repr

/-- The reason one evaluation layer could not reach a verdict. -/
structure LayerCause where
  layer : EvaluationLayer
  cause : IndeterminateCause
deriving DecidableEq, Repr

/-- The causes cover exactly these layers, each once, in evaluation order. -/
structure CoversLayers (layers : List EvaluationLayer) (causes : List LayerCause) : Prop where
  ordered : causes.KeyOrdered LayerCause.layer
  covered : (causes.map LayerCause.layer).toFinset = layers.toFinset

/-- A finding with no verdict, and the cause of each layer the evaluator could not decide. -/
@[ext] structure IndeterminateFinding where
  finding : ReachabilityFinding
  causes : List LayerCause
  undecided : finding.reachability.kind = .unknown
  covers : CoversLayers finding.reachability.layers causes
deriving DecidableEq

namespace IndeterminateFinding

/-- `causes.sort_by_key(|cause| cause.layer)`. -/
def sortByLayer (causes : List LayerCause) : List LayerCause :=
  causes.insertionSort fun a b => a.layer ≤ b.layer

/-- Causes that pass the two comparisons of the constructor cover the layers once sorted. -/
theorem coversLayers_sortByLayer {layers : List EvaluationLayer} {causes : List LayerCause}
    (accepted : ¬((causes.map LayerCause.layer).toFinset ≠ layers.toFinset ∨
      (causes.map LayerCause.layer).toFinset.card ≠ causes.length)) :
    CoversLayers layers (sortByLayer causes) := by
  rw [not_or, not_ne_iff, not_ne_iff] at accepted
  obtain ⟨covered, counted⟩ := accepted
  have distinct : (causes.map LayerCause.layer).Nodup := by
    have whole : (causes.map LayerCause.layer).dedup = causes.map LayerCause.layer := by
      apply (List.dedup_sublist _).eq_of_length
      rw [← List.card_toFinset, counted, List.length_map]
    exact List.dedup_eq_self.mp whole
  refine ⟨List.keyOrdered_insertionSort distinct, ?_⟩
  have reordered := (List.perm_insertionSort (fun a b => a.layer ≤ b.layer) causes).map
    LayerCause.layer
  rw [← covered]
  exact List.toFinset_eq_of_perm _ _ reordered

def new (finding : ReachabilityFinding) (causes : List LayerCause) :
    Except ReportModelError IndeterminateFinding :=
  if undecided : finding.reachability.kind = .unknown then
    let expected := finding.reachability.layers.toFinset
    let covered := (causes.map LayerCause.layer).toFinset
    if mismatched : covered ≠ expected ∨ covered.card ≠ causes.length then
      .error (.causeLayerMismatch finding.source)
    else
      .ok ⟨finding, sortByLayer causes, undecided, coversLayers_sortByLayer mismatched⟩
  else .error (reachabilityMismatch "indeterminate" finding)

/-- Construction keeps the finding and puts its causes in evaluation order. -/
theorem new_eq_ok_iff {finding : ReachabilityFinding} {causes : List LayerCause}
    {wrapped : IndeterminateFinding} :
    new finding causes = .ok wrapped ↔ wrapped.finding = finding ∧ causes.Perm wrapped.causes := by
  unfold new
  dsimp only
  constructor
  · intro run
    split at run
    · split at run
      · cases run
      · cases run
        exact ⟨rfl, (List.perm_insertionSort _ causes).symm⟩
    · cases run
  · rintro ⟨rfl, reordered⟩
    have layers := reordered.map LayerCause.layer
    have distinct : (causes.map LayerCause.layer).Nodup :=
      layers.nodup_iff.mpr wrapped.covers.ordered.nodup_keys
    have covered : (causes.map LayerCause.layer).toFinset =
        wrapped.finding.reachability.layers.toFinset :=
      (List.toFinset_eq_of_perm _ _ layers).trans wrapped.covers.covered
    have counted : (causes.map LayerCause.layer).toFinset.card = causes.length := by
      rw [List.toFinset_card_of_nodup distinct, List.length_map]
    have accepted : ¬((causes.map LayerCause.layer).toFinset ≠
        wrapped.finding.reachability.layers.toFinset ∨
        (causes.map LayerCause.layer).toFinset.card ≠ causes.length) :=
      not_or.mpr ⟨not_not_intro covered, not_not_intro counted⟩
    rw [dif_pos wrapped.undecided, dif_neg accepted]
    apply congrArg Except.ok
    exact IndeterminateFinding.ext rfl (wrapped.covers.ordered.insertionSort_eq reordered)

end IndeterminateFinding

/-- What an audit covered. -/
@[ext] structure ReportScope where
  accounts : Finset String
  regions : Finset String
  unresolvedReferenceCount : ℕ
  accountsNonempty : accounts ≠ ∅
  regionsNonempty : regions ≠ ∅
deriving DecidableEq

def ReportScope.new (accounts regions : List String) (unresolvedReferenceCount : ℕ) :
    Except ReportModelError ReportScope :=
  let accounts := accounts.toFinset
  let regions := regions.toFinset
  if accountsEmpty : accounts = ∅ then .error (.emptyScope "accounts")
  else if regionsEmpty : regions = ∅ then .error (.emptyScope "regions")
  else .ok ⟨accounts, regions, unresolvedReferenceCount, accountsEmpty, regionsEmpty⟩

theorem ReportScope.new_eq_ok_iff {accounts regions : List String} {unresolvedReferenceCount : ℕ}
    {scope : ReportScope} :
    ReportScope.new accounts regions unresolvedReferenceCount = .ok scope ↔
      scope.accounts = accounts.toFinset ∧ scope.regions = regions.toFinset ∧
        scope.unresolvedReferenceCount = unresolvedReferenceCount := by
  unfold ReportScope.new
  dsimp only
  constructor
  · intro run
    split at run
    · cases run
    · split at run
      · cases run
      · cases run
        exact ⟨rfl, rfl, rfl⟩
  · rintro ⟨sameAccounts, sameRegions, rfl⟩
    rw [dif_neg (sameAccounts ▸ scope.accountsNonempty), dif_neg (sameRegions ▸ scope.regionsNonempty)]
    apply congrArg Except.ok
    exact ReportScope.ext sameAccounts.symm sameRegions.symm rfl

/-- Number of findings in each population. -/
structure ReportCounts where
  reachable : ℕ
  notReachable : ℕ
  indeterminate : ℕ
deriving DecidableEq, Repr

def ReportCounts.fromPopulations (reachable : List ReachableFinding)
    (notReachable : List NotReachableFinding) (indeterminate : List IndeterminateFinding) :
    ReportCounts where
  reachable := reachable.length
  notReachable := notReachable.length
  indeterminate := indeterminate.length

/-- Run metadata and headline numbers. -/
structure ReportSummary where
  generatedAt : OffsetDateTime
  scope : ReportScope
  counts : ReportCounts
  toolVersion : String
deriving DecidableEq

/-- The root value every report output consumes. -/
@[ext] structure AuditReport where
  summary : ReportSummary
  reachable : List ReachableFinding
  notReachable : List NotReachableFinding
  indeterminate : List IndeterminateFinding
  counted : summary.counts = .fromPopulations reachable notReachable indeterminate
  inUtc : summary.generatedAt.offset = utc
deriving DecidableEq

/-- Assemble a report: the counts are computed and the time is put in UTC. -/
def AuditReport.new (scope : ReportScope) (toolVersion : String) (generatedAt : OffsetDateTime)
    (reachable : List ReachableFinding) (notReachable : List NotReachableFinding)
    (indeterminate : List IndeterminateFinding) : Option AuditReport :=
  let counts := ReportCounts.fromPopulations reachable notReachable indeterminate
  (generatedAt.toOffset utc).pmap
    (fun generatedAt inUtc =>
      { summary := { generatedAt, scope, counts, toolVersion }
        reachable, notReachable, indeterminate
        counted := rfl
        inUtc })
    fun _ converted => OffsetDateTime.offset_of_toOffset converted

end NetHound.Report
