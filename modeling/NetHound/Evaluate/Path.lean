import Mathlib.Order.Basic
import NetHound.Evaluate.Basic

/-! # Path candidates, evidence and findings

The data an evaluator reads and returns, from `evaluate/path.rs` and `domain/finding.rs`.
-/

namespace NetHound.Evaluate

open Domain

/-- One endpoint of a candidate. -/
structure EndpointCandidate where
  eniId : String
  peerSecurityGroupIds : List String
  securityGroupRules : List SgRule
  subnetId : String
  naclRules : List NaclRule
deriving DecidableEq, Repr

/-- A materialized candidate, self-contained for evaluation. -/
structure PathCandidate where
  source : EndpointCandidate
  destination : EndpointCandidate
  routeExists : Bool
  traffic : Traffic
  destinationBoundary : String
deriving DecidableEq, Repr

/-- The four rule layers in evaluation order. -/
inductive EvaluationLayer where
  | sgEgress
  | naclEgress
  | naclIngress
  | sgIngress
deriving DecidableEq, Repr

/-- Declaration order, which is evaluation order. -/
def EvaluationLayer.rank : EvaluationLayer → ℕ
  | .sgEgress => 0
  | .naclEgress => 1
  | .naclIngress => 2
  | .sgIngress => 3

theorem EvaluationLayer.rank_injective : Function.Injective EvaluationLayer.rank := by
  intro layer other same
  cases layer <;> cases other <;> first | rfl | cases same

/-- The derived `Ord`. -/
instance : LinearOrder EvaluationLayer :=
  LinearOrder.lift' EvaluationLayer.rank EvaluationLayer.rank_injective

structure EvaluationStep where
  layer : EvaluationLayer
  resourceId : String
  verdict : Verdict
deriving DecidableEq, Repr

/-- One step for each layer consulted, in order. -/
structure PathEvidence where
  steps : List EvaluationStep
deriving DecidableEq, Repr

inductive Severity where
  | low
  | medium
  | high
  | critical
deriving DecidableEq, Repr

/-- The outcome of a reachability check. -/
inductive Reachability where
  | reachable
  | notReachable
  | indeterminate (layers : List EvaluationLayer)
deriving DecidableEq, Repr

def Reachability.kind : Reachability → Kleene
  | .reachable => .yes
  | .notReachable => .no
  | .indeterminate _ => .unknown

theorem Reachability.kind_eq_yes_iff {reachability : Reachability} :
    reachability.kind = .yes ↔ reachability = .reachable := by
  cases reachability <;> simp [Reachability.kind]

theorem Reachability.kind_eq_no_iff {reachability : Reachability} :
    reachability.kind = .no ↔ reachability = .notReachable := by
  cases reachability <;> simp [Reachability.kind]

/-- The layers an undecided outcome names. -/
def Reachability.layers : Reachability → List EvaluationLayer
  | .indeterminate layers => layers
  | _ => []

theorem Reachability.kind_eq_unknown_iff {reachability : Reachability} :
    reachability.kind = .unknown ↔ reachability = .indeterminate reachability.layers := by
  cases reachability <;> simp [Reachability.kind, Reachability.layers]

structure ReachabilityFinding where
  computedAt : String
  source : String
  destinationBoundary : String
  pathEvidence : PathEvidence
  reachability : Reachability
  severity : Severity
deriving DecidableEq, Repr

end NetHound.Evaluate
