import NetHound.Evaluate.Basic
import NetHound.ToMathlib.FirstMatch

/-! # The network ACL evaluator

`evaluate/nacl.rs`: the rules of one direction, stably sorted by rule number, decided by the first
match. `deciding` is that rule with no sort in it, and `evaluate_eq` states that the whole verdict
is a function of it; in particular a network ACL is never indeterminate.
-/

namespace NetHound.Evaluate.Nacl

open Domain Net

/-- One rule's match, independent of its action. -/
def ruleMatches (rule : NaclRule) (traffic : Traffic) : Bool :=
  if !ruleProtocolMatches rule.protocol traffic.protocol then false
  else if rule.protocol != "-1" && !portMatches rule.portRange traffic.port then false
  else
    match cidrContains rule.cidr traffic.peerAddress with
    | some true => true
    | _ => false

/-- The sort key; `u16` orders as its value. -/
abbrev sortKey (rule : NaclRule) : ℕ := rule.ruleNumber.toNat

def evaluate (networkAclId : String) (rules : List NaclRule) (direction : Direction)
    (traffic : Traffic) : Verdict :=
  let candidates := (rules.filter (fun rule => rule.direction = direction)).insertionSort
    (fun a b => sortKey a ≤ sortKey b)
  match candidates.find? (fun rule => ruleMatches rule traffic) with
  | some rule =>
      let matchedBy := .networkAcl networkAclId rule.ruleNumber
      match rule.action with
      | .allow => .allowed matchedBy
      | .deny => .denied (.explicitDeny matchedBy)
  | none => .denied .noMatchingRule

def evaluateNaclEgress (networkAclId : String) (rules : List NaclRule) (traffic : Traffic) : Verdict :=
  evaluate networkAclId rules .egress traffic

def evaluateNaclIngress (networkAclId : String) (rules : List NaclRule) (traffic : Traffic) : Verdict :=
  evaluate networkAclId rules .ingress traffic

theorem ruleMatches_eq (rule : NaclRule) (traffic : Traffic) :
    ruleMatches rule traffic =
      (ruleCovers rule.protocol rule.portRange traffic && cidrAdmits rule.cidr traffic.peerAddress) := by
  have contained : (match cidrContains rule.cidr traffic.peerAddress with
      | some true => true
      | _ => false) = cidrAdmits rule.cidr traffic.peerAddress := by
    unfold cidrAdmits
    split <;> simp_all
  simp only [ruleMatches, contained, ruleCovers]
  cases ruleProtocolMatches rule.protocol traffic.protocol <;>
    cases sentinel : rule.protocol == "-1" <;>
      cases portMatches rule.portRange traffic.port <;> simp [bne, sentinel]

/-- The rule that decides a direction: the matching one of lowest number, earliest on ties. -/
def deciding (rules : List NaclRule) (direction : Direction) (traffic : Traffic) : Option NaclRule :=
  rules.leastMatch sortKey
    (fun rule => decide (rule.direction = direction) && ruleMatches rule traffic)

/-- The verdict the deciding rule stands for. -/
def verdictOf (networkAclId : String) : Option NaclRule → Verdict
  | none => .denied .noMatchingRule
  | some rule =>
      match rule.action with
      | .allow => .allowed (.networkAcl networkAclId rule.ruleNumber)
      | .deny => .denied (.explicitDeny (.networkAcl networkAclId rule.ruleNumber))

/-- An evaluation is the verdict of its deciding rule. -/
theorem evaluate_eq (networkAclId : String) (rules : List NaclRule) (direction : Direction)
    (traffic : Traffic) :
    evaluate networkAclId rules direction traffic =
      verdictOf networkAclId (deciding rules direction traffic) := by
  have selected := List.find?_insertionSort sortKey (fun rule => ruleMatches rule traffic)
    (rules.filter (fun rule => rule.direction = direction))
  rw [List.leastMatch_filter] at selected
  change _ = deciding rules direction traffic at selected
  simp only [evaluate, selected]
  cases deciding rules direction traffic with
  | none => rfl
  | some rule => cases action : rule.action <;> simp [verdictOf, action]

/-- The deciding rule allows the traffic. -/
def admits (rules : List NaclRule) (direction : Direction) (traffic : Traffic) : Prop :=
  ∃ rule, deciding rules direction traffic = some rule ∧ rule.action = .allow

theorem evaluate_kind_yes_iff (networkAclId : String) (rules : List NaclRule) (direction : Direction)
    (traffic : Traffic) :
    (evaluate networkAclId rules direction traffic).kind = .yes ↔ admits rules direction traffic := by
  rw [evaluate_eq, admits]
  cases deciding rules direction traffic with
  | none => simp [verdictOf, Verdict.kind]
  | some rule => cases action : rule.action <;> simp [verdictOf, Verdict.kind, action]

theorem evaluate_kind_ne_unknown (networkAclId : String) (rules : List NaclRule)
    (direction : Direction) (traffic : Traffic) :
    (evaluate networkAclId rules direction traffic).kind ≠ .unknown := by
  rw [evaluate_eq]
  cases deciding rules direction traffic with
  | none => simp [verdictOf, Verdict.kind]
  | some rule => cases action : rule.action <;> simp [verdictOf, Verdict.kind, action]

/-- The owner's id reaches the evidence only. -/
theorem evaluate_kind_congr (networkAclId networkAclId' : String) (rules : List NaclRule)
    (direction : Direction) (traffic : Traffic) :
    (evaluate networkAclId rules direction traffic).kind =
      (evaluate networkAclId' rules direction traffic).kind := by
  rw [evaluate_eq, evaluate_eq]
  cases deciding rules direction traffic with
  | none => rfl
  | some rule => cases action : rule.action <;> simp [verdictOf, Verdict.kind, action]

end NetHound.Evaluate.Nacl
