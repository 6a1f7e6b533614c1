import NetHound.Soundness.Certificate
import NetHound.Soundness.SgIngestion

/-! # Security groups are a monotone union

The outcome of a security group is the strongest outcome among the rules of its direction, so it
depends on which rules there are and not on their order, and more rules never weaken it. What one rule
contributes is read from the memberships or from the address, never from both.
-/

namespace NetHound.Soundness

open Domain Evaluate Net

/-- Some rule of the direction admits the traffic. -/
def SomeAdmits (rules : List SgRule) (direction : Direction) (traffic : Traffic) (groups : List String) :
    Prop :=
  ∃ rule ∈ rules, rule.direction = direction ∧ RuleAdmits traffic groups rule

/-- Some rule of the direction covers protocol and port and waits for an unresolved group. -/
def SomeAwaits (rules : List SgRule) (direction : Direction) (traffic : Traffic) : Prop :=
  ∃ rule ∈ rules, rule.direction = direction ∧ ∃ refId, RuleAwaits traffic refId rule

theorem evaluateSg_eq (direction : Direction) (owner : String) (rules : List SgRule) (traffic : Traffic)
    (peer : Sg.PeerIdentity) : evaluateSg direction owner rules traffic peer =
      Sg.evaluate owner rules direction traffic peer := by
  cases direction <;> rfl

section Kinds

variable (direction : Direction) (owner : String) (rules : List SgRule) (traffic : Traffic)
  (peer : Sg.PeerIdentity)

private theorem ruleKind_unknown_iff (groups : List String) (rule : SgRule) :
    Sg.ruleKind traffic groups rule = .unknown ↔ ∃ refId, RuleAwaits traffic refId rule := by
  rw [Sg.ruleKind_eq_unknown_iff]
  exact exists_congr fun refId => awaitedIn_iff.trans (and_iff_right rfl)

private theorem kind_yes_iff : (evaluateSg direction owner rules traffic peer).kind = .yes ↔
    SomeAdmits rules direction traffic peer.securityGroupIds := by
  rw [evaluateSg_eq, Sg.evaluate_kind_yes_iff, Sg.admits, SomeAdmits]
  simp only [ruleAdmits_iff]

private theorem kind_unknown_iff : (evaluateSg direction owner rules traffic peer).kind = .unknown ↔
    ¬ SomeAdmits rules direction traffic peer.securityGroupIds ∧ SomeAwaits rules direction traffic := by
  rw [evaluateSg_eq, Sg.evaluate_kind_unknown_iff, Sg.undecided, Sg.admits, SomeAdmits, SomeAwaits]
  simp only [ruleAdmits_iff, ruleKind_unknown_iff]

private theorem kind_no_iff : (evaluateSg direction owner rules traffic peer).kind = .no ↔
    ¬ SomeAdmits rules direction traffic peer.securityGroupIds ∧ ¬ SomeAwaits rules direction traffic := by
  have neither (kind : Kleene) : kind = .no ↔ kind ≠ .yes ∧ kind ≠ .unknown := by
    cases kind <;> decide
  rw [neither, ne_eq, ne_eq, kind_yes_iff, kind_unknown_iff, not_and]
  exact and_congr_right fun none => ⟨fun awaits => awaits none, fun awaits _ => awaits⟩

private theorem evaluateSg_kind : (evaluateSg direction owner rules traffic peer).kind =
    Kleene.any ((Sg.ofDirection direction rules).map (Sg.ruleKind traffic peer.securityGroupIds)) := by
  rw [evaluateSg_eq]
  exact Sg.evaluate_kind owner rules direction traffic peer

/-- More rules of the direction never lower the outcome. -/
theorem evaluateSg_kind_mono {extended : List SgRule}
    (kept : Sg.ofDirection direction rules ⊆ Sg.ofDirection direction extended) :
    (evaluateSg direction owner rules traffic peer).kind ≤
      (evaluateSg direction owner extended traffic peer).kind := by
  rw [evaluateSg_kind, evaluateSg_kind]
  exact Kleene.any_mono (List.map_subset _ kept)

/-- The same rules of the direction, in any order, have the same outcome. -/
theorem evaluateSg_kind_congr {rules' : List SgRule}
    (same : ∀ rule, rule ∈ Sg.ofDirection direction rules ↔ rule ∈ Sg.ofDirection direction rules') :
    (evaluateSg direction owner rules traffic peer).kind =
      (evaluateSg direction owner rules' traffic peer).kind := by
  apply le_antisymm
  · exact evaluateSg_kind_mono direction owner rules traffic peer fun rule => (same rule).mp
  · exact evaluateSg_kind_mono direction owner rules' traffic peer fun rule => (same rule).mpr

end Kinds

/-- A reference's outcome does not read the peer's address. -/
theorem classifyRule_address {rule : SgRule} {refId : String} (target : rule.target = .securityGroupRef refId)
    (index : ℕ) (owner : String) (traffic : Traffic) (peer : Sg.PeerIdentity) (address : IpAddr) :
    Sg.classifyRule rule index owner { traffic with peerAddress := address } peer =
      Sg.classifyRule rule index owner traffic peer := by
  simp only [Sg.classifyRule, target]

/-- A CIDR's outcome does not read the peer's memberships. -/
theorem classifyRule_groups {rule : SgRule} {cidr : String} (target : rule.target = .cidr cidr)
    (index : ℕ) (owner : String) (traffic : Traffic) (peer peer' : Sg.PeerIdentity) :
    Sg.classifyRule rule index owner traffic peer' = Sg.classifyRule rule index owner traffic peer := by
  simp only [Sg.classifyRule, target]

/-- A security group evaluation is a union of its rules. -/
structure IsUnion (direction : Direction) (owner : String) (rules : List SgRule) (traffic : Traffic)
    (peer : Sg.PeerIdentity) : Prop where
  allowed_iff : (evaluateSg direction owner rules traffic peer).kind = .yes ↔
    SomeAdmits rules direction traffic peer.securityGroupIds
  indeterminate_iff : (evaluateSg direction owner rules traffic peer).kind = .unknown ↔
    ¬ SomeAdmits rules direction traffic peer.securityGroupIds ∧ SomeAwaits rules direction traffic
  denied_iff : (evaluateSg direction owner rules traffic peer).kind = .no ↔
    ¬ SomeAdmits rules direction traffic peer.securityGroupIds ∧ ¬ SomeAwaits rules direction traffic
  perm : ∀ rules', rules.Perm rules' → (evaluateSg direction owner rules' traffic peer).kind =
    (evaluateSg direction owner rules traffic peer).kind
  otherDirection : ∀ rules', Sg.ofDirection direction rules' = Sg.ofDirection direction rules →
    (evaluateSg direction owner rules' traffic peer).kind =
      (evaluateSg direction owner rules traffic peer).kind
  monotone : ∀ extended, rules.Sublist extended → (evaluateSg direction owner rules traffic peer).kind ≤
    (evaluateSg direction owner extended traffic peer).kind
  reference : ∀ rule refId index address, rule.target = .securityGroupRef refId →
    Sg.classifyRule rule index owner { traffic with peerAddress := address } peer =
      Sg.classifyRule rule index owner traffic peer
  cidr : ∀ rule cidr index peer', rule.target = .cidr cidr →
    Sg.classifyRule rule index owner traffic peer' = Sg.classifyRule rule index owner traffic peer

/-- Every security group evaluation is an order-independent, monotone union. -/
theorem evaluateSg_union (direction : Direction) (owner : String) (rules : List SgRule) (traffic : Traffic)
    (peer : Sg.PeerIdentity) : IsUnion direction owner rules traffic peer where
  allowed_iff := kind_yes_iff direction owner rules traffic peer
  indeterminate_iff := kind_unknown_iff direction owner rules traffic peer
  denied_iff := kind_no_iff direction owner rules traffic peer
  perm := by
    intro rules' perm
    apply evaluateSg_kind_congr
    exact fun rule => (perm.symm.filter _).mem_iff
  otherDirection := by
    intro rules' same
    apply evaluateSg_kind_congr
    exact fun rule => by rw [same]
  monotone := by
    intro extended sublist
    apply evaluateSg_kind_mono
    exact (sublist.filter _).subset
  reference := fun rule refId index address target =>
    classifyRule_address target index owner traffic peer address
  cidr := fun rule cidr index peer' target => classifyRule_groups target index owner traffic peer peer'

end NetHound.Soundness
