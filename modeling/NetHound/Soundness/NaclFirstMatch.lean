import NetHound.Evaluate.OrderFree
import NetHound.Soundness.Certificate
import NetHound.Soundness.NaclIngestion

/-! # Network ACLs decide by the lowest matching number

The verdict is that of the rule that decides its direction: it applies, none that applies has a
smaller number, and none before it has the same one. So only the rules of the direction up to its
number matter, and their order only where two of them share a number.
-/

namespace NetHound.Soundness

open Domain Evaluate Net

/-- No two rules of the direction share a number. -/
def DistinctNumbers (direction : Direction) (rules : List NaclRule) : Prop :=
  ((rules.filter fun rule => rule.direction = direction).map NaclRule.ruleNumber).Nodup

/-- A rule of the other direction, or one numbered above the deciding rule. -/
def NaclIrrelevant (rules : List NaclRule) (direction : Direction) (traffic : Traffic) (rule : NaclRule) :
    Prop :=
  rule.direction ≠ direction ∨
    ∃ first, NaclDecides rules direction traffic first ∧ first.ruleNumber < rule.ruleNumber

/-- Which rule decides, if any applies. -/
def NaclDecided (rules : List NaclRule) (direction : Direction) (traffic : Traffic) : Option NaclRule → Prop
  | none => ∀ rule ∈ rules, rule.direction = direction → ¬ RuleApplies traffic rule
  | some rule => NaclDecides rules direction traffic rule

section Deciding

variable {rules extended : List NaclRule} {direction : Direction} {traffic : Traffic} {rule : NaclRule}

/-- The rules that can matter: those of the direction up to the deciding rule's number. -/
private def relevant (rules : List NaclRule) (direction : Direction) (traffic : Traffic) (rule : NaclRule) :
    Bool :=
  decide (rule.direction = direction) &&
    (Nacl.deciding rules direction traffic).all fun first => Nacl.sortKey rule ≤ Nacl.sortKey first

private theorem relevant_of_irrelevant (irrelevant : NaclIrrelevant rules direction traffic rule) :
    relevant rules direction traffic rule = false := by
  rw [relevant, Bool.and_eq_false_iff]
  rcases irrelevant with otherDirection | ⟨first, decides, above⟩
  · exact Or.inl (decide_eq_false otherDirection)
  · right
    rw [naclDecides_iff.mp decides, Option.all_some, decide_eq_false_iff_not]
    exact Nat.not_le.mpr (UInt16.lt_iff_toNat_lt.mp above)

private theorem relevant_of_matches {first : NaclRule}
    (found : Nacl.deciding rules direction traffic = some first)
    (matched : Nacl.matchesIn direction traffic rule = true)
    (upTo : Nacl.sortKey rule ≤ Nacl.sortKey first) : relevant rules direction traffic rule = true := by
  rw [relevant, found, Option.all_some, Bool.and_eq_true, decide_eq_true_eq]
  exact ⟨of_decide_eq_true (Bool.and_eq_true_iff.mp matched).1, decide_eq_true upTo⟩

/-- Inserting irrelevant rules leaves the deciding rule as it was. -/
theorem deciding_of_inserted
    (inserted : List.Inserted (NaclIrrelevant rules direction traffic) rules extended) :
    Nacl.deciding extended direction traffic = Nacl.deciding rules direction traffic := by
  have same := inserted.filter_eq fun _ => relevant_of_irrelevant
  cases found : Nacl.deciding rules direction traffic with
  | some first => exact List.leastMatch_of_filter_eq found same fun _ => relevant_of_matches found
  | none =>
    refine List.leastMatch_eq_none_iff.mpr fun rule member => Bool.eq_false_iff.mpr fun matched => ?_
    have kept : relevant rules direction traffic rule = true := by
      rw [relevant, found, Option.all_none, Bool.and_true]
      exact (Bool.and_eq_true_iff.mp matched).1
    have inRules : rule ∈ rules.filter (relevant rules direction traffic) :=
      same ▸ List.mem_filter.mpr ⟨member, kept⟩
    rw [List.leastMatch_eq_none_iff.mp found rule (List.mem_filter.mp inRules).1] at matched
    cases matched

/-- Nor do they make the order matter. -/
theorem orderFree_of_inserted
    (inserted : List.Inserted (NaclIrrelevant rules direction traffic) rules extended)
    (free : Nacl.OrderFree rules direction traffic) : Nacl.OrderFree extended direction traffic := by
  have same := inserted.filter_eq fun _ => relevant_of_irrelevant
  intro rule rule' least least'
  cases found : Nacl.deciding rules direction traffic with
  | some first =>
    have kept (rule : NaclRule) := @relevant_of_matches rules direction traffic rule first found
    exact free rule rule' (least.of_filter_eq found same kept) (least'.of_filter_eq found same kept)
  | none =>
    have unmatched := List.leastMatch_eq_none_iff.mp ((deciding_of_inserted inserted).trans found) rule least.1
    have matched := least.2.1
    rw [Nacl.matchesIn, unmatched] at matched
    cases matched

private theorem orderFree_of_distinct (distinct : DistinctNumbers direction rules) :
    Nacl.OrderFree rules direction traffic := by
  refine Nacl.orderFree_of_unique (fun rule member rule' member' ofDirection ofDirection' => ?_) traffic
  apply List.inj_on_of_nodup_map distinct
  · exact List.mem_filter.mpr ⟨member, decide_eq_true ofDirection⟩
  · exact List.mem_filter.mpr ⟨member', decide_eq_true ofDirection'⟩

end Deciding

theorem evaluateNacl_eq (direction : Direction) (networkAclId : String) (rules : List NaclRule)
    (traffic : Traffic) : evaluateNacl direction networkAclId rules traffic =
      Nacl.evaluate networkAclId rules direction traffic := by
  cases direction <;> rfl

/-- The verdict is that of the least numbered rule that applies, the earliest of its number. -/
theorem evaluateNacl_decided (direction : Direction) (networkAclId : String) (rules : List NaclRule)
    (traffic : Traffic) : ∃ decided, NaclDecided rules direction traffic decided ∧
      evaluateNacl direction networkAclId rules traffic = Nacl.verdictOf networkAclId decided := by
  rw [evaluateNacl_eq, Nacl.evaluate_eq]
  refine ⟨_, ?_, rfl⟩
  cases found : Nacl.deciding rules direction traffic with
  | none =>
    intro rule member ofDirection applies
    have unmatched := List.leastMatch_eq_none_iff.mp found rule member
    rw [ruleApplies_iff.mpr ⟨ofDirection, applies⟩] at unmatched
    cases unmatched
  | some rule => exact naclDecides_iff.mpr found

/-- A network ACL decides by its lowest matching number. Sorting the rules first, or inserting
irrelevant ones, changes nothing; with distinct numbers, neither does any order. -/
theorem evaluateNacl_firstMatch (direction : Direction) (networkAclId : String) (rules : List NaclRule)
    (traffic : Traffic) :
    (∃ decided, NaclDecided rules direction traffic decided ∧
        evaluateNacl direction networkAclId rules traffic = Nacl.verdictOf networkAclId decided) ∧
      evaluateNacl direction networkAclId
          (rules.insertionSort fun a b => Nacl.sortKey a ≤ Nacl.sortKey b) traffic =
        evaluateNacl direction networkAclId rules traffic ∧
      ∀ extended, List.Inserted (NaclIrrelevant rules direction traffic) rules extended →
        evaluateNacl direction networkAclId extended traffic =
            evaluateNacl direction networkAclId rules traffic ∧
          (DistinctNumbers direction rules → ∀ shuffled, extended.Perm shuffled →
            evaluateNacl direction networkAclId shuffled traffic =
              evaluateNacl direction networkAclId rules traffic) := by
  refine ⟨evaluateNacl_decided direction networkAclId rules traffic, ?_, fun extended inserted => ?_⟩
  · rw [evaluateNacl_eq, evaluateNacl_eq]
    exact Nacl.evaluate_insertionSort networkAclId rules direction traffic
  · have same : evaluateNacl direction networkAclId extended traffic =
        evaluateNacl direction networkAclId rules traffic := by
      rw [evaluateNacl_eq, evaluateNacl_eq, Nacl.evaluate_eq, Nacl.evaluate_eq, deciding_of_inserted inserted]
    refine ⟨same, fun distinct shuffled perm => ?_⟩
    have free := orderFree_of_inserted inserted (@orderFree_of_distinct _ _ traffic distinct)
    rw [← same, evaluateNacl_eq, evaluateNacl_eq]
    exact (Nacl.evaluate_perm_iff networkAclId extended direction traffic).mpr free shuffled perm

end NetHound.Soundness
