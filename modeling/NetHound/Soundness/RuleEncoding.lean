import NetHound.Evaluate.Encode

/-! # The flattened encoding of rules and candidates

A rule shares one map with the entries of its port range and of its target. The rule is read back all the
same, alone and in a candidate, and its entries tell it apart from every other rule of either kind, in
whatever order they stand.
-/

namespace NetHound.Soundness

open Domain Evaluate Serde

/-- The entries of a rule of either kind. -/
def ruleEntries : SgRule ⊕ NaclRule → Entries := Sum.elim SgRule.entries NaclRule.entries

def encodeRule : SgRule ⊕ NaclRule → Value := Sum.elim SgRule.encode NaclRule.encode

theorem sgRule_ofEntries_perm {entries entries' : Entries} (perm : entries.Perm entries') :
    SgRule.ofEntries entries = SgRule.ofEntries entries' := by
  simp only [SgRule.ofEntries, RuleTarget.ofEntries, PortRange.ofEntries, required_perm perm]

theorem naclRule_ofEntries_perm {entries entries' : Entries} (perm : entries.Perm entries') :
    NaclRule.ofEntries entries = NaclRule.ofEntries entries' := by
  simp only [NaclRule.ofEntries, PortRange.ofEntries, required_perm perm]

/-- Only a security group rule says whether it is resolved. -/
private theorem resolved_notMem_naclRule (rule : NaclRule) (value : Value) :
    ("resolved", value) ∉ rule.entries := by
  have ports : ("resolved", value) ∉ PortRange.encodeFlat rule.portRange := fun member =>
    absurd (PortRange.keyed_encodeFlat rule.portRange _ member) (show "resolved" ∉ portKeys by decide)
  simp [NaclRule.entries, ports]

private theorem sgRule_entries_not_perm (sgRule : SgRule) (naclRule : NaclRule) :
    ¬ sgRule.entries.Perm naclRule.entries := by
  intro perm
  have resolved : ("resolved", Value.bool sgRule.resolved) ∈ sgRule.entries :=
    List.mem_append_right _ List.mem_cons_self
  exact resolved_notMem_naclRule naclRule _ (perm.mem_iff.mp resolved)

/-- Rules of either kind with the same entries are the same rule. -/
theorem eq_of_perm_ruleEntries {rule rule' : SgRule ⊕ NaclRule}
    (perm : (ruleEntries rule).Perm (ruleEntries rule')) : rule = rule' := by
  cases rule with
  | inl rule =>
    cases rule' with
    | inl rule' =>
      have read := sgRule_ofEntries_perm perm
      rw [← SgRule.decode_map, ← SgRule.decode_map] at read
      have same := ((SgRule.roundTrips rule).symm.trans read).trans (SgRule.roundTrips rule')
      rw [Option.some.inj same]
    | inr rule' => exact absurd perm (sgRule_entries_not_perm rule rule')
  | inr rule =>
    cases rule' with
    | inl rule' => exact absurd perm.symm (sgRule_entries_not_perm rule' rule)
    | inr rule' =>
      have read := naclRule_ofEntries_perm perm
      rw [← NaclRule.decode_map, ← NaclRule.decode_map] at read
      have same := ((NaclRule.roundTrips rule).symm.trans read).trans (NaclRule.roundTrips rule')
      rw [Option.some.inj same]

/-- Rules of both kinds and candidates are read back from their encodings, and no two rules are encoded
alike. -/
theorem flattened_roundTrip :
    RoundTrips SgRule.decode SgRule.encode ∧ RoundTrips NaclRule.decode NaclRule.encode ∧
      RoundTrips PathCandidate.decode PathCandidate.encode ∧ Function.Injective encodeRule := by
  refine ⟨SgRule.roundTrips, NaclRule.roundTrips, PathCandidate.roundTrips, fun rule rule' same => ?_⟩
  have encode_eq (rule : SgRule ⊕ NaclRule) : encodeRule rule = .map (ruleEntries rule) := by
    cases rule <;> rfl
  rw [encode_eq, encode_eq] at same
  exact eq_of_perm_ruleEntries (List.Perm.of_eq (Value.map.inj same))

end NetHound.Soundness
