import NetHound.Evaluate.Assembly
import NetHound.Graph.Upserts

/-! # Reading written rules back

The decoders of `evaluate/candidates.rs` invert the row builders of `graph/neo4j.rs` on the
properties a merge leaves (`sgRuleFromProps_of_cidrRow`, `sgRuleFromProps_of_sgRefRow`,
`naclRuleFromProps_of_row`). A network ACL's rules are merged on their number alone, so what is read
back after a write is the list of rules keyed by number (`naclRules_readBack`).
-/

namespace NetHound.Evaluate

open Domain Graph Cypher

private theorem boltString_of_stringProp {props : Props} {field : Field} {value : String}
    (stored : props field = stringProp value) : boltString props field = .ok value := by
  rw [boltString, stored, stringProp]

/-- A stored port range decodes to itself. -/
theorem portRangeFromProps_of_row {props : Props} {portRange : Option PortRange}
    (fromPort : props .fromPort = (portRangeProps portRange).1)
    (toPort : props .toPort = (portRangeProps portRange).2) :
    portRangeFromProps props = .ok portRange := by
  rcases portRange with _ | range
  · rw [portRangeFromProps, boltOptU16, fromPort, portRangeProps]
  · simp only [portRangeFromProps, boltOptU16, fromPort, toPort, portRangeProps, portProp,
      u16TryFrom_toNat, PortRange.new_bounds]

private theorem sgRuleFromProps_of_parts {props : Props} {rule : SgRule}
    (protocol : props .protocol = stringProp rule.protocol)
    (fromPort : props .fromPort = (portRangeProps rule.portRange).1)
    (toPort : props .toPort = (portRangeProps rule.portRange).2)
    (target : targetFromProps props = .ok rule.target)
    (resolved : props .resolved = boolProp rule.resolved) :
    sgRuleFromProps props rule.direction = .ok rule := by
  have flag : decide (props .resolved = some (.boolean true)) = rule.resolved := by
    rw [resolved, boolProp]
    cases rule.resolved <;> rfl
  rw [sgRuleFromProps, boltString_of_stringProp protocol, portRangeFromProps_of_row fromPort toPort, target]
  change Except.ok (SgRule.mk rule.direction rule.protocol rule.portRange rule.target _) = _
  rw [flag]

/-- A CIDR rule's row, stored, decodes to the rule under the rule's direction. -/
theorem sgRuleFromProps_of_cidrRow {props : Props} {owner : String} {rule : SgRule} {cidr : String}
    (target : rule.target = .cidr cidr)
    (stored : ∀ key ∈ [Field.protocol, .fromPort, .toPort, .targetKind, .cidr, .resolved],
      props key = (sgRuleCidrRow owner rule cidr).value key) :
    sgRuleFromProps props rule.direction = .ok rule := by
  have kind : boltString props .targetKind = .ok "cidr" :=
    boltString_of_stringProp (stored .targetKind (by decide))
  have block : boltString props .cidr = .ok cidr := boltString_of_stringProp (stored .cidr (by decide))
  apply sgRuleFromProps_of_parts
  · exact stored .protocol (by decide)
  · exact stored .fromPort (by decide)
  · exact stored .toPort (by decide)
  · rw [targetFromProps, kind, target]
    change (boltString props .cidr >>= fun cidr => pure (RuleTarget.cidr cidr)) = _
    rw [block]
    rfl
  · exact stored .resolved (by decide)

/-- A reference rule's row, stored, decodes to the rule under the rule's direction. -/
theorem sgRuleFromProps_of_sgRefRow {props : Props} {owner : String} {rule : SgRule} {refId : String}
    (target : rule.target = .securityGroupRef refId)
    (stored : ∀ key ∈ [Field.protocol, .fromPort, .toPort, .targetKind, .targetSecurityGroupId, .resolved],
      props key = (sgRuleSgRefRow owner rule refId).value key) :
    sgRuleFromProps props rule.direction = .ok rule := by
  have kind : boltString props .targetKind = .ok "security_group_ref" :=
    boltString_of_stringProp (stored .targetKind (by decide))
  have group : boltString props .targetSecurityGroupId = .ok refId :=
    boltString_of_stringProp (stored .targetSecurityGroupId (by decide))
  apply sgRuleFromProps_of_parts
  · exact stored .protocol (by decide)
  · exact stored .fromPort (by decide)
  · exact stored .toPort (by decide)
  · rw [targetFromProps, kind, target]
    change (boltString props .targetSecurityGroupId >>= fun refId =>
      pure (RuleTarget.securityGroupRef refId)) = _
    rw [group]
    rfl
  · exact stored .resolved (by decide)

private theorem ruleNumberFromProps_of_row {props : Props} {ruleNumber : UInt16}
    (stored : props .ruleNumber = portProp ruleNumber) : ruleNumberFromProps props = .ok ruleNumber := by
  have value : boltI64 props .ruleNumber = .ok (ruleNumber.toNat : ℤ) := by
    rw [boltI64, stored, portProp]
  refine Except.bind_eq_ok_iff.mpr ⟨_, value, ?_⟩
  rw [u16TryFrom_toNat]
  rfl

/-- The merge of one network ACL rule's row. -/
def naclMerge (networkAclId : String) (rule : NaclRule) : Merge :=
  ⟨.hasRule, ⟨.networkAcl, networkAclId⟩, ⟨.networkAcl, networkAclId⟩, hasRuleUpsert.mergeKeys,
    hasRuleUpsert.setKeys, (naclRuleRow networkAclId rule).value⟩

theorem hasRuleUpsert_merge (networkAclId : String) (rule : NaclRule) :
    hasRuleUpsert.merge (naclRuleRow networkAclId rule) = some (naclMerge networkAclId rule) := rfl

theorem naclMerge_complete (networkAclId : String) (rule : NaclRule) :
    (naclMerge networkAclId rule).Complete := by
  intro key member
  obtain rfl := List.mem_singleton.mp member
  exact Option.some_ne_none _

/-- A network ACL rule's row, stored, decodes to the rule. -/
theorem naclRuleFromProps_of_row {props : Props} {networkAclId : String} {rule : NaclRule}
    (stored : ∀ key ∈ hasRuleUpsert.mergeKeys ++ hasRuleUpsert.setKeys,
      props key = (naclRuleRow networkAclId rule).value key) :
    naclRuleFromProps props = .ok rule := by
  have ruleNumber : ruleNumberFromProps props = .ok rule.ruleNumber :=
    ruleNumberFromProps_of_row (stored .ruleNumber (by decide))
  have direction : directionFromProps props = .ok rule.direction := by
    rw [directionFromProps, boltString_of_stringProp (stored .direction (by decide))]
    cases rule.direction <;> rfl
  have protocol : boltString props .protocol = .ok rule.protocol :=
    boltString_of_stringProp (stored .protocol (by decide))
  have portRange : portRangeFromProps props = .ok rule.portRange :=
    portRangeFromProps_of_row (stored .fromPort (by decide)) (stored .toPort (by decide))
  have cidr : boltString props .cidr = .ok rule.cidr :=
    boltString_of_stringProp (stored .cidr (by decide))
  have action : actionFromProps props = .ok rule.action := by
    rw [actionFromProps, boltString_of_stringProp (stored .action (by decide))]
    cases rule.action <;> rfl
  rw [naclRuleFromProps, ruleNumber, direction, protocol, portRange, cidr, action]
  rfl

/-- A written rule decodes to itself. -/
theorem naclRuleFromProps_naclMerge (networkAclId : String) (rule : NaclRule) :
    naclRuleFromProps (naclMerge networkAclId rule).create.props = .ok rule :=
  naclRuleFromProps_of_row fun _ written => RelMerge.Leaves.created.props_eq written

theorem naclMerge_key_eq_iff {networkAclId : String} {rule rule' : NaclRule} :
    (naclMerge networkAclId rule).key = (naclMerge networkAclId rule').key ↔
      rule.ruleNumber = rule'.ruleNumber := by
  constructor
  · intro same
    have pattern : [(Field.ruleNumber, portProp rule.ruleNumber)] =
        [(Field.ruleNumber, portProp rule'.ruleNumber)] := congrArg MergeKey.pattern same
    have numbers : (rule.ruleNumber.toNat : ℤ) = rule'.ruleNumber.toNat := by
      simpa [portProp] using pattern
    exact UInt16.toNat_inj.mp (by omega)
  · intro same
    have pattern : (naclMerge networkAclId rule).key.pattern =
        [(Field.ruleNumber, portProp rule.ruleNumber)] := rfl
    rw [same] at pattern
    exact congrArg (MergeKey.mk RelType.hasRule ⟨Label.networkAcl, networkAclId⟩
      ⟨Label.networkAcl, networkAclId⟩) pattern

/-- Rules read back from the relationships their merges created. -/
theorem naclRulesFromRow_create (networkAclId : String) (rules : List NaclRule) :
    naclRulesFromRow (rules.map fun rule => (naclMerge networkAclId rule).create.props) = .ok rules := by
  have nonempty : (rules.map fun rule => (naclMerge networkAclId rule).create.props).filter
      (fun props => !Props.isEmpty props) =
      rules.map fun rule => (naclMerge networkAclId rule).create.props := by
    refine List.filter_eq_self.mpr fun props member => ?_
    obtain ⟨rule, _, rfl⟩ := List.mem_map.mp member
    rfl
  rw [naclRulesFromRow, nonempty, List.mapM_eq_ok_iff, List.forall₂_map_left_iff]
  exact List.forall₂_same.mpr fun rule _ => naclRuleFromProps_naclMerge networkAclId rule

private theorem naclRulesOf_create (networkAclId : String) (stored : List NaclRule)
    {graph : Neo4jGraph} {others : List (Relationship Label RelType Field BoltType)}
    (fresh : ∀ r ∈ others, r.relType = .hasRule → r.source ≠ ⟨.networkAcl, networkAclId⟩)
    (relationships : graph.relationships =
      others ++ (stored.map (naclMerge networkAclId)).map RelMerge.create) :
    naclRulesOf graph [networkAclId] = stored.map fun rule => (naclMerge networkAclId rule).create.props := by
  have none : others.filter (fun r => decide (r.relType = .hasRule ∧ r.source.label = .networkAcl ∧
      r.target = r.source ∧ r.source.id ∈ [networkAclId])) = [] := by
    refine List.filter_eq_nil_iff.mpr fun r member kept => ?_
    obtain ⟨type, label, _, id⟩ := of_decide_eq_true kept
    refine fresh r member type ?_
    rw [← label, ← List.mem_singleton.mp id]
  have all : ((stored.map (naclMerge networkAclId)).map RelMerge.create).filter (fun r =>
      decide (r.relType = .hasRule ∧ r.source.label = .networkAcl ∧ r.target = r.source ∧
        r.source.id ∈ [networkAclId])) = (stored.map (naclMerge networkAclId)).map RelMerge.create := by
    refine List.filter_eq_self.mpr fun r member => ?_
    obtain ⟨c, inMerges, rfl⟩ := List.mem_map.mp member
    obtain ⟨rule, _, rfl⟩ := List.mem_map.mp inMerges
    exact decide_eq_true ⟨rfl, rfl, rfl, List.mem_cons_self⟩
  rw [naclRulesOf, relationships, List.filter_append, none, all, List.nil_append, List.map_map, List.map_map]
  rfl

/-- Writing a network ACL's rules succeeds, and reading them back yields the last rule of each number. -/
theorem naclRules_readBack {graph : Neo4jGraph} {networkAclId : String} (rules : List NaclRule)
    (node : ⟨.networkAcl, networkAclId⟩ ∈ graph.refs)
    (fresh : ∀ r ∈ graph.relationships, r.relType = .hasRule → r.source ≠ ⟨.networkAcl, networkAclId⟩) :
    ∃ graph', upsertHasRules [⟨networkAclId, rules⟩] graph = .ok graph' ∧
      naclRulesFromRow (naclRulesOf graph' [networkAclId]) =
        .ok (([] : List NaclRule).upserts NaclRule.ruleNumber rules) := by
  have upsert : upsertHasRules [⟨networkAclId, rules⟩] graph =
      runEdgeUpsert hasRuleUpsert (rules.map (naclRuleRow networkAclId)) graph := by
    rw [upsertHasRules, List.flatMap_cons, List.flatMap_nil, List.append_nil]
  have merges : (rules.map (naclRuleRow networkAclId)).filterMap hasRuleUpsert.merge =
      rules.map (naclMerge networkAclId) := by
    rw [List.filterMap_map, ← List.filterMap_eq_map]
    rfl
  have formed : FormedRows hasRuleUpsert (rules.map (naclRuleRow networkAclId)) :=
    formedRows_of_known (by decide) _
  have untouched : ∀ c ∈ (rules.map (naclRuleRow networkAclId)).filterMap hasRuleUpsert.merge,
      ∀ r ∈ graph.relationships, c.matched r = false := by
    intro c member r present
    rw [merges] at member
    obtain ⟨rule, _, rfl⟩ := List.mem_map.mp member
    refine Bool.eq_false_iff.mpr fun matched => ?_
    simp only [RelMerge.matched, Bool.and_eq_true, decide_eq_true_eq] at matched
    exact fresh r present matched.1 matched.2.1
  have done : ∀ row ∈ rules.map (naclRuleRow networkAclId),
      ∃ c, hasRuleUpsert.merge row = some c ∧ c.Bound graph ∧ c.Complete := by
    intro row member
    obtain ⟨rule, _, rfl⟩ := List.mem_map.mp member
    exact ⟨_, hasRuleUpsert_merge networkAclId rule, ⟨node, node⟩, naclMerge_complete networkAclId rule⟩
  have start := PropertyGraph.Written.start graph
  obtain ⟨graph', ran⟩ := runEdgeUpsert_of_complete start (by simp) formed untouched done
  obtain ⟨_, _, written⟩ := runEdgeUpsert_ok start (by simp) formed untouched ran
  have byNumber : ([] : List NaclRule).upserts (RelMerge.key ∘ naclMerge networkAclId) rules =
      [].upserts NaclRule.ruleNumber rules := List.upserts_congr (fun _ _ => naclMerge_key_eq_iff) _ _
  rw [merges, ← List.map_nil (f := naclMerge networkAclId), List.upserts_map, byNumber] at written
  refine ⟨graph', upsert.trans ran, ?_⟩
  rw [naclRulesOf_create networkAclId _ fresh written.relationships]
  exact naclRulesFromRow_create networkAclId _

end NetHound.Evaluate
