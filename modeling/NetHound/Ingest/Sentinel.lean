import NetHound.Ingest.Runs

/-! # All-protocol group rules

A security group rule for all protocols is mapped without a port range and so cannot be written. A
finished ingestion leaves the ones its store holds as they were (`Finished.filter_sentinel`).
-/

namespace NetHound.Ingest

open Domain Graph Cypher

def ruleTypes : List RelType := [.allowsEgress, .allowsIngress]

/-- A group rule for all protocols. -/
def sentinelRel (r : Relationship Label RelType Field BoltType) : Bool :=
  r.relType ∈ ruleTypes ∧ r.props .protocol = stringProp "-1"

def sentinelKey (key : MergeKey Label RelType Field BoltType) : Bool :=
  key.relType ∈ ruleTypes ∧ (.protocol, stringProp "-1") ∈ key.pattern

private theorem ruleQuery_pattern : ∀ query ∈ edgeQueries, query.relType ∈ ruleTypes →
    .protocol ∈ query.mergeKeys ∧ .fromPort ∈ query.mergeKeys := by
  decide

/-- Whether a rule is for all protocols is part of its key. -/
theorem sentinelRel_create {c : Merge} (emitted : Emitted c) : sentinelRel c.create = sentinelKey c.key := by
  obtain ⟨query, row, ⟨known, _⟩, merged⟩ := emitted
  obtain ⟨type, mergeKeys, _, _⟩ := EdgeQuery.merge_shape merged
  apply decide_eq_decide.mpr
  apply and_congr_right
  intro rule
  have protocol : .protocol ∈ c.mergeKeys := by
    rw [mergeKeys]
    apply (ruleQuery_pattern query known _).1
    rw [← type]
    exact rule
  have created : c.create.props .protocol = c.row .protocol := if_pos (Or.inr protocol)
  rw [created, RelMerge.key, List.mem_map]
  constructor
  · exact fun sentinel => ⟨.protocol, protocol, by rw [sentinel]⟩
  · rintro ⟨key, _, same⟩
    obtain ⟨rfl, value⟩ := Prod.mk.inj same
    exact value

private theorem mem_sgRuleStatements {direction : Direction} {batches : List SgRuleBatch}
    {statement : Statement}
    (member : statement ∈ sgRuleStatements direction batches) {row : Row} (inRows : row ∈ statement.2) :
    ∃ owned ∈ ownedRules batches, cidrRow owned = some row ∨
      ∃ resolved, sgRefRow resolved owned = some row := by
  have rows : row ∈ (ownedRules batches).filterMap cidrRow ∨
      ∃ resolved, row ∈ (ownedRules batches).filterMap (sgRefRow resolved) := by
    cases direction <;>
      simp only [sgRuleStatements, splitSgRuleRows_eq, List.mem_cons, List.not_mem_nil, or_false]
        at member <;>
      rcases member with rfl | rfl | rfl
    · exact Or.inl inRows
    · exact Or.inr ⟨true, inRows⟩
    · exact Or.inr ⟨false, inRows⟩
    · exact Or.inl inRows
    · exact Or.inr ⟨true, inRows⟩
    · exact Or.inr ⟨false, inRows⟩
  rcases rows with cidr | ⟨resolved, reference⟩
  · obtain ⟨owned, inRules, built⟩ := List.mem_filterMap.mp cidr
    exact ⟨owned, inRules, Or.inl built⟩
  · obtain ⟨owned, inRules, built⟩ := List.mem_filterMap.mp reference
    exact ⟨owned, inRules, Or.inr ⟨resolved, built⟩⟩

private theorem ruleRow_values {owned : String × SgRule} {row : Row}
    (built : cidrRow owned = some row ∨ ∃ resolved, sgRefRow resolved owned = some row) :
    row.value .protocol = stringProp owned.2.protocol ∧
      row.value .fromPort = (portRangeProps owned.2.portRange).1 := by
  rcases built with cidr | ⟨resolved, reference⟩
  · rw [cidrRow] at cidr
    split at cidr <;> cases cidr
    exact ⟨rfl, rfl⟩
  · rw [sgRefRow] at reference
    split at reference
    · cases reference
    · split_ifs at reference
      cases reference
      exact ⟨rfl, rfl⟩

/-- The rule statements of a batch hold the rules its groups map to. -/
private theorem exists_rule_of_row {accountId : String} {collections : Sdk.Collections} {batch : GraphBatch}
    (built : Built accountId collections batch) {statement : Statement}
    (member : statement ∈ edgeStatements batch.edges) (type : statement.1.relType ∈ ruleTypes) {row : Row}
    (inRows : row ∈ statement.2) : ∃ pair ∈ (keptCollections accountId collections).securityGroups,
      ∃ rule ∈ sgRules accountId pair, row.value .protocol = stringProp rule.protocol ∧
        row.value .fromPort = (portRangeProps rule.portRange).1 := by
  have ofOwned {direction : Direction} {as : Edge → Option (String × SgRule)}
      (sorted : batch.edges.filterMap as =
        (keptCollections accountId collections).securityGroups.flatMap (ownedSgRules accountId direction))
      (inStatements : statement ∈ sgRuleStatements direction (sgRuleBatches (batch.edges.filterMap as))) :
      ∃ pair ∈ (keptCollections accountId collections).securityGroups,
        ∃ rule ∈ sgRules accountId pair, row.value .protocol = stringProp rule.protocol ∧
          row.value .fromPort = (portRangeProps rule.portRange).1 := by
    obtain ⟨owned, inRules, made⟩ := mem_sgRuleStatements inStatements inRows
    rw [ownedRules_sgRuleBatches, mem_regrouped, sorted] at inRules
    obtain ⟨pair, kept, inPair⟩ := List.mem_flatMap.mp inRules
    obtain ⟨rule, ofPair, rfl⟩ := List.mem_map.mp inPair
    exact ⟨pair, kept, rule, (List.mem_filter.mp ofPair).1, ruleRow_values made⟩
  simp only [edgeStatements, routeStatements, List.mem_append, List.mem_cons,
    List.not_mem_nil, or_false] at member
  rcases member with ((((((rfl | rfl) | rfl) | rfl) | rfl | rfl) | ingress) | egress) | rfl
  · exact absurd type (by decide : RelType.hasSg ∉ ruleTypes)
  · exact absurd type (by decide : RelType.inSubnet ∉ ruleTypes)
  · exact absurd type (by decide : RelType.protectedBy ∉ ruleTypes)
  · exact absurd type (by decide : RelType.usesRouteTable ∉ ruleTypes)
  · exact absurd type (by decide : RelType.routesTo ∉ ruleTypes)
  · exact absurd type (by decide : RelType.routesTo ∉ ruleTypes)
  · exact ofOwned (by rw [built.edges, edges_asAllowsIngress]) ingress
  · exact ofOwned (by rw [built.edges, edges_asAllowsEgress]) egress
  · exact absurd type (by decide : RelType.hasRule ∉ ruleTypes)

/-- A rule for all protocols does not supply its merge pattern. -/
theorem Built.not_complete_of_sentinel {accountId : String} {collections : Sdk.Collections} {batch : GraphBatch}
    (built : Built accountId collections batch) {c : Merge} (member : c ∈ batchMerges batch)
    (sentinel : sentinelKey c.key = true) : ¬ c.Complete := by
  intro complete
  obtain ⟨statement, inStatements, written⟩ := List.mem_flatMap.mp member
  obtain ⟨row, inRows, merged⟩ := List.mem_filterMap.mp written
  obtain ⟨type, mergeKeys, _, values⟩ := EdgeQuery.merge_shape merged
  obtain ⟨ruleType, inPattern⟩ := of_decide_eq_true sentinel
  have ofRule : statement.1.relType ∈ ruleTypes := by
    rw [← type]
    exact ruleType
  obtain ⟨pair, kept, rule, ofPair, protocol, fromPort⟩ :=
    exists_rule_of_row built inStatements ofRule inRows
  have named : rule.protocol = "-1" := by
    obtain ⟨key, _, same⟩ := List.mem_map.mp inPattern
    obtain ⟨rfl, value⟩ := Prod.mk.inj same
    rw [values, protocol] at value
    exact BoltType.string.inj (Option.some.inj value)
  have ranged : rule.portRange.isSome = true := by
    have known := (allSent_edgeStatements batch.edges statement inStatements row inRows).1
    have supplied : c.row .fromPort ≠ none := by
      apply complete
      rw [mergeKeys]
      exact (ruleQuery_pattern _ known ofRule).2
    rw [values, fromPort] at supplied
    rcases portRange : rule.portRange with _ | range
    · rw [portRange] at supplied
      exact absurd rfl supplied
    · rfl
  exact Sg.protocol_of_ranged (built.sgRulesMapped pair kept) rule ofPair ranged named

section Finished

variable {accountId : String} {collections : Sdk.Collections} {graph : Neo4jGraph} {table : List Merge}
  {batch : GraphBatch} {ingested : Ingested}
  (finished : Finished accountId collections graph table batch ingested)

include finished

/-- A finished ingestion writes no rule for all protocols. -/
private theorem Finished.sentinel_batchMerges :
    (batchMerges batch).filter (fun c => sentinelKey c.key) = [] := by
  rw [List.filter_eq_nil_iff]
  intro c member sentinel
  obtain ⟨statement, inStatements, written⟩ := List.mem_flatMap.mp member
  obtain ⟨row, inRows, merged⟩ := List.mem_filterMap.mp written
  obtain ⟨c', merged', _, complete⟩ := finished.lands statement inStatements row inRows
  obtain rfl : c = c' := Option.some.inj (merged.symm.trans merged')
  exact finished.built.not_complete_of_sentinel member sentinel complete

/-- Every group rule of the account names its ports. -/
theorem Finished.ranged : ∀ pair ∈ (keptCollections accountId collections).securityGroups,
    ∀ rule ∈ sgRules accountId pair, rule.portRange.isSome = true := by
  intro pair kept rule ofPair
  have supplies : ∀ statement ∈ edgeStatements batch.edges, ∀ row ∈ statement.2, Supplies statement.1 row := by
    intro statement inStatements row inRows
    obtain ⟨c, merged, _, complete⟩ := finished.lands statement inStatements row inRows
    obtain ⟨_, mergeKeys, _, values⟩ := EdgeQuery.merge_shape merged
    rw [RelMerge.Complete, mergeKeys, values] at complete
    exact complete
  have ofOwned {direction : Direction} {as : Edge → Option (String × SgRule)}
      (sorted : batch.edges.filterMap as =
        (keptCollections accountId collections).securityGroups.flatMap (ownedSgRules accountId direction))
      (inBatch : ∀ statement ∈ sgRuleStatements direction (sgRuleBatches (batch.edges.filterMap as)),
        statement ∈ edgeStatements batch.edges) (directed : rule.direction = direction) :
      rule.portRange.isSome = true := by
    have ranged := (sgRuleStatements_supplied_iff direction _).mp
      fun statement member => supplies statement (inBatch statement member)
    refine ranged (pair.2.id, rule) ?_
    rw [ownedRules_sgRuleBatches, mem_regrouped, sorted]
    refine List.mem_flatMap.mpr ⟨pair, kept, List.mem_map.mpr ⟨rule, List.mem_filter.mpr ⟨ofPair, ?_⟩, rfl⟩⟩
    exact decide_eq_true directed
  rcases directed : rule.direction with _ | _
  · refine ofOwned (by rw [finished.built.edges, edges_asAllowsIngress]) (fun statement member => ?_) directed
    exact List.mem_append_left _ (List.mem_append_left _ (List.mem_append_right _ member))
  · refine ofOwned (by rw [finished.built.edges, edges_asAllowsEgress]) (fun statement member => ?_) directed
    exact List.mem_append_left _ (List.mem_append_right _ member)

/-- What a store holds of them stays, and nothing is added. -/
theorem Finished.filter_sentinel :
    (table.upserts RelMerge.key (batchMerges batch)).filter (fun c => sentinelKey c.key) =
      table.filter fun c => sentinelKey c.key := by
  rw [List.filter_upserts, finished.sentinel_batchMerges, List.upserts_nil]

end Finished

end NetHound.Ingest
