import NetHound.Evaluate.ReadBack
import NetHound.Ingest.Nacl

/-! # Network ACL rules in the graph

The `HAS_RULE` upsert merges on the rule number alone, while AWS numbers the two directions apart.
A network ACL's rules therefore survive a write exactly when no number is used in both directions.
-/

namespace NetHound.Soundness

open Domain Graph Cypher Ingest Evaluate

/-- Writing the rules succeeds and reading them back yields the same rules. -/
def Persisted (graph : Neo4jGraph) (networkAclId : String) (rules : List NaclRule) : Prop :=
  ∃ graph', upsertHasRules [⟨networkAclId, rules⟩] graph = .ok graph' ∧
    ∃ readBack, naclRulesFromRow (naclRulesOf graph' [networkAclId]) = .ok readBack ∧ readBack.Perm rules

theorem persisted_iff_nodup {graph : Neo4jGraph} {networkAclId : String} (rules : List NaclRule)
    (node : ⟨.networkAcl, networkAclId⟩ ∈ graph.refs)
    (fresh : ∀ r ∈ graph.relationships, r.relType = .hasRule → r.source ≠ ⟨.networkAcl, networkAclId⟩) :
    Persisted graph networkAclId rules ↔ (rules.map NaclRule.ruleNumber).Nodup := by
  obtain ⟨graph', ran, read⟩ := naclRules_readBack rules node fresh
  constructor
  · rintro ⟨_, ran', readBack, read', same⟩
    rw [ran] at ran'
    cases ran'
    rw [read] at read'
    cases read'
    have unwritten : (([] : List NaclRule).map NaclRule.ruleNumber).Nodup := List.nodup_nil
    exact (same.map _).nodup_iff.mp (List.nodup_upserts _ unwritten rules)
  · intro unique
    refine ⟨graph', ran, _, read, ?_⟩
    rw [List.upserts_of_nodup _ (by rwa [List.nil_append]), List.nil_append]

/-- No rule number occurs in both directions. -/
def NumbersApart (acl : Sdk.NetworkAcl) : Prop :=
  ∀ entry ∈ acl.entries, ∀ entry' ∈ acl.entries,
    entry.ruleNumber = entry'.ruleNumber → entry.egress = entry'.egress

private theorem nodup_ruleNumbers_iff {acl : Sdk.NetworkAcl} {rules : List NaclRule}
    (mapped : Nacl.mapNetworkAclRules acl = .ok rules)
    (distinct : (rules.map fun rule => (rule.direction, rule.ruleNumber)).Nodup) :
    (rules.map NaclRule.ruleNumber).Nodup ↔ NumbersApart acl := by
  obtain ⟨networkAclId, _, toEntry, toRule⟩ := Nacl.mem_mapNetworkAclRules mapped
  have fields {entry : Sdk.NetworkAclEntry} {rule : NaclRule}
      (each : Nacl.mapEntry networkAclId entry = .ok rule) :
      entry.ruleNumber = some (rule.ruleNumber.toNat : ℤ) ∧
        entry.egress = some (decide (rule.direction = .egress)) := by
    obtain ⟨number, _, _, _, direction, _⟩ := Nacl.mapEntry_eq_ok_iff.mp each
    exact ⟨Nacl.mapRuleNumber_eq_ok_iff.mp number, Nacl.mapEntryDirection_eq_ok_iff.mp direction⟩
  rw [List.nodup_map_iff_inj_on (List.Nodup.of_map _ distinct)]
  constructor
  · intro injective entry member entry' member' sameNumber
    obtain ⟨rule, inRules, each⟩ := toRule entry member
    obtain ⟨rule', inRules', each'⟩ := toRule entry' member'
    obtain ⟨number, egress⟩ := fields each
    obtain ⟨number', egress'⟩ := fields each'
    rw [number, number', Option.some_inj] at sameNumber
    have same : rule = rule' :=
      injective rule inRules rule' inRules' (UInt16.toNat_inj.mp (by omega))
    rw [egress, egress', same]
  · intro apart rule inRules rule' inRules' sameNumber
    obtain ⟨entry, member, each⟩ := toEntry rule inRules
    obtain ⟨entry', member', each'⟩ := toEntry rule' inRules'
    obtain ⟨number, egress⟩ := fields each
    obtain ⟨number', egress'⟩ := fields each'
    have sameEgress := apart entry member entry' member' (by rw [number, number', sameNumber])
    rw [egress, egress', Option.some_inj, decide_eq_decide] at sameEgress
    have sameDirection : rule.direction = rule'.direction := by
      revert sameEgress
      cases rule.direction <;> cases rule'.direction <;> simp
    exact List.inj_on_of_nodup_map distinct inRules inRules' (Prod.ext sameDirection sameNumber)

/-- The mapped rules of a network ACL, distinct within each direction, survive the graph exactly
when no number is used in both. -/
theorem mapNetworkAclRules_persisted_iff {acl : Sdk.NetworkAcl} {rules : List NaclRule}
    {graph : Neo4jGraph} {networkAclId : String} (mapped : Nacl.mapNetworkAclRules acl = .ok rules)
    (distinct : (rules.map fun rule => (rule.direction, rule.ruleNumber)).Nodup)
    (node : ⟨.networkAcl, networkAclId⟩ ∈ graph.refs)
    (fresh : ∀ r ∈ graph.relationships, r.relType = .hasRule → r.source ≠ ⟨.networkAcl, networkAclId⟩) :
    Persisted graph networkAclId rules ↔ NumbersApart acl := by
  rw [persisted_iff_nodup rules node fresh, nodup_ruleNumbers_iff mapped distinct]

/-- The network ACL's own node and nothing else. -/
private def aclGraph : Neo4jGraph :=
  PropertyGraph.empty.mergeNodes [nodeUpsert .networkAcl
    (networkAclRow ⟨"acl-1", "111122223333", "vpc-1", true⟩)]

private theorem aclGraph_fresh :
    ∀ r ∈ aclGraph.relationships, r.relType = .hasRule → r.source ≠ ⟨.networkAcl, "acl-1"⟩ := by
  intro r member
  cases member

private def allowEntry (ruleNumber : ℤ) (egress : Bool) : Sdk.NetworkAclEntry :=
  { cidrBlock := some "0.0.0.0/0"
    egress := some egress
    protocol := some "-1"
    ruleAction := some .allow
    ruleNumber := some ruleNumber }

private def allowRule (ruleNumber : UInt16) (direction : Direction) : NaclRule :=
  ⟨ruleNumber, direction, "-1", none, "0.0.0.0/0", .allow⟩

private def aclOf (entries : List Sdk.NetworkAclEntry) : Sdk.NetworkAcl :=
  { networkAclId := some "acl-1", entries }

theorem numbersApart_persisted :
    Persisted aclGraph "acl-1" [allowRule 100 .ingress, allowRule 101 .egress] := by
  have mapped : Nacl.mapNetworkAclRules (aclOf [allowEntry 101 true, allowEntry 100 false]) =
      .ok [allowRule 100 .ingress, allowRule 101 .egress] := by decide
  refine (mapNetworkAclRules_persisted_iff mapped (by decide) (by decide) aclGraph_fresh).mpr ?_
  unfold NumbersApart
  decide

/-- The default network ACL numbers its two allow rules alike, and one of them is lost. -/
theorem defaultAcl_not_persisted :
    ¬ ∀ (acl : Sdk.NetworkAcl) (rules : List NaclRule) (graph : Neo4jGraph) (networkAclId : String),
      acl.networkAclId = some networkAclId → Nacl.mapNetworkAclRules acl = .ok rules →
        (rules.map fun rule => (rule.direction, rule.ruleNumber)).Nodup →
          ⟨.networkAcl, networkAclId⟩ ∈ graph.refs →
            (∀ r ∈ graph.relationships, r.relType = .hasRule → r.source ≠ ⟨.networkAcl, networkAclId⟩) →
              Persisted graph networkAclId rules := by
  intro persisted
  have both := persisted (aclOf [allowEntry 100 false, allowEntry 100 true])
    [allowRule 100 .ingress, allowRule 100 .egress] aclGraph "acl-1" rfl (by decide) (by decide) (by decide)
    aclGraph_fresh
  obtain ⟨graph', ran, readBack, read, same⟩ := both
  have node : ⟨.networkAcl, "acl-1"⟩ ∈ aclGraph.refs := by decide
  obtain ⟨_, ran', read'⟩ := naclRules_readBack [allowRule 100 .ingress, allowRule 100 .egress] node
    aclGraph_fresh
  rw [ran] at ran'
  cases ran'
  rw [read] at read'
  cases read'
  exact absurd same.length_eq (by decide)

end NetHound.Soundness
