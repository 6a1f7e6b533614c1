import NetHound.Evaluate.ReadBack
import NetHound.Graph.Statements
import NetHound.Ingest.Topology

/-! # Rule edges decode to the rules that were encoded

A rule's edge is sent as one row of one query, and whatever relationship that row's merge leaves
reads back as the rule. A security group rule's direction is not stored: the relationship's type,
chosen when the edge is built, supplies it on the way back.
-/

namespace NetHound.Soundness

open Domain Graph Ingest Evaluate Cypher

/-- The statements an edge that carries a rule is sent in. -/
def ruleStatements : Edge → List Statement
  | .allowsIngress securityGroupId rule => sgRuleStatements .ingress [⟨securityGroupId, [rule]⟩]
  | .allowsEgress securityGroupId rule => sgRuleStatements .egress [⟨securityGroupId, [rule]⟩]
  | .hasRule networkAclId rule => [(hasRuleUpsert, [naclRuleRow networkAclId rule])]
  | _ => []

/-- The rows of some statements, each with its query. -/
def sentRows (statements : List Statement) : List (EdgeQuery × Row) :=
  statements.flatMap fun statement => statement.2.map (statement.1, ·)

/-- The direction the relationships of a type are read under. -/
def readDirection : RelType → Option Direction
  | .allowsEgress => some .egress
  | .allowsIngress => some .ingress
  | _ => none

/-- An edge is sent as one row, and every relationship its merge can leave satisfies `read`. -/
def SentOnce (edge : Edge) (read : RelType → Props → Prop) : Prop :=
  ∃ query row c, sentRows (ruleStatements edge) = [(query, row)] ∧ query.merge row = some c ∧
    ∀ props, c.Leaves props → read c.relType props

/-- The relationship decodes to the security group rule, under the direction of its type. -/
def ReadsSgRule (rule : SgRule) (relType : RelType) (props : Props) : Prop :=
  ∃ direction, readDirection relType = some direction ∧ sgRuleFromProps props direction = .ok rule

def ReadsNaclRule (rule : NaclRule) (relType : RelType) (props : Props) : Prop :=
  relType = .hasRule ∧ naclRuleFromProps props = .ok rule

/-- The query and the row one rule of a direction is sent in. -/
def sgRuleQuery (direction : Direction) (rule : SgRule) : EdgeQuery :=
  match direction, rule.target, rule.resolved with
  | .egress, .cidr _, _ => allowsEgressCidrUpsert
  | .egress, .securityGroupRef _, true => allowsEgressSgRefResolvedUpsert
  | .egress, .securityGroupRef _, false => allowsEgressSgRefUnresolvedUpsert
  | .ingress, .cidr _, _ => allowsIngressCidrUpsert
  | .ingress, .securityGroupRef _, true => allowsIngressSgRefResolvedUpsert
  | .ingress, .securityGroupRef _, false => allowsIngressSgRefUnresolvedUpsert

def sgRuleRow (securityGroupId : String) (rule : SgRule) : Row :=
  match rule.target with
  | .cidr cidr => sgRuleCidrRow securityGroupId rule cidr
  | .securityGroupRef refId => sgRuleSgRefRow securityGroupId rule refId

private theorem sentRows_sgRuleStatements (direction : Direction) (owner : String) (rule : SgRule) :
    sentRows (sgRuleStatements direction [⟨owner, [rule]⟩]) =
      [(sgRuleQuery direction rule, sgRuleRow owner rule)] := by
  rcases target : rule.target with cidr | refId
  · cases direction <;>
      simp [sentRows, sgRuleStatements, splitSgRuleRows, SgRuleRows.push, sgRuleQuery, sgRuleRow, target]
  · cases direction <;> rcases resolved : rule.resolved with _ | _ <;>
      simp [sentRows, sgRuleStatements, splitSgRuleRows, SgRuleRows.push, sgRuleQuery, sgRuleRow, target,
        resolved]

/-- The properties a query's statement writes. -/
private def writtenFields (query : EdgeQuery) : List Field := query.mergeKeys ++ query.setKeys

private theorem sgRuleQuery_merge (direction : Direction) (owner : String) (rule : SgRule) :
    ∃ c, (sgRuleQuery direction rule).merge (sgRuleRow owner rule) = some c := by
  rcases target : rule.target with cidr | refId
  · simp only [sgRuleQuery, sgRuleRow, target]
    cases direction <;> exact ⟨_, rfl⟩
  · simp only [sgRuleQuery, sgRuleRow, target]
    cases direction <;> cases rule.resolved <;> exact ⟨_, rfl⟩

private theorem readDirection_sgRuleQuery (direction : Direction) (rule : SgRule) :
    readDirection (sgRuleQuery direction rule).relType = some direction := by
  unfold sgRuleQuery
  cases direction <;> cases rule.target <;> cases rule.resolved <;> rfl

private theorem stored_of_leaves {query : EdgeQuery} {row : Row} {c : Merge} {props : Props}
    (merged : query.merge row = some c) (leaves : c.Leaves props) :
    ∀ key ∈ writtenFields query, props key = row.value key := by
  obtain ⟨_, mergeKeys, setKeys, values⟩ := EdgeQuery.merge_shape merged
  intro key member
  rw [writtenFields, ← mergeKeys, ← setKeys] at member
  rw [← values]
  exact leaves.props_eq member

private theorem decodes_sgRuleRow {direction : Direction} {owner : String} {rule : SgRule} {props : Props}
    (stored : ∀ key ∈ writtenFields (sgRuleQuery direction rule),
      props key = (sgRuleRow owner rule).value key) :
    sgRuleFromProps props rule.direction = .ok rule := by
  rcases target : rule.target with cidr | refId
  · have fields : writtenFields (sgRuleQuery direction rule) =
        [.protocol, .fromPort, .toPort, .targetKind, .cidr, .resolved] := by
      simp only [sgRuleQuery, target]
      cases direction <;> rfl
    simp only [fields, sgRuleRow, target] at stored
    exact sgRuleFromProps_of_cidrRow target stored
  · have fields : writtenFields (sgRuleQuery direction rule) =
        [.protocol, .fromPort, .toPort, .targetKind, .targetSecurityGroupId, .resolved] := by
      simp only [sgRuleQuery, target]
      cases direction <;> cases rule.resolved <;> rfl
    simp only [fields, sgRuleRow, target] at stored
    exact sgRuleFromProps_of_sgRefRow target stored

/-- A security group rule's edge reads back as the rule. -/
theorem sentOnce_allowsEdge (owner : String) (rule : SgRule) :
    SentOnce (Topology.allowsEdge owner rule) (ReadsSgRule rule) := by
  have statements : ruleStatements (Topology.allowsEdge owner rule) =
      sgRuleStatements rule.direction [⟨owner, [rule]⟩] := by
    rw [Topology.allowsEdge]
    cases rule.direction <;> rfl
  obtain ⟨c, merged⟩ := sgRuleQuery_merge rule.direction owner rule
  refine ⟨_, _, c, ?_, merged, fun props leaves => ⟨rule.direction, ?_, ?_⟩⟩
  · rw [statements]
    exact sentRows_sgRuleStatements rule.direction owner rule
  · rw [(EdgeQuery.merge_shape merged).1]
    exact readDirection_sgRuleQuery rule.direction rule
  · exact decodes_sgRuleRow (stored_of_leaves merged leaves)

/-- A network ACL rule's edge reads back as the rule. -/
theorem sentOnce_hasRule (networkAclId : String) (rule : NaclRule) :
    SentOnce (.hasRule networkAclId rule) (ReadsNaclRule rule) := by
  have merged := hasRuleUpsert_merge networkAclId rule
  refine ⟨_, _, _, rfl, merged, fun props leaves => ⟨rfl, ?_⟩⟩
  exact naclRuleFromProps_of_row (stored_of_leaves merged leaves)

/-- Every rule edge decodes to the rule it was built from. -/
theorem ruleEdges_decode (securityGroupId networkAclId : String) (sgRule : SgRule) (naclRule : NaclRule) :
    SentOnce (Topology.allowsEdge securityGroupId sgRule) (ReadsSgRule sgRule) ∧
      SentOnce (.hasRule networkAclId naclRule) (ReadsNaclRule naclRule) :=
  ⟨sentOnce_allowsEdge securityGroupId sgRule, sentOnce_hasRule networkAclId naclRule⟩

end NetHound.Soundness
