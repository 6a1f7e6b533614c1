import Mathlib.Data.List.Dedup
import Mathlib.Data.List.Sort
import NetHound.Evaluate.Candidates
import NetHound.Evaluate.Nacl
import NetHound.Graph.Neo4j
import NetHound.ToMathlib.ExceptRun

/-! # Reading endpoints off the graph

The graph half of `evaluate/candidates.rs`: the two queries, row decoding and `assemble_candidates`.
`ENI_QUERY` groups by interface and route table, so an interface yields one row for each route table
its subnets use, or one without a route table. Collected relationships come in creation order, which
stands for the order Neo4j leaves open.
-/

namespace NetHound.Evaluate

open Domain Graph Cypher

inductive CandidateAssemblyError where
  | deserialize
  | malformedRow (field : String)
deriving DecidableEq, Repr

abbrev Props := Field → Option BoltType

/-! ## Decoding relationship properties -/

def boltString (props : Props) (field : Field) : Except CandidateAssemblyError String :=
  match props field with
  | some (.string value) => .ok value
  | _ => .error (.malformedRow field.text)

def boltI64 (props : Props) (field : Field) : Except CandidateAssemblyError ℤ :=
  match props field with
  | some (.integer value) => .ok value
  | _ => .error (.malformedRow field.text)

def boltOptU16 (props : Props) (field : Field) : Option UInt16 :=
  match props field with
  | some (.integer value) => u16TryFrom value
  | _ => none

/-- The port range both rule decoders rebuild. -/
def portRangeFromProps (props : Props) : Except CandidateAssemblyError (Option PortRange) :=
  match boltOptU16 props .fromPort, boltOptU16 props .toPort with
  | some fromPort, some toPort =>
      match PortRange.new fromPort toPort with
      | .ok range => .ok (some range)
      | .error _ => .error (.malformedRow "port_range")
  | _, _ => .ok none

def targetFromProps (props : Props) : Except CandidateAssemblyError RuleTarget := do
  let targetKind ← boltString props .targetKind
  match targetKind with
  | "cidr" => return .cidr (← boltString props .cidr)
  | "security_group_ref" => return .securityGroupRef (← boltString props .targetSecurityGroupId)
  | _ => .error (.malformedRow "target_kind")

def sgRuleFromProps (props : Props) (direction : Direction) : Except CandidateAssemblyError SgRule := do
  let protocol ← boltString props .protocol
  let portRange ← portRangeFromProps props
  let target ← targetFromProps props
  return { direction, protocol, portRange, target, resolved := props .resolved = some (.boolean true) }

def directionFromProps (props : Props) : Except CandidateAssemblyError Direction := do
  match ← boltString props .direction with
  | "ingress" => return .ingress
  | "egress" => return .egress
  | _ => .error (.malformedRow "direction")

def actionFromProps (props : Props) : Except CandidateAssemblyError Action := do
  match ← boltString props .action with
  | "allow" => return .allow
  | "deny" => return .deny
  | _ => .error (.malformedRow "action")

def ruleNumberFromProps (props : Props) : Except CandidateAssemblyError UInt16 := do
  match u16TryFrom (← boltI64 props .ruleNumber) with
  | some ruleNumber => return ruleNumber
  | none => .error (.malformedRow "rule_number")

def naclRuleFromProps (props : Props) : Except CandidateAssemblyError NaclRule := do
  let ruleNumber ← ruleNumberFromProps props
  let direction ← directionFromProps props
  let protocol ← boltString props .protocol
  let portRange ← portRangeFromProps props
  let cidr ← boltString props .cidr
  let action ← actionFromProps props
  return { ruleNumber, direction, protocol, portRange, cidr, action }

def Props.isEmpty (props : Props) : Bool := Field.all.all fun field => (props field).isNone

def sgRulesFromRow (raw : List Props) (direction : Direction) :
    Except CandidateAssemblyError (List SgRule) :=
  (raw.filter fun props => !Props.isEmpty props).mapM fun props => sgRuleFromProps props direction

def naclRulesFromRow (raw : List Props) : Except CandidateAssemblyError (List NaclRule) :=
  (raw.filter fun props => !Props.isEmpty props).mapM naclRuleFromProps

/-! ## The two queries -/

/-- The ids of the nodes of a label that relationships of a type lead to from a node. -/
def targets (graph : Neo4jGraph) (relType : RelType) (source : NodeRef Label) (label : Label) :
    List String :=
  graph.relationships.filterMap fun r =>
    if r.relType = relType ∧ r.source = source ∧ r.target.label = label then some r.target.id else none

/-- The groups of an interface; a group without rules still counts. -/
def securityGroupsOf (graph : Neo4jGraph) (eniId : String) : List String :=
  (targets graph .hasSg ⟨.eni, eniId⟩ .securityGroup).dedup

def subnetsOf (graph : Neo4jGraph) (eniId : String) : List String :=
  targets graph .inSubnet ⟨.eni, eniId⟩ .subnet

/-- `OPTIONAL MATCH` of a subnet's route tables. -/
def routeTablesOf (graph : Neo4jGraph) (subnetId : String) : List (Option String) :=
  match targets graph .usesRouteTable ⟨.subnet, subnetId⟩ .routeTable with
  | [] => [none]
  | routeTableIds => routeTableIds.map some

/-- The route tables an interface's rows are grouped by. -/
def groupsOf (graph : Neo4jGraph) (eniId : String) : List (Option String) :=
  match subnetsOf graph eniId with
  | [] => [none]
  | subnetIds => (subnetIds.flatMap (routeTablesOf graph)).dedup

/-- The network ACLs of the subnets behind one row. -/
def naclsOf (graph : Neo4jGraph) (eniId : String) (routeTableId : Option String) : List String :=
  ((subnetsOf graph eniId).filter fun subnetId => routeTableId ∈ routeTablesOf graph subnetId).flatMap
    fun subnetId => targets graph .protectedBy ⟨.subnet, subnetId⟩ .networkAcl

def sgRulesOf (graph : Neo4jGraph) (relType : RelType) (securityGroupIds : List String) : List Props :=
  (graph.relationships.filter fun r =>
    r.relType = relType ∧ r.source.label = .securityGroup ∧ r.source.id ∈ securityGroupIds).map
      Relationship.props

def naclRulesOf (graph : Neo4jGraph) (networkAclIds : List String) : List Props :=
  (graph.relationships.filter fun r =>
    r.relType = .hasRule ∧ r.source.label = .networkAcl ∧ r.target = r.source ∧
      r.source.id ∈ networkAclIds).map Relationship.props

structure EniRow where
  eniId : String
  vpcId : Option BoltType
  subnetId : Option BoltType
  privateIp : Option BoltType
  routeTableId : Option String
  securityGroupIds : List String
  egressRules : List Props
  ingressRules : List Props
  naclRules : List Props

/-- One row of `ENI_QUERY`. -/
def eniRow (graph : Neo4jGraph) (node : Node Label Field BoltType) (routeTableId : Option String) :
    EniRow :=
  let securityGroupIds := securityGroupsOf graph node.ref.id
  { eniId := node.ref.id
    vpcId := node.props .vpcId
    subnetId := node.props .subnetId
    privateIp := node.props .privateIp
    routeTableId
    securityGroupIds
    egressRules := sgRulesOf graph .allowsEgress securityGroupIds
    ingressRules := sgRulesOf graph .allowsIngress securityGroupIds
    naclRules := naclRulesOf graph (naclsOf graph node.ref.id routeTableId) }

/-- `ENI_QUERY`. -/
def eniRows (graph : Neo4jGraph) : List EniRow :=
  (graph.nodes.filter fun node => node.ref.label = .eni).flatMap fun node =>
    (groupsOf graph node.ref.id).map (eniRow graph node)

/-- The VPCs a route table has a resolved route to. -/
def resolvedTargets (graph : Neo4jGraph) (routeTableId : String) : List String :=
  (graph.relationships.filterMap fun r =>
    if r.relType = .routesTo ∧ r.source = ⟨.routeTable, routeTableId⟩ ∧ r.target.label = .vpc ∧
        r.props .resolved = some (.boolean true) then some r.target.id
    else none).dedup

/-- `ROUTE_TABLE_TARGETS_QUERY`; a route table with no resolved route yields no row. -/
def fetchRouteTableTargets (graph : Neo4jGraph) : RouteTargets := fun routeTableId =>
  match resolvedTargets graph routeTableId with
  | [] => none
  | targetVpcIds => some targetVpcIds

/-! ## Rows to endpoints -/

def getString (value : Option BoltType) : Except CandidateAssemblyError String :=
  match value with
  | some (.string value) => .ok value
  | _ => .error .deserialize

def eniFromRow (row : EniRow) : Except CandidateAssemblyError EniNode := do
  let egressRules ← sgRulesFromRow row.egressRules .egress
  let ingressRules ← sgRulesFromRow row.ingressRules .ingress
  let naclRules ← naclRulesFromRow row.naclRules
  let vpcId ← getString row.vpcId
  let subnetId ← getString row.subnetId
  let privateIp ← getString row.privateIp
  return {
    id := row.eniId
    vpcId
    subnetId
    privateIp
    securityGroupIds := row.securityGroupIds
    egressRules
    ingressRules
    naclRules := naclRules.insertionSort (fun a b => Nacl.sortKey a ≤ Nacl.sortKey b)
    routeTableId := row.routeTableId }

/-- What a row holds that is read as an endpoint. -/
structure ReadAs (row : EniRow) (eni : EniNode) : Prop where
  id : eni.id = row.eniId
  vpcId : getString row.vpcId = .ok eni.vpcId
  subnetId : getString row.subnetId = .ok eni.subnetId
  privateIp : getString row.privateIp = .ok eni.privateIp
  securityGroupIds : eni.securityGroupIds = row.securityGroupIds
  egressRules : sgRulesFromRow row.egressRules .egress = .ok eni.egressRules
  ingressRules : sgRulesFromRow row.ingressRules .ingress = .ok eni.ingressRules
  naclRules : ∃ naclRules, naclRulesFromRow row.naclRules = .ok naclRules ∧
    eni.naclRules = naclRules.insertionSort fun a b => Nacl.sortKey a ≤ Nacl.sortKey b
  routeTableId : eni.routeTableId = row.routeTableId

theorem eniFromRow_eq_ok_iff {row : EniRow} {eni : EniNode} : eniFromRow row = .ok eni ↔ ReadAs row eni := by
  constructor
  · intro read
    obtain ⟨egressRules, egressRead, run⟩ := Except.bind_eq_ok_iff.mp read
    obtain ⟨ingressRules, ingressRead, run⟩ := Except.bind_eq_ok_iff.mp run
    obtain ⟨naclRules, naclRead, run⟩ := Except.bind_eq_ok_iff.mp run
    obtain ⟨vpcId, vpcRead, run⟩ := Except.bind_eq_ok_iff.mp run
    obtain ⟨subnetId, subnetRead, run⟩ := Except.bind_eq_ok_iff.mp run
    obtain ⟨privateIp, ipRead, done⟩ := Except.bind_eq_ok_iff.mp run
    cases done
    exact ⟨rfl, vpcRead, subnetRead, ipRead, rfl, egressRead, ingressRead, ⟨naclRules, naclRead, rfl⟩, rfl⟩
  · rintro ⟨id, vpcRead, subnetRead, ipRead, groups, egressRead, ingressRead, ⟨naclRules, naclRead, sorted⟩, rt⟩
    rw [eniFromRow, egressRead, ingressRead, naclRead, vpcRead, subnetRead, ipRead]
    rcases eni with ⟨id', vpcId, subnetId, privateIp, groups', egress, ingress, nacl, routeTableId⟩
    cases id
    cases groups
    cases sorted
    cases rt
    rfl

def fetchEnis (graph : Neo4jGraph) : Except CandidateAssemblyError (List EniNode) :=
  (eniRows graph).mapM eniFromRow

def assembleCandidates (graph : Neo4jGraph) (boundaryId : String) (selectors : BoundarySelectors) :
    Except CandidateAssemblyError (List PathCandidate) := do
  let enis ← fetchEnis graph
  return pairCandidates boundaryId selectors (fetchRouteTableTargets graph) enis

end NetHound.Evaluate
