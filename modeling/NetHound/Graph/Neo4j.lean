import Mathlib.Data.Int.Notation
import NetHound.Cypher.PropertyGraph
import NetHound.Graph.Model

/-! # The Neo4j writer

`graph/neo4j.rs`. Every upsert query is data: the labels and row fields its `MATCH` names, the
relationship type, the properties of its `MERGE` pattern and those of its `SET`. A relationship's
properties carry the same names as the row fields they are set from, so both are a `Field`. A
parameter row lists its fields in source order; `BoltType::Null` is `none`.

An upsert runs its rows in chunks of `batchSize`, one statement a chunk, and stops at the first
chunk that fails. A failure keeps the graph it left behind.
-/

namespace NetHound.Graph

open Domain Cypher

inductive Label where
  | eni
  | securityGroup
  | networkAcl
  | subnet
  | vpc
  | routeTable
  | regulatedBoundary
deriving DecidableEq, Repr

inductive RelType where
  | hasSg
  | inSubnet
  | protectedBy
  | usesRouteTable
  | routesTo
  | allowsEgress
  | allowsIngress
  | hasRule
deriving DecidableEq, Repr

/-- Row fields and node and relationship properties. -/
inductive Field where
  | accountId
  | vpcId
  | subnetId
  | privateIp
  | description
  | name
  | isDefault
  | cidrBlock
  | availabilityZone
  | isMain
  | regime
  | eniId
  | securityGroupId
  | networkAclId
  | routeTableId
  | destinationCidr
  | targetVpcId
  | resolved
  | protocol
  | fromPort
  | toPort
  | targetKind
  | cidr
  | targetSecurityGroupId
  | ruleNumber
  | direction
  | action
deriving DecidableEq, Repr

/-- The field as rows, properties and errors spell it. -/
def Field.text : Field → String
  | .accountId => "account_id"
  | .vpcId => "vpc_id"
  | .subnetId => "subnet_id"
  | .privateIp => "private_ip"
  | .description => "description"
  | .name => "name"
  | .isDefault => "is_default"
  | .cidrBlock => "cidr_block"
  | .availabilityZone => "availability_zone"
  | .isMain => "is_main"
  | .regime => "regime"
  | .eniId => "eni_id"
  | .securityGroupId => "security_group_id"
  | .networkAclId => "network_acl_id"
  | .routeTableId => "route_table_id"
  | .destinationCidr => "destination_cidr"
  | .targetVpcId => "target_vpc_id"
  | .resolved => "resolved"
  | .protocol => "protocol"
  | .fromPort => "from_port"
  | .toPort => "to_port"
  | .targetKind => "target_kind"
  | .cidr => "cidr"
  | .targetSecurityGroupId => "target_security_group_id"
  | .ruleNumber => "rule_number"
  | .direction => "direction"
  | .action => "action"

/-- Every field, in declaration order. -/
def Field.all : List Field :=
  [.accountId, .vpcId, .subnetId, .privateIp, .description, .name, .isDefault, .cidrBlock,
    .availabilityZone, .isMain, .regime, .eniId, .securityGroupId, .networkAclId, .routeTableId,
    .destinationCidr, .targetVpcId, .resolved, .protocol, .fromPort, .toPort, .targetKind, .cidr,
    .targetSecurityGroupId, .ruleNumber, .direction, .action]

/-- The non-null values the driver carries. -/
inductive BoltType where
  | string (value : String)
  | integer (value : ℤ)
  | boolean (value : Bool)
deriving DecidableEq, Repr

abbrev Neo4jGraph := PropertyGraph Label RelType Field BoltType

abbrev Merge := RelMerge Label RelType Field BoltType

/-- One `UNWIND` parameter row. -/
abbrev Row := List (Field × Option BoltType)

/-- `row.field`; an absent entry reads as null. -/
def Row.value (row : Row) (field : Field) : Option BoltType := (row.lookup field).getD none

def stringProp (value : String) : Option BoltType := some (.string value)

def optStringProp (value : Option String) : Option BoltType := value.map .string

def boolProp (value : Bool) : Option BoltType := some (.boolean value)

/-! ## Node rows -/

structure NodeRow where
  id : String
  props : Row
deriving DecidableEq, Repr

def eniRow (record : EniRecord) : NodeRow :=
  ⟨record.id,
    [(.accountId, stringProp record.accountId), (.vpcId, stringProp record.vpcId),
      (.subnetId, stringProp record.subnetId), (.privateIp, stringProp record.privateIp),
      (.description, optStringProp record.description)]⟩

def securityGroupRow (record : SecurityGroupRecord) : NodeRow :=
  ⟨record.id,
    [(.accountId, stringProp record.accountId), (.vpcId, stringProp record.vpcId),
      (.name, stringProp record.name), (.description, optStringProp record.description)]⟩

def networkAclRow (record : NetworkAclRecord) : NodeRow :=
  ⟨record.id,
    [(.accountId, stringProp record.accountId), (.vpcId, stringProp record.vpcId),
      (.isDefault, boolProp record.isDefault)]⟩

def subnetRow (record : SubnetRecord) : NodeRow :=
  ⟨record.id,
    [(.accountId, stringProp record.accountId), (.vpcId, stringProp record.vpcId),
      (.cidrBlock, stringProp record.cidrBlock),
      (.availabilityZone, stringProp record.availabilityZone)]⟩

def vpcRow (record : VpcRecord) : NodeRow :=
  ⟨record.id,
    [(.accountId, stringProp record.accountId), (.cidrBlock, stringProp record.cidrBlock)]⟩

def routeTableRow (record : RouteTableRecord) : NodeRow :=
  ⟨record.id,
    [(.accountId, stringProp record.accountId), (.vpcId, stringProp record.vpcId),
      (.isMain, boolProp record.isMain)]⟩

def regulatedBoundaryRow (record : RegulatedBoundaryRecord) : NodeRow :=
  ⟨record.id,
    [(.accountId, stringProp record.accountId), (.name, stringProp record.name),
      (.regime, stringProp record.regime), (.description, optStringProp record.description)]⟩

/-- `node_upsert_query(label)` for one row. -/
def nodeUpsert (label : Label) (row : NodeRow) : NodeMerge Label Field BoltType :=
  ⟨⟨label, row.id⟩, row.props⟩

/-! ## Edge queries and rows -/

/-- An edge upsert query; without a target it merges a self-loop on the source. -/
structure EdgeQuery where
  relType : RelType
  source : Label × Field
  target : Option (Label × Field)
  mergeKeys : List Field
  setKeys : List Field
deriving DecidableEq, Repr

def hasSgUpsert : EdgeQuery :=
  ⟨.hasSg, (.eni, .eniId), some (.securityGroup, .securityGroupId), [], []⟩

def inSubnetUpsert : EdgeQuery :=
  ⟨.inSubnet, (.eni, .eniId), some (.subnet, .subnetId), [], []⟩

def protectedByUpsert : EdgeQuery :=
  ⟨.protectedBy, (.subnet, .subnetId), some (.networkAcl, .networkAclId), [], []⟩

def usesRouteTableUpsert : EdgeQuery :=
  ⟨.usesRouteTable, (.subnet, .subnetId), some (.routeTable, .routeTableId), [], []⟩

def routesToResolvedUpsert : EdgeQuery :=
  ⟨.routesTo, (.routeTable, .routeTableId), some (.vpc, .targetVpcId), [.destinationCidr], [.resolved]⟩

def routesToUnresolvedUpsert : EdgeQuery :=
  ⟨.routesTo, (.routeTable, .routeTableId), none, [.destinationCidr], [.resolved]⟩

def allowsEgressCidrUpsert : EdgeQuery :=
  ⟨.allowsEgress, (.securityGroup, .securityGroupId), none,
    [.protocol, .fromPort, .toPort, .targetKind, .cidr], [.resolved]⟩

def allowsEgressSgRefResolvedUpsert : EdgeQuery :=
  ⟨.allowsEgress, (.securityGroup, .securityGroupId), some (.securityGroup, .targetSecurityGroupId),
    [.protocol, .fromPort, .toPort, .targetKind, .targetSecurityGroupId], [.resolved]⟩

def allowsEgressSgRefUnresolvedUpsert : EdgeQuery :=
  ⟨.allowsEgress, (.securityGroup, .securityGroupId), none,
    [.protocol, .fromPort, .toPort, .targetKind, .targetSecurityGroupId], [.resolved]⟩

def allowsIngressCidrUpsert : EdgeQuery :=
  ⟨.allowsIngress, (.securityGroup, .securityGroupId), none,
    [.protocol, .fromPort, .toPort, .targetKind, .cidr], [.resolved]⟩

def allowsIngressSgRefResolvedUpsert : EdgeQuery :=
  ⟨.allowsIngress, (.securityGroup, .securityGroupId), some (.securityGroup, .targetSecurityGroupId),
    [.protocol, .fromPort, .toPort, .targetKind, .targetSecurityGroupId], [.resolved]⟩

def allowsIngressSgRefUnresolvedUpsert : EdgeQuery :=
  ⟨.allowsIngress, (.securityGroup, .securityGroupId), none,
    [.protocol, .fromPort, .toPort, .targetKind, .targetSecurityGroupId], [.resolved]⟩

def hasRuleUpsert : EdgeQuery :=
  ⟨.hasRule, (.networkAcl, .networkAclId), none, [.ruleNumber],
    [.direction, .protocol, .fromPort, .toPort, .cidr, .action]⟩

def hasSgRow (edge : HasSgEdge) : Row :=
  [(.eniId, stringProp edge.eniId), (.securityGroupId, stringProp edge.securityGroupId)]

def inSubnetRow (edge : InSubnetEdge) : Row :=
  [(.eniId, stringProp edge.eniId), (.subnetId, stringProp edge.subnetId)]

def protectedByRow (edge : ProtectedByEdge) : Row :=
  [(.subnetId, stringProp edge.subnetId), (.networkAclId, stringProp edge.networkAclId)]

def usesRouteTableRow (edge : UsesRouteTableEdge) : Row :=
  [(.subnetId, stringProp edge.subnetId), (.routeTableId, stringProp edge.routeTableId)]

def routesToResolvedRow (edge : RoutesToEdge) (targetVpcId : String) : Row :=
  [(.routeTableId, stringProp edge.routeTableId), (.destinationCidr, stringProp edge.destinationCidr),
    (.targetVpcId, stringProp targetVpcId), (.resolved, boolProp edge.resolved)]

def routesToUnresolvedRow (edge : RoutesToEdge) : Row :=
  [(.routeTableId, stringProp edge.routeTableId), (.destinationCidr, stringProp edge.destinationCidr),
    (.resolved, boolProp edge.resolved)]

def portProp (port : UInt16) : Option BoltType := some (.integer port.toNat)

def portRangeProps (portRange : Option PortRange) : Option BoltType × Option BoltType :=
  match portRange with
  | some range => (portProp range.fromPort, portProp range.toPort)
  | none => (none, none)

def sgRuleCidrRow (securityGroupId : String) (rule : SgRule) (cidr : String) : Row :=
  let (fromPort, toPort) := portRangeProps rule.portRange
  [(.securityGroupId, stringProp securityGroupId), (.protocol, stringProp rule.protocol),
    (.fromPort, fromPort), (.toPort, toPort), (.targetKind, stringProp "cidr"),
    (.cidr, stringProp cidr), (.resolved, boolProp rule.resolved)]

def sgRuleSgRefRow (securityGroupId : String) (rule : SgRule) (targetSecurityGroupId : String) : Row :=
  let (fromPort, toPort) := portRangeProps rule.portRange
  [(.securityGroupId, stringProp securityGroupId), (.protocol, stringProp rule.protocol),
    (.fromPort, fromPort), (.toPort, toPort), (.targetKind, stringProp "security_group_ref"),
    (.targetSecurityGroupId, stringProp targetSecurityGroupId), (.resolved, boolProp rule.resolved)]

/-- The three queries the rules of one direction go to. -/
structure SgRuleRows where
  cidrRows : List Row
  sgRefResolvedRows : List Row
  sgRefUnresolvedRows : List Row
deriving DecidableEq, Repr

/-- The inner loop's match on the rule's target, pushing one row. -/
def SgRuleRows.push (rows : SgRuleRows) (securityGroupId : String) (rule : SgRule) : SgRuleRows :=
  match rule.target with
  | .cidr cidr => { rows with cidrRows := rows.cidrRows ++ [sgRuleCidrRow securityGroupId rule cidr] }
  | .securityGroupRef refId =>
      let row := sgRuleSgRefRow securityGroupId rule refId
      if rule.resolved then { rows with sgRefResolvedRows := rows.sgRefResolvedRows ++ [row] }
      else { rows with sgRefUnresolvedRows := rows.sgRefUnresolvedRows ++ [row] }

def splitSgRuleRows (batches : List SgRuleBatch) : SgRuleRows :=
  batches.foldl
    (fun rows batch => batch.rules.foldl (fun rows rule => rows.push batch.securityGroupId rule) rows)
    ⟨[], [], []⟩

def directionName : Direction → String
  | .ingress => "ingress"
  | .egress => "egress"

def actionName : Action → String
  | .allow => "allow"
  | .deny => "deny"

def naclRuleRow (networkAclId : String) (rule : NaclRule) : Row :=
  let (fromPort, toPort) := portRangeProps rule.portRange
  [(.networkAclId, stringProp networkAclId), (.ruleNumber, portProp rule.ruleNumber),
    (.direction, stringProp (directionName rule.direction)), (.protocol, stringProp rule.protocol),
    (.fromPort, fromPort), (.toPort, toPort), (.cidr, stringProp rule.cidr),
    (.action, stringProp (actionName rule.action))]

/-! ## Running the upserts -/

/-- The sources of a `GraphWriteError::Write` the writer can meet. -/
inductive GraphWriteError where
  | nullMergeProperty (edgeType : RelType) (field : Field)
  | unresolvedEndpoint (edgeType : RelType) (missing total : ℕ)
  | countOverflow (edgeType : RelType) (merged total : ℕ)
  | inconsistentRoute (edge : RoutesToEdge)
deriving DecidableEq, Repr

/-- A failed write and the graph it left behind. -/
structure WriteFailure where
  error : GraphWriteError
  graph : Neo4jGraph

abbrev Write := Neo4jGraph → Except WriteFailure Neo4jGraph

def batchSize : ℕ := 1000

/-- `slice::chunks`, structural in the number of chunks still allowed. -/
def chunksUpTo {α : Type} (size : ℕ) : ℕ → List α → List (List α)
  | 0, _ => []
  | fuel + 1, rows => if rows.isEmpty then [] else rows.take size :: chunksUpTo size fuel (rows.drop size)

def chunkRows {α : Type} (rows : List α) (size : ℕ) : List (List α) := chunksUpTo size rows.length rows

def runNodeUpsert (label : Label) (rows : List NodeRow) : Write := fun graph =>
  .ok ((chunkRows rows batchSize).foldl
    (fun graph chunk => graph.mergeNodes (chunk.map (nodeUpsert label))) graph)

/-- The node reference a row field names. -/
def Row.ref (row : Row) (place : Label × Field) : Option (NodeRef Label) :=
  match row.value place.2 with
  | some (.string id) => some ⟨place.1, id⟩
  | _ => none

def EdgeQuery.targetRef (query : EdgeQuery) (row : Row) (source : NodeRef Label) :
    Option (NodeRef Label) :=
  match query.target with
  | some place => row.ref place
  | none => some source

/-- What a query asks of one row; a row whose ids are not strings matches no node. -/
def EdgeQuery.merge (query : EdgeQuery) (row : Row) : Option Merge := do
  let source ← row.ref query.source
  let target ← query.targetRef row source
  return ⟨query.relType, source, target, query.mergeKeys, query.setKeys, row.value⟩

/-- One chunk of an edge upsert and its endpoint check. -/
def runEdgeChunk (query : EdgeQuery) (chunk : List Row) : Write := fun graph =>
  match graph.unwind (chunk.filterMap query.merge) with
  | .error field => .error ⟨.nullMergeProperty query.relType field, graph⟩
  | .ok (graph, merged) =>
      if merged ≠ chunk.length then
        if chunk.length < merged then .error ⟨.countOverflow query.relType merged chunk.length, graph⟩
        else .error ⟨.unresolvedEndpoint query.relType (chunk.length - merged) chunk.length, graph⟩
      else .ok graph

def runEdgeChunks (query : EdgeQuery) : List (List Row) → Write
  | [], graph => .ok graph
  | chunk :: chunks, graph => do
      let graph ← runEdgeChunk query chunk graph
      runEdgeChunks query chunks graph

def runEdgeUpsert (query : EdgeQuery) (rows : List Row) : Write :=
  runEdgeChunks query (chunkRows rows batchSize)

def upsertEnis (enis : List EniRecord) : Write := runNodeUpsert .eni (enis.map eniRow)

def upsertSecurityGroups (securityGroups : List SecurityGroupRecord) : Write :=
  runNodeUpsert .securityGroup (securityGroups.map securityGroupRow)

def upsertNetworkAcls (networkAcls : List NetworkAclRecord) : Write :=
  runNodeUpsert .networkAcl (networkAcls.map networkAclRow)

def upsertSubnets (subnets : List SubnetRecord) : Write := runNodeUpsert .subnet (subnets.map subnetRow)

def upsertVpcs (vpcs : List VpcRecord) : Write := runNodeUpsert .vpc (vpcs.map vpcRow)

def upsertRouteTables (routeTables : List RouteTableRecord) : Write :=
  runNodeUpsert .routeTable (routeTables.map routeTableRow)

def upsertRegulatedBoundaries (boundaries : List RegulatedBoundaryRecord) : Write :=
  runNodeUpsert .regulatedBoundary (boundaries.map regulatedBoundaryRow)

def upsertHasSgEdges (edges : List HasSgEdge) : Write := runEdgeUpsert hasSgUpsert (edges.map hasSgRow)

def upsertInSubnetEdges (edges : List InSubnetEdge) : Write :=
  runEdgeUpsert inSubnetUpsert (edges.map inSubnetRow)

def upsertProtectedByEdges (edges : List ProtectedByEdge) : Write :=
  runEdgeUpsert protectedByUpsert (edges.map protectedByRow)

def upsertUsesRouteTableEdges (edges : List UsesRouteTableEdge) : Write :=
  runEdgeUpsert usesRouteTableUpsert (edges.map usesRouteTableRow)

/-- The routes by shape, and the first edge whose target and flag disagree. -/
structure RouteRows where
  resolvedRows : List Row
  unresolvedRows : List Row
  inconsistency : Option RoutesToEdge
deriving DecidableEq, Repr

def RouteRows.push (rows : RouteRows) (edge : RoutesToEdge) : RouteRows :=
  match edge.targetVpcId, edge.resolved with
  | some targetVpcId, true =>
      { rows with resolvedRows := rows.resolvedRows ++ [routesToResolvedRow edge targetVpcId] }
  | none, false => { rows with unresolvedRows := rows.unresolvedRows ++ [routesToUnresolvedRow edge] }
  | _, _ => { rows with inconsistency := rows.inconsistency.or (some edge) }

def splitRouteRows (edges : List RoutesToEdge) : RouteRows := edges.foldl RouteRows.push ⟨[], [], none⟩

def upsertRoutesToEdges (edges : List RoutesToEdge) : Write := fun graph =>
  let rows := splitRouteRows edges
  match rows.inconsistency with
  | some edge => .error ⟨.inconsistentRoute edge, graph⟩
  | none => do
      let graph ← runEdgeUpsert routesToResolvedUpsert rows.resolvedRows graph
      runEdgeUpsert routesToUnresolvedUpsert rows.unresolvedRows graph

def upsertAllowsEgressRules (batches : List SgRuleBatch) : Write := fun graph => do
  let rows := splitSgRuleRows batches
  let graph ← runEdgeUpsert allowsEgressCidrUpsert rows.cidrRows graph
  let graph ← runEdgeUpsert allowsEgressSgRefResolvedUpsert rows.sgRefResolvedRows graph
  runEdgeUpsert allowsEgressSgRefUnresolvedUpsert rows.sgRefUnresolvedRows graph

def upsertAllowsIngressRules (batches : List SgRuleBatch) : Write := fun graph => do
  let rows := splitSgRuleRows batches
  let graph ← runEdgeUpsert allowsIngressCidrUpsert rows.cidrRows graph
  let graph ← runEdgeUpsert allowsIngressSgRefResolvedUpsert rows.sgRefResolvedRows graph
  runEdgeUpsert allowsIngressSgRefUnresolvedUpsert rows.sgRefUnresolvedRows graph

def upsertHasRules (batches : List NaclRuleBatch) : Write :=
  runEdgeUpsert hasRuleUpsert
    (batches.flatMap fun batch => batch.rules.map (naclRuleRow batch.networkAclId))

/-! ## Grouping rule edges -/

/-- `group_rule_edges`'s three maps. -/
structure RuleEdgeGroups where
  egress : Std.HashMap String (List SgRule)
  ingress : Std.HashMap String (List SgRule)
  nacl : Std.HashMap String (List NaclRule)

def RuleEdgeGroups.push (groups : RuleEdgeGroups) : Edge → RuleEdgeGroups
  | .allowsEgress securityGroupId rule =>
      { groups with
        egress := groups.egress.alter securityGroupId fun rules => some (rules.getD [] ++ [rule]) }
  | .allowsIngress securityGroupId rule =>
      { groups with
        ingress := groups.ingress.alter securityGroupId fun rules => some (rules.getD [] ++ [rule]) }
  | .hasRule networkAclId rule =>
      { groups with nacl := groups.nacl.alter networkAclId fun rules => some (rules.getD [] ++ [rule]) }
  | _ => groups

def groupRuleEdges (edges : List Edge) : RuleEdgeGroups := edges.foldl RuleEdgeGroups.push ⟨∅, ∅, ∅⟩

end NetHound.Graph
