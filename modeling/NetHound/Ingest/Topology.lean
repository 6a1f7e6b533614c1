import Std.Data.TreeMap.Lemmas
import NetHound.Graph.Model
import NetHound.Ingest.Nacl
import NetHound.Ingest.Sg

/-! # Mapping the raw collections into a graph batch

`ingest/map/topology.rs`. Nodes map one by one, and a resource whose node does not map is left out
with its error; edges are derived from what is left, each resource zipped with its record, and a
failing rule or group fails the batch. VPC and subnet nodes are stubs collected from the sightings of
their ids, first sighting first kept.
-/

namespace NetHound.Ingest.Topology

open Domain Graph

/-! ## Node mapping -/

/-- The mapped resources, their records side by side, and the errors of the rest. -/
structure MappedNodes (T R : Type) where
  items : List T
  records : List R
  errors : List MappingError
deriving DecidableEq

def mapNodes {T R : Type} (mapOne : T → String → Except MappingError R) (accountId : String) :
    List T → MappedNodes T R
  | [] => ⟨[], [], []⟩
  | item :: raw =>
      let rest := mapNodes mapOne accountId raw
      match mapOne item accountId with
      | .ok record => { rest with items := item :: rest.items, records := record :: rest.records }
      | .error error => { rest with errors := error :: rest.errors }

def mapEniNode (eni : Sdk.NetworkInterface) (accountId : String) : Except MappingError EniRecord := do
  let id ← requireStr "<unknown ENI>" "network_interface_id" eni.networkInterfaceId
  let vpcId ← requireStr id "vpc_id" eni.vpcId
  let subnetId ← requireStr id "subnet_id" eni.subnetId
  let privateIp ← requireStr id "private_ip_address" eni.privateIpAddress
  return { id, accountId, vpcId, subnetId, privateIp, description := eni.description }

def mapSecurityGroupNode (sg : Sdk.SecurityGroup) (accountId : String) :
    Except MappingError SecurityGroupRecord := do
  let id ← requireStr "<unknown security group>" "group_id" sg.groupId
  let vpcId ← requireStr id "vpc_id" sg.vpcId
  let name ← requireStr id "group_name" sg.groupName
  return { id, accountId, vpcId, name, description := sg.description }

def requireBool (resourceId field : String) (value : Option Bool) : Except MappingError Bool :=
  match value with
  | some value => .ok value
  | none => .error (.invalidField resourceId field absentReason)

def mapNetworkAclNode (acl : Sdk.NetworkAcl) (accountId : String) : Except MappingError NetworkAclRecord := do
  let id ← requireStr "<unknown network acl>" "network_acl_id" acl.networkAclId
  let vpcId ← requireStr id "vpc_id" acl.vpcId
  let isDefault ← requireBool id "is_default" acl.isDefault
  return { id, accountId, vpcId, isDefault }

def mapRouteTableNode (routeTable : Sdk.RouteTable) (accountId : String) :
    Except MappingError RouteTableRecord := do
  let id ← requireStr "<unknown route table>" "route_table_id" routeTable.routeTableId
  let vpcId ← requireStr id "vpc_id" routeTable.vpcId
  let isMain := routeTable.associations.any fun association => association.main == some true
  return { id, accountId, vpcId, isMain }

/-! ## Edges -/

def hasSgEdgesOf (pair : Sdk.NetworkInterface × EniRecord) : Except MappingError (List Edge) :=
  pair.1.groups.mapM fun group => do
    let securityGroupId ← requireStr pair.2.id "groups[].group_id" group.groupId
    return .hasSg { eniId := pair.2.id, securityGroupId }

def hasSgEdges (networkInterfaces : List Sdk.NetworkInterface) (enis : List EniRecord) :
    Except MappingError (List Edge) := do
  let nested ← (networkInterfaces.zip enis).mapM hasSgEdgesOf
  return nested.flatten

def inSubnetEdges (enis : List EniRecord) : List Edge :=
  enis.map fun eni => .inSubnet { eniId := eni.id, subnetId := eni.subnetId }

def protectedByEdges (networkAcls : List Sdk.NetworkAcl) (networkAclRecords : List NetworkAclRecord) :
    List Edge :=
  (networkAcls.zip networkAclRecords).flatMap fun (acl, record) =>
    acl.associations.filterMap fun association =>
      association.subnetId.map fun subnetId => .protectedBy { subnetId, networkAclId := record.id }

def usesRouteTableEdges (routeTables : List Sdk.RouteTable) (routeTableRecords : List RouteTableRecord) :
    List Edge :=
  (routeTables.zip routeTableRecords).flatMap fun (routeTable, record) =>
    routeTable.associations.filterMap fun association =>
      association.subnetId.map fun subnetId => .usesRouteTable { subnetId, routeTableId := record.id }

/-- The first side of the first peering of that id that is not the route table's own VPC. -/
def otherSide (rtVpcId pcxId : String) (peerings : List Sdk.VpcPeeringConnection) :
    Option Sdk.VpcPeeringConnectionVpcInfo := do
  let pcx ← peerings.find? fun pcx => pcx.vpcPeeringConnectionId == some pcxId
  ([pcx.requesterVpcInfo, pcx.accepterVpcInfo].filterMap id).find? fun info => info.vpcId != some rtVpcId

def resolveRouteTarget (accountId rtVpcId : String) (route : Sdk.Route)
    (peerings : List Sdk.VpcPeeringConnection) : Option String × Bool :=
  if route.gatewayId = some "local" then (some rtVpcId, true)
  else
    match route.vpcPeeringConnectionId with
    | none => (none, false)
    | some pcxId =>
        match otherSide rtVpcId pcxId peerings with
        | some info =>
            if info.ownerId = some accountId then
              match info.vpcId with
              | some vpcId => (some vpcId, true)
              | none => (none, false)
            else (none, false)
        | none => (none, false)

def routesToEdges (accountId : String) (routeTables : List Sdk.RouteTable)
    (routeTableRecords : List RouteTableRecord) (peerings : List Sdk.VpcPeeringConnection) : List Edge :=
  (routeTables.zip routeTableRecords).flatMap fun (routeTable, record) =>
    routeTable.routes.filterMap fun route =>
      (route.destinationCidrBlock.or route.destinationIpv6CidrBlock).map fun destinationCidr =>
        let (targetVpcId, resolved) := resolveRouteTarget accountId record.vpcId route peerings
        .routesTo { routeTableId := record.id, destinationCidr, targetVpcId, resolved }

def allowsEdge (securityGroupId : String) (rule : SgRule) : Edge :=
  match rule.direction with
  | .ingress => .allowsIngress securityGroupId rule
  | .egress => .allowsEgress securityGroupId rule

def allowsEdges (securityGroups : List Sdk.SecurityGroup) (securityGroupRecords : List SecurityGroupRecord)
    (accountId : String) : Except MappingError (List Edge) := do
  let nested ← (securityGroups.zip securityGroupRecords).mapM fun (sg, record) => do
    let rules ← Sg.mapSecurityGroupRules sg accountId
    return rules.map (allowsEdge record.id)
  return nested.flatten

def hasRuleEdges (networkAcls : List Sdk.NetworkAcl) (networkAclRecords : List NetworkAclRecord) :
    Except MappingError (List Edge) := do
  let nested ← (networkAcls.zip networkAclRecords).mapM fun (acl, record) => do
    let rules ← Nacl.mapNetworkAclRules acl
    return rules.map (.hasRule record.id)
  return nested.flatten

/-! ## Stubs -/

abbrev VpcStubs := Std.TreeMap String VpcRecord

def insertVpcStub (accountId : String) (vpcs : VpcStubs) (vpcId : String) : VpcStubs :=
  vpcs.insertIfNew vpcId { id := vpcId, accountId, cidrBlock := "" }

/-- The VPC ids the resources and the account's own peering sides name, in order. -/
def sightedVpcIds (accountId : String) (securityGroups : List Sdk.SecurityGroup)
    (networkAcls : List Sdk.NetworkAcl) (routeTables : List Sdk.RouteTable)
    (networkInterfaces : List Sdk.NetworkInterface) (peerings : List Sdk.VpcPeeringConnection) :
    List String :=
  (securityGroups.map (·.vpcId) ++ networkAcls.map (·.vpcId) ++ routeTables.map (·.vpcId) ++
      networkInterfaces.map (·.vpcId)).filterMap id ++
    peerings.flatMap fun peering =>
      ([peering.requesterVpcInfo, peering.accepterVpcInfo].filterMap id).filterMap fun info =>
        if info.ownerId = some accountId then info.vpcId else none

def collectVpcStubs (accountId : String) (securityGroups : List Sdk.SecurityGroup)
    (networkAcls : List Sdk.NetworkAcl) (routeTables : List Sdk.RouteTable)
    (networkInterfaces : List Sdk.NetworkInterface) (peerings : List Sdk.VpcPeeringConnection) : VpcStubs :=
  (sightedVpcIds accountId securityGroups networkAcls routeTables networkInterfaces peerings).foldl
    (insertVpcStub accountId) ∅

abbrev SubnetStubs := Std.TreeMap String SubnetRecord

/-- A sighting is a subnet with the VPC of the resource that names it. -/
def insertSubnetStub (accountId : String) (subnets : SubnetStubs) (sighting : String × String) :
    SubnetStubs :=
  subnets.insertIfNew sighting.1
    { id := sighting.1, accountId, vpcId := sighting.2, cidrBlock := "", availabilityZone := "" }

def sightedSubnets (networkInterfaces : List Sdk.NetworkInterface) (networkAcls : List Sdk.NetworkAcl)
    (routeTables : List Sdk.RouteTable) : List (String × String) :=
  networkInterfaces.filterMap (fun eni => do return (← eni.subnetId, ← eni.vpcId)) ++
    networkAcls.flatMap (fun acl =>
      match acl.vpcId with
      | none => []
      | some vpcId => acl.associations.filterMap fun association => association.subnetId.map (·, vpcId)) ++
    routeTables.flatMap fun routeTable =>
      match routeTable.vpcId with
      | none => []
      | some vpcId => routeTable.associations.filterMap fun association => association.subnetId.map (·, vpcId)

def collectSubnetStubs (accountId : String) (networkInterfaces : List Sdk.NetworkInterface)
    (networkAcls : List Sdk.NetworkAcl) (routeTables : List Sdk.RouteTable) : SubnetStubs :=
  (sightedSubnets networkInterfaces networkAcls routeTables).foldl (insertSubnetStub accountId) ∅

/-! ## The batch -/

/-- The collections with their nodes mapped. -/
structure MappedCollections where
  enis : MappedNodes Sdk.NetworkInterface EniRecord
  securityGroups : MappedNodes Sdk.SecurityGroup SecurityGroupRecord
  networkAcls : MappedNodes Sdk.NetworkAcl NetworkAclRecord
  routeTables : MappedNodes Sdk.RouteTable RouteTableRecord

def mapCollections (accountId : String) (collections : Sdk.Collections) : MappedCollections where
  enis := mapNodes mapEniNode accountId collections.networkInterfaces
  securityGroups := mapNodes mapSecurityGroupNode accountId collections.securityGroups
  networkAcls := mapNodes mapNetworkAclNode accountId collections.networkAcls
  routeTables := mapNodes mapRouteTableNode accountId collections.routeTables

/-- What the four `map_nodes` calls push onto `node_mapping_errors`, in order. -/
def MappedCollections.errors (mapped : MappedCollections) : List MappingError :=
  mapped.enis.errors ++ mapped.securityGroups.errors ++ mapped.networkAcls.errors ++
    mapped.routeTables.errors

/-- The edge list of the batch. -/
def MappedCollections.edges (mapped : MappedCollections) (accountId : String)
    (peerings : List Sdk.VpcPeeringConnection) : Except MappingError (List Edge) := do
  let hasSg ← hasSgEdges mapped.enis.items mapped.enis.records
  let topology := inSubnetEdges mapped.enis.records ++
    protectedByEdges mapped.networkAcls.items mapped.networkAcls.records ++
    usesRouteTableEdges mapped.routeTables.items mapped.routeTables.records ++
    routesToEdges accountId mapped.routeTables.items mapped.routeTables.records peerings
  let allows ← allowsEdges mapped.securityGroups.items mapped.securityGroups.records accountId
  let hasRule ← hasRuleEdges mapped.networkAcls.items mapped.networkAcls.records
  return hasSg ++ topology ++ allows ++ hasRule

/-- The node mapping errors, and the batch or the first edge or rule error. -/
def buildGraphBatch (accountId : String) (collections : Sdk.Collections) :
    List MappingError × Except MappingError GraphBatch :=
  let mapped := mapCollections accountId collections
  let vpcs := collectVpcStubs accountId mapped.securityGroups.items mapped.networkAcls.items
    mapped.routeTables.items mapped.enis.items collections.vpcPeeringConnections
  let subnets := collectSubnetStubs accountId mapped.enis.items mapped.networkAcls.items
    mapped.routeTables.items
  (mapped.errors, do
    let edges ← mapped.edges accountId collections.vpcPeeringConnections
    return {
      enis := mapped.enis.records
      securityGroups := mapped.securityGroups.records
      networkAcls := mapped.networkAcls.records
      subnets := subnets.toList.map Prod.snd
      vpcs := vpcs.toList.map Prod.snd
      routeTables := mapped.routeTables.records
      edges })

end NetHound.Ingest.Topology
