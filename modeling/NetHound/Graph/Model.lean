import NetHound.Domain.Rule

/-! # Graph records, edges and batches

The node and edge records of `ports.rs` and the batch of `graph/model.rs`. An edge is keyed to one
payload type for each variant; the rule edges carry their owner's id beside the rule.
-/

namespace NetHound.Graph

open Domain

structure EniRecord where
  id : String
  accountId : String
  vpcId : String
  subnetId : String
  privateIp : String
  description : Option String
deriving DecidableEq, Repr

structure SecurityGroupRecord where
  id : String
  accountId : String
  vpcId : String
  name : String
  description : Option String
deriving DecidableEq, Repr

structure NetworkAclRecord where
  id : String
  accountId : String
  vpcId : String
  isDefault : Bool
deriving DecidableEq, Repr

structure SubnetRecord where
  id : String
  accountId : String
  vpcId : String
  cidrBlock : String
  availabilityZone : String
deriving DecidableEq, Repr

structure VpcRecord where
  id : String
  accountId : String
  cidrBlock : String
deriving DecidableEq, Repr

structure RouteTableRecord where
  id : String
  accountId : String
  vpcId : String
  isMain : Bool
deriving DecidableEq, Repr

structure RegulatedBoundaryRecord where
  id : String
  accountId : String
  name : String
  regime : String
  description : Option String
deriving DecidableEq, Repr

structure HasSgEdge where
  eniId : String
  securityGroupId : String
deriving DecidableEq, Repr

structure InSubnetEdge where
  eniId : String
  subnetId : String
deriving DecidableEq, Repr

structure ProtectedByEdge where
  subnetId : String
  networkAclId : String
deriving DecidableEq, Repr

structure UsesRouteTableEdge where
  subnetId : String
  routeTableId : String
deriving DecidableEq, Repr

/-- Documented as keyed on `(route_table_id, destination_cidr)`. -/
structure RoutesToEdge where
  routeTableId : String
  destinationCidr : String
  targetVpcId : Option String
  resolved : Bool
deriving DecidableEq, Repr

structure SgRuleBatch where
  securityGroupId : String
  rules : List SgRule
deriving DecidableEq, Repr

structure NaclRuleBatch where
  networkAclId : String
  rules : List NaclRule
deriving DecidableEq, Repr

inductive Edge where
  | hasSg (edge : HasSgEdge)
  | inSubnet (edge : InSubnetEdge)
  | protectedBy (edge : ProtectedByEdge)
  | usesRouteTable (edge : UsesRouteTableEdge)
  | routesTo (edge : RoutesToEdge)
  | allowsIngress (securityGroupId : String) (rule : SgRule)
  | allowsEgress (securityGroupId : String) (rule : SgRule)
  | hasRule (networkAclId : String) (rule : NaclRule)
deriving DecidableEq, Repr

/-- Every node and edge of one ingestion pass. -/
structure GraphBatch where
  enis : List EniRecord
  securityGroups : List SecurityGroupRecord
  networkAcls : List NetworkAclRecord
  subnets : List SubnetRecord
  vpcs : List VpcRecord
  routeTables : List RouteTableRecord
  edges : List Edge
deriving DecidableEq, Repr

end NetHound.Graph
