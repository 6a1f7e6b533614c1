import Mathlib.Data.Int.Notation

/-! # The EC2 response types

The fields of the `aws_sdk_ec2` types that the mapping layer reads. Every scalar is optional, as the
SDK hands it out; an absent list reads as an empty one. Signed 32-bit numbers are integers.
-/

namespace NetHound.Ingest.Sdk

structure IpRange where
  cidrIp : Option String
deriving DecidableEq, Repr

structure Ipv6Range where
  cidrIpv6 : Option String
deriving DecidableEq, Repr

structure UserIdGroupPair where
  groupId : Option String
  userId : Option String
deriving DecidableEq, Repr

structure PrefixListId where
  prefixListId : Option String
deriving DecidableEq, Repr

structure IpPermission where
  ipProtocol : Option String := none
  fromPort : Option ℤ := none
  toPort : Option ℤ := none
  ipRanges : List IpRange := []
  ipv6Ranges : List Ipv6Range := []
  userIdGroupPairs : List UserIdGroupPair := []
  prefixListIds : List PrefixListId := []
deriving DecidableEq, Repr

structure SecurityGroup where
  groupId : Option String := none
  vpcId : Option String := none
  groupName : Option String := none
  description : Option String := none
  ipPermissions : List IpPermission := []
  ipPermissionsEgress : List IpPermission := []
deriving DecidableEq, Repr

/-- A non-exhaustive SDK enumeration keeps values it does not know. -/
inductive RuleAction where
  | allow
  | deny
  | unknown (value : String)
deriving DecidableEq, Repr

structure PortRange where
  fromPort : Option ℤ := none
  toPort : Option ℤ := none
deriving DecidableEq, Repr

structure IcmpTypeCode where
  code : Option ℤ := none
  icmpType : Option ℤ := none
deriving DecidableEq, Repr

structure NetworkAclEntry where
  cidrBlock : Option String := none
  egress : Option Bool := none
  icmpTypeCode : Option IcmpTypeCode := none
  ipv6CidrBlock : Option String := none
  portRange : Option PortRange := none
  protocol : Option String := none
  ruleAction : Option RuleAction := none
  ruleNumber : Option ℤ := none
deriving DecidableEq, Repr

structure NetworkAclAssociation where
  subnetId : Option String
deriving DecidableEq, Repr

structure NetworkAcl where
  networkAclId : Option String := none
  vpcId : Option String := none
  isDefault : Option Bool := none
  associations : List NetworkAclAssociation := []
  entries : List NetworkAclEntry := []
deriving DecidableEq, Repr

structure RouteTableAssociation where
  main : Option Bool := none
  subnetId : Option String := none
deriving DecidableEq, Repr

structure Route where
  destinationCidrBlock : Option String := none
  destinationIpv6CidrBlock : Option String := none
  gatewayId : Option String := none
  vpcPeeringConnectionId : Option String := none
deriving DecidableEq, Repr

structure RouteTable where
  routeTableId : Option String := none
  vpcId : Option String := none
  associations : List RouteTableAssociation := []
  routes : List Route := []
deriving DecidableEq, Repr

structure GroupIdentifier where
  groupId : Option String
deriving DecidableEq, Repr

structure NetworkInterface where
  networkInterfaceId : Option String := none
  vpcId : Option String := none
  subnetId : Option String := none
  privateIpAddress : Option String := none
  description : Option String := none
  groups : List GroupIdentifier := []
deriving DecidableEq, Repr

structure VpcPeeringConnectionVpcInfo where
  vpcId : Option String := none
  ownerId : Option String := none
deriving DecidableEq, Repr

structure VpcPeeringConnection where
  vpcPeeringConnectionId : Option String := none
  requesterVpcInfo : Option VpcPeeringConnectionVpcInfo := none
  accepterVpcInfo : Option VpcPeeringConnectionVpcInfo := none
deriving DecidableEq, Repr

/-- The five raw collections of one account snapshot. -/
structure Collections where
  securityGroups : List SecurityGroup := []
  networkAcls : List NetworkAcl := []
  routeTables : List RouteTable := []
  networkInterfaces : List NetworkInterface := []
  vpcPeeringConnections : List VpcPeeringConnection := []
deriving DecidableEq, Repr

end NetHound.Ingest.Sdk
