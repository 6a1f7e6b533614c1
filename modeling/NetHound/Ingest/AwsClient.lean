import NetHound.Ingest.Session

/-! # The AWS client and its errors

`ingest/aws_client.rs` and the `IngestError` of `error.rs`. What AWS answers is a function of the client
configuration it is asked with. An error is kept with the chain of its causes, as far as a downcast can tell
them apart.
-/

namespace NetHound.Ingest.Aws

open Graph.Session (WriteError)

/-- The `Describe*` operations whose pages are collected. -/
inductive Collector where
  | securityGroups
  | networkAcls
  | routeTables
  | networkInterfaces
  | vpcPeeringConnections
deriving DecidableEq, Repr

def Collector.all : List Collector :=
  [.securityGroups, .networkAcls, .routeTables, .networkInterfaces, .vpcPeeringConnections]

theorem Collector.mem_all (collector : Collector) : collector ∈ Collector.all := by
  cases collector <;> decide

/-! ## Errors -/

inductive CredentialsError where
  | credentialsNotLoaded
  | providerTimedOut
  | invalidConfiguration
  | providerError
  | unhandled
deriving DecidableEq, Repr

/-- The operations with an error type of their own. -/
inductive Operation where
  | getCallerIdentity
  | describe (collector : Collector)
deriving DecidableEq, Repr

/-- A link of an error's chain; `code` is what the error metadata of an `SdkError` gives. -/
inductive Cause where
  | credentials (error : CredentialsError)
  | sdk (operation : Operation) (code : Option String)
  | unrelated
deriving DecidableEq, Repr

/-- A failed call of one operation: its code, and the errors behind it. -/
structure SdkError where
  code : Option String
  sources : List Cause
deriving DecidableEq, Repr

/-- The chain of an `SdkError` of this operation. -/
def SdkError.boxed (operation : Operation) (error : SdkError) : List Cause :=
  .sdk operation error.code :: error.sources

inductive IngestError where
  | regionNotResolved
  | describe (operation : String) (source : List Cause)
  | mapping (source : MappingError)
  | accountIdResolution (source : List Cause)
  | accountIdMissing
  | write (source : WriteError)
deriving DecidableEq, Repr

/-- The error itself and its sources; neither the mapping errors nor the driver's are AWS errors. -/
def IngestError.chain : IngestError → List Cause
  | .regionNotResolved => [.unrelated]
  | .describe _ source => .unrelated :: source
  | .mapping _ => [.unrelated, .unrelated]
  | .accountIdResolution source => .unrelated :: source
  | .accountIdMissing => [.unrelated]
  | .write _ => [.unrelated, .unrelated, .unrelated]

/-! ## Region and account -/

structure IngestConfig where
  region : Option String
  neo4jUri : Option String
deriving DecidableEq, Repr

/-- Where a region may come from besides the configuration. -/
structure RegionSources where
  awsRegionEnv : Option String
  awsDefaultRegionEnv : Option String
  profileRegion : Option String

structure SdkConfig where
  region : String
deriving DecidableEq, Repr

/-- The first candidate that is not empty. -/
def resolveRegion (explicit awsRegionEnv awsDefaultRegionEnv profileRegion : Option String) : Option String :=
  [explicit, awsRegionEnv, awsDefaultRegionEnv, profileRegion].findSome? fun candidate =>
    candidate.filter fun value => !value.isEmpty

def buildSdkConfigFromSources (explicit awsRegionEnv awsDefaultRegionEnv profileRegion : Option String) :
    Except IngestError SdkConfig :=
  match resolveRegion explicit awsRegionEnv awsDefaultRegionEnv profileRegion with
  | some region => .ok ⟨region⟩
  | none => .error .regionNotResolved

def buildSdkConfig (sources : RegionSources) (config : IngestConfig) : Except IngestError SdkConfig :=
  buildSdkConfigFromSources config.region sources.awsRegionEnv sources.awsDefaultRegionEnv sources.profileRegion

/-- `identity` is what STS answers, with the account of its response. -/
def resolveAccountId (identity : SdkConfig → Except SdkError (Option String)) (sdkConfig : SdkConfig) :
    Except IngestError String :=
  match identity sdkConfig with
  | .error source => .error (.accountIdResolution (source.boxed .getCallerIdentity))
  | .ok (some account) => .ok account
  | .ok none => .error .accountIdMissing

theorem resolveAccountId_eq_ok_iff {identity : SdkConfig → Except SdkError (Option String)} {sdkConfig : SdkConfig}
    {accountId : String} :
    resolveAccountId identity sdkConfig = .ok accountId ↔ identity sdkConfig = .ok (some accountId) := by
  rw [resolveAccountId]
  rcases identity sdkConfig with source | _ | account
  · exact iff_of_false nofun nofun
  · exact iff_of_false nofun nofun
  · exact ⟨fun same => by cases same; rfl, fun same => by cases same; rfl⟩

/-- A region that is given is the one that is used. -/
theorem buildSdkConfig_of_region {config : IngestConfig} {region : String} (explicit : config.region = some region)
    (given : region.isEmpty = false) (sources : RegionSources) : buildSdkConfig sources config = .ok ⟨region⟩ := by
  rw [buildSdkConfig, buildSdkConfigFromSources, explicit, resolveRegion, List.findSome?_cons, Option.filter_some,
    given]
  rfl

end NetHound.Ingest.Aws
