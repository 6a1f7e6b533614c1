import NetHound.Graph.Neo4j
import NetHound.Ingest.Topology

/-! # The ingestion pipeline

`ingest/pipeline.rs` from the collected resources on: map them into a batch, turn the node mapping
errors into warnings, write the batch, report. `writeBatch` sorts the edges by kind, groups the rule
edges by owner, and calls every upsert of the writer once.
-/

namespace NetHound.Ingest

open Domain Graph

inductive ResourceKind where
  | eni
  | securityGroup
  | networkAcl
  | routeTable
  | vpcPeeringConnection
deriving DecidableEq, Repr

/-- A resource that failed to map and was left out of the batch. -/
structure IngestWarning where
  resourceId : String
  field : String
  reason : String
deriving DecidableEq, Repr

def IngestWarning.from : MappingError → IngestWarning
  | .invalidField resourceId field reason => { resourceId, field, reason }

/-- The run's report; the counts are listed in the order of their kinds. -/
structure IngestReport where
  counts : List (ResourceKind × ℕ)
  unresolvedReferences : ℕ
  nonFatal : List IngestWarning
deriving DecidableEq, Repr

inductive IngestError where
  | mapping (source : MappingError)
  | write (source : GraphWriteError)
deriving DecidableEq, Repr

/-! ## Sorting and grouping edges -/

def asHasSg : Edge → Option HasSgEdge
  | .hasSg edge => some edge
  | _ => none

def asInSubnet : Edge → Option InSubnetEdge
  | .inSubnet edge => some edge
  | _ => none

def asProtectedBy : Edge → Option ProtectedByEdge
  | .protectedBy edge => some edge
  | _ => none

def asUsesRouteTable : Edge → Option UsesRouteTableEdge
  | .usesRouteTable edge => some edge
  | _ => none

def asRoutesTo : Edge → Option RoutesToEdge
  | .routesTo edge => some edge
  | _ => none

def asAllowsIngress : Edge → Option (String × SgRule)
  | .allowsIngress securityGroupId rule => some (securityGroupId, rule)
  | _ => none

def asAllowsEgress : Edge → Option (String × SgRule)
  | .allowsEgress securityGroupId rule => some (securityGroupId, rule)
  | _ => none

def asHasRule : Edge → Option (String × NaclRule)
  | .hasRule networkAclId rule => some (networkAclId, rule)
  | _ => none

/-! Each edge is sorted under its own kind. -/

theorem asHasSg_eq_some {sorted : Edge} {edge : HasSgEdge} (found : asHasSg sorted = some edge) :
    sorted = .hasSg edge := by
  cases sorted <;> cases found
  rfl

theorem asInSubnet_eq_some {sorted : Edge} {edge : InSubnetEdge} (found : asInSubnet sorted = some edge) :
    sorted = .inSubnet edge := by
  cases sorted <;> cases found
  rfl

theorem asProtectedBy_eq_some {sorted : Edge} {edge : ProtectedByEdge}
    (found : asProtectedBy sorted = some edge) :
    sorted = .protectedBy edge := by
  cases sorted <;> cases found
  rfl

theorem asUsesRouteTable_eq_some {sorted : Edge} {edge : UsesRouteTableEdge}
    (found : asUsesRouteTable sorted = some edge) :
    sorted = .usesRouteTable edge := by
  cases sorted <;> cases found
  rfl

theorem asRoutesTo_eq_some {sorted : Edge} {edge : RoutesToEdge} (found : asRoutesTo sorted = some edge) :
    sorted = .routesTo edge := by
  cases sorted <;> cases found
  rfl

theorem asAllowsIngress_eq_some {sorted : Edge} {owned : String × SgRule}
    (found : asAllowsIngress sorted = some owned) :
    sorted = .allowsIngress owned.1 owned.2 := by
  cases sorted <;> cases found
  rfl

theorem asAllowsEgress_eq_some {sorted : Edge} {owned : String × SgRule}
    (found : asAllowsEgress sorted = some owned) :
    sorted = .allowsEgress owned.1 owned.2 := by
  cases sorted <;> cases found
  rfl

theorem asHasRule_eq_some {sorted : Edge} {owned : String × NaclRule}
    (found : asHasRule sorted = some owned) :
    sorted = .hasRule owned.1 owned.2 := by
  cases sorted <;> cases found
  rfl

/-- Groups pairs by key, each key's values in encounter order. -/
def groupBy {V : Type} (pairs : List (String × V)) : Std.TreeMap String (List V) :=
  pairs.foldl
    (fun grouped pair => grouped.alter pair.1 fun values => some (values.getD [] ++ [pair.2])) ∅

def sgRuleBatches (pairs : List (String × SgRule)) : List SgRuleBatch :=
  (groupBy pairs).toList.map fun group => ⟨group.1, group.2⟩

def naclRuleBatches (pairs : List (String × NaclRule)) : List NaclRuleBatch :=
  (groupBy pairs).toList.map fun group => ⟨group.1, group.2⟩

def writeBatch (batch : GraphBatch) : Write := fun graph => do
  let graph ← upsertEnis batch.enis graph
  let graph ← upsertSecurityGroups batch.securityGroups graph
  let graph ← upsertNetworkAcls batch.networkAcls graph
  let graph ← upsertSubnets batch.subnets graph
  let graph ← upsertVpcs batch.vpcs graph
  let graph ← upsertRouteTables batch.routeTables graph
  let graph ← upsertHasSgEdges (batch.edges.filterMap asHasSg) graph
  let graph ← upsertInSubnetEdges (batch.edges.filterMap asInSubnet) graph
  let graph ← upsertProtectedByEdges (batch.edges.filterMap asProtectedBy) graph
  let graph ← upsertUsesRouteTableEdges (batch.edges.filterMap asUsesRouteTable) graph
  let graph ← upsertRoutesToEdges (batch.edges.filterMap asRoutesTo) graph
  let graph ← upsertAllowsIngressRules (sgRuleBatches (batch.edges.filterMap asAllowsIngress)) graph
  let graph ← upsertAllowsEgressRules (sgRuleBatches (batch.edges.filterMap asAllowsEgress)) graph
  upsertHasRules (naclRuleBatches (batch.edges.filterMap asHasRule)) graph

/-! ## The run -/

def countsAsUnresolved : Edge → Bool
  | .routesTo edge => !edge.resolved
  | .allowsIngress _ rule => !rule.resolved
  | .allowsEgress _ rule => !rule.resolved
  | _ => false

def countUnresolved (batch : GraphBatch) : ℕ := batch.edges.countP countsAsUnresolved

/-- The report and the graph a finished ingestion leaves. -/
structure Ingested where
  report : IngestReport
  graph : Neo4jGraph

def runFullIngestWithClient (accountId : String) (collections : Sdk.Collections) (graph : Neo4jGraph) :
    Except IngestError Ingested :=
  let (nodeMappingErrors, built) := Topology.buildGraphBatch accountId collections
  match built with
  | .error source => .error (.mapping source)
  | .ok batch =>
      match writeBatch batch graph with
      | .error failure => .error (.write failure.error)
      | .ok graph =>
          .ok {
            report := {
              counts := [(.eni, batch.enis.length), (.securityGroup, batch.securityGroups.length),
                (.networkAcl, batch.networkAcls.length), (.routeTable, batch.routeTables.length),
                (.vpcPeeringConnection, collections.vpcPeeringConnections.length)]
              unresolvedReferences := countUnresolved batch
              nonFatal := nodeMappingErrors.map .from }
            graph }

end NetHound.Ingest
