import NetHound.Evaluate.Footprint
import NetHound.Ingest.Sentinel
import NetHound.Soundness.AuditStores
import NetHound.Soundness.WorstCase

/-! # What audits report

The worst-case traffic of a candidate is for all protocols, which only group rules for all protocols admit, and
these have no ports to be merged on. An audit of an account that has such a rule does not finish; over a
database that holds none, whatever the others admit, every pair is found not reachable. From an empty database
on there is no history of processes in which one returns findings.
-/

namespace NetHound.Soundness

open Audit Audit.Session Domain Net Graph Graph.Session Cypher Evaluate Ingest Ingest.Aws Interruptible
  Interruptible.Program

/-! ## Candidates -/

/-- Without a group rule for all protocols nothing leaves the source. -/
theorem notReachable_of_no_sentinel {candidate : PathCandidate} {peerAddress : IpAddr}
    (worstCase : candidate.traffic = worstCaseTraffic peerAddress)
    (none : (candidate.source.securityGroupRules.filter fun rule => rule.protocol == "-1") = [])
    (computedAt : String) : (evaluateCandidate computedAt candidate).reachability = .notReachable := by
  by_contra reaches
  have noRule (kind : Kleene) : ¬ ∃ rule ∈ ([] : List SgRule), rule.direction = .egress ∧
      Sg.ruleKind (worstCaseTraffic peerAddress) candidate.destination.peerSecurityGroupIds rule = kind := by simp
  have egress := sgAdmits_worstCase candidate.source.securityGroupRules .egress
    candidate.destination.peerSecurityGroupIds (worstCaseTraffic peerAddress)
  have undecided := sgUndecided_worstCase candidate.source.securityGroupRules .egress
    candidate.destination.peerSecurityGroupIds (worstCaseTraffic peerAddress)
  rw [none] at egress undecided
  rcases ((ne_notReachable_iff computedAt candidate).mp reaches).2 with unresolved | ⟨admitted, _⟩
  · rw [layerUndecided, worstCase] at unresolved
    exact noRule .unknown (undecided.mp unresolved).2
  · rw [layerAdmits, worstCase] at admitted
    exact noRule .yes (egress.mp admitted)

/-! ## Stores -/

/-- A stored group rule for all protocols. -/
def sentinelProps (props : Props) : Bool := props .protocol = stringProp "-1"

private theorem sentinelProps_of_read {props : Props} {direction : Direction} {rule : SgRule}
    (read : sgRuleFromProps props direction = .ok rule) : (rule.protocol == "-1") = sentinelProps props := by
  obtain ⟨protocol, found, run⟩ := Except.bind_eq_ok_iff.mp read
  obtain ⟨_, _, run⟩ := Except.bind_eq_ok_iff.mp run
  obtain ⟨_, _, done⟩ := Except.bind_eq_ok_iff.mp run
  cases done
  rw [boltString] at found
  split at found
  · next value stored =>
    cases found
    rw [sentinelProps, stored, Bool.eq_iff_iff, beq_iff_eq, decide_eq_true_eq, stringProp]
    simp
  · cases found

/-- Reading rules and keeping those for all protocols commute. -/
private theorem sgRulesFromRow_sentinel {raw : List Props} {direction : Direction} {rules : List SgRule}
    (read : sgRulesFromRow raw direction = .ok rules) :
    sgRulesFromRow (raw.filter sentinelProps) direction = .ok
      (rules.filter fun rule => rule.protocol == "-1") := by
  rw [sgRulesFromRow, List.filter_comm]
  exact List.mapM_filter_ok read fun props rule each => sentinelProps_of_read each

/-- Group rules for all protocols are read from the relationships for all protocols. -/
private theorem sgRulesOf_sentinel {relType : RelType} (rule : relType ∈ ruleTypes) (graph : Neo4jGraph)
    (securityGroupIds : List String) : (sgRulesOf graph relType securityGroupIds).filter sentinelProps =
      sgRulesOf (graph.restrict sentinelRel) relType securityGroupIds := by
  rw [sgRulesOf, sgRulesOf, PropertyGraph.restrict, List.filter_map, List.filter_filter, List.filter_filter]
  congr 1
  refine List.filter_congr fun r _ => ?_
  rw [Bool.and_comm, Bool.eq_iff_iff, Bool.and_eq_true, Bool.and_eq_true]
  refine and_congr_right fun owned => ?_
  obtain ⟨type, _⟩ := of_decide_eq_true owned
  rw [Function.comp_apply, sentinelProps, sentinelRel, type]
  simp [rule]

section Stored

variable {graph : Neo4jGraph}

/-- A table without rules for all protocols. -/
private theorem restrict_sentinelRel (stores : StoresOnly (fun c => sentinelKey c.key = false) graph) :
    (graph.restrict sentinelRel).relationships = [] := by
  obtain ⟨table, stored, none⟩ := stores
  rw [stored.restrict_relationships fun c emitted => sentinelRel_create emitted]
  have filtered : (table.filter fun c => sentinelKey c.key) = [] := by
    rw [List.filter_eq_nil_iff]
    intro c member
    rw [none c member]
    exact Bool.false_ne_true
  rw [filtered, List.map_nil]

private theorem egressRules_sentinel (none : (graph.restrict sentinelRel).relationships = []) {enis : List EniNode}
    (fetched : fetchEnis graph = .ok enis) {eni : EniNode} (member : eni ∈ enis) :
    (eni.egressRules.filter fun rule => rule.protocol == "-1") = [] := by
  obtain ⟨row, inRows, read⟩ := List.exists_of_mem_mapM_ok fetched member
  obtain ⟨node, _, ofNode⟩ := List.mem_flatMap.mp inRows
  obtain ⟨group, _, rfl⟩ := List.mem_map.mp ofNode
  have kept := sgRulesFromRow_sentinel (eniFromRow_eq_ok_iff.mp read).egressRules
  have nothing : (Evaluate.eniRow graph node group).egressRules.filter sentinelProps = [] := by
    rw [Evaluate.eniRow, sgRulesOf_sentinel (by decide), sgRulesOf, none]
    rfl
  rw [nothing] at kept
  exact (Except.ok.inj kept).symm

/-- What is assembled over it is not reachable. -/
theorem notReachable_of_storesOnly (stores : StoresOnly (fun c => sentinelKey c.key = false) graph)
    {boundaryId : String} {selectors : BoundarySelectors} {candidates : List PathCandidate}
    (assembled : assembleCandidates graph boundaryId selectors = .ok candidates) {candidate : PathCandidate}
    (member : candidate ∈ candidates) (computedAt : String) :
    (evaluateCandidate computedAt candidate).reachability = .notReachable := by
  obtain ⟨enis, fetched, done⟩ := Except.bind_eq_ok_iff.mp assembled
  cases done
  obtain ⟨source, inEnis, destination, _, _, built⟩ := mem_pairCandidates_iff.mp member
  obtain ⟨peerAddress, _, rfl⟩ := Option.map_eq_some_iff.mp built
  have none := egressRules_sentinel (restrict_sentinelRel stores) fetched inEnis
  exact notReachable_of_no_sentinel rfl none computedAt

end Stored

/-! ## Runs -/

section Runs

variable {Schema : Type} {execute : String → Schema → Option Schema} {files : List (String × String)}
  {isUppercase : Char → Bool} {initial : Schema} {store : Store Schema}

/-- No batch writes a rule for all protocols. -/
theorem batchesWrite_no_sentinel : BatchesWrite fun c => sentinelKey c.key = false :=
  fun _ _ _ built _ written complete =>
    Bool.eq_false_iff.mpr fun sentinel => built.not_complete_of_sentinel written sentinel complete

variable {clock : ℕ → String} {selectors : BoundarySelectors} {accountId : String} {collections : Sdk.Collections}
  {graph : Neo4jGraph} {audited : AuditRun}

/-- An audit that finishes over a table has written a batch into it. -/
theorem exists_finished_of_ok {table : List Merge} (stored : Stored graph table)
    (ran : Audit.runWithEc2Client clock selectors accountId collections graph = .ok audited) :
    ∃ batch, Finished accountId collections (withBoundary accountId graph) table batch audited.ingested := by
  obtain ⟨ingests, _⟩ := runWithEc2Client_ok ran
  obtain ⟨batch, mapped⟩ := built_of_ok ingests
  exact ⟨batch, finished_of_ok (stored.mergeNodes _) mapped ingests⟩

/-- One that finishes over a table without rules for all protocols. -/
theorem clean_of_storesOnly (stores : StoresOnly (fun c => sentinelKey c.key = false) graph)
    (ran : Audit.runWithEc2Client clock selectors accountId collections graph = .ok audited) :
    (∀ finding ∈ audited.findings, finding.reachability = .notReachable) ∧
      ∀ pair ∈ (keptCollections accountId collections).securityGroups, ∀ rule ∈ sgRules accountId pair,
        rule.protocol ≠ "-1" := by
  obtain ⟨_, assembled, evaluated⟩ := runWithEc2Client_ok ran
  obtain ⟨table, stored, none⟩ := stores
  obtain ⟨_, written⟩ := exists_finished_of_ok stored ran
  constructor
  · have stores' : StoresOnly (fun c => sentinelKey c.key = false) audited.ingested.graph := by
      refine ⟨_, written.stored, fun c member => Bool.eq_false_iff.mpr fun sentinel => ?_⟩
      have inTable : c ∈ table.filter fun c => sentinelKey c.key := by
        rw [← written.filter_sentinel]
        exact List.mem_filter.mpr ⟨member, sentinel⟩
      rw [none c (List.mem_of_mem_filter inTable)] at sentinel
      cases sentinel
    intro finding member
    rw [evaluated] at member
    obtain ⟨index, bound, rfl⟩ := List.mem_mapIdx.mp member
    exact notReachable_of_storesOnly stores' assembled (List.getElem_mem bound) _
  · intro pair kept rule ofPair
    exact Sg.protocol_of_ranged (written.built.sgRulesMapped pair kept) rule ofPair
      (written.ranged pair kept rule ofPair)

/-- Over any history of processes on an empty database, on any accounts and configurations and each of which may
fail or stop anywhere, a run that returns has audited an account without group rules for all protocols, and every
one of its findings is that the pair is not reachable; no command that is dispatched returns findings. -/
theorem audits_report_nothing
    (reaches : Reaches (AnyProcess execute files isUppercase) ⟨.empty initial, PropertyGraph.empty⟩ store)
    (account : Account) (environment : Environment) (replies : List Reply) :
    (∀ (config : ValidatedConfig isUppercase) outcome session,
      Session.run execute files account environment config ⟨store, replies⟩ = (.ok outcome, session) →
        ∃ accountId collections audited, Identified account config accountId ∧
          collect environment.schedule (account.client ⟨config.region⟩) = some (.ok collections) ∧
          Audit.runWithEc2Client environment.clock config.selectors accountId collections store.graph =
            .ok audited ∧
          outcome = audited.outcome ∧
          (∀ finding ∈ audited.findings, finding.reachability = .notReachable) ∧
          ∀ pair ∈ (keptCollections accountId collections).securityGroups, ∀ rule ∈ sgRules accountId pair,
            rule.protocol ≠ "-1") ∧
      ∀ command outcome session,
        dispatch execute files isUppercase account environment command ⟨store, replies⟩ = (.ok outcome, session) →
          outcome = .clean := by
  have stores := storesOnly_of_reaches batchesWrite_no_sentinel reaches
  have returns (config : ValidatedConfig isUppercase) (outcome : Audit.Outcome)
      (session : Interruptible.Session (Store Schema))
      (returned : Session.run execute files account environment config ⟨store, replies⟩ = (.ok outcome, session)) :
      ∃ accountId collections audited, Identified account config accountId ∧
        collect environment.schedule (account.client ⟨config.region⟩) = some (.ok collections) ∧
        Audit.runWithEc2Client environment.clock config.selectors accountId collections store.graph = .ok audited ∧
        outcome = audited.outcome := by
    have ends := (leads_run execute files account environment config store leads_trivial).ends ⟨store, replies⟩ rfl
    rw [returned] at ends
    obtain ⟨accountId, identified, _, collections, audited, collected, ran, same, _⟩ := ends
    exact ⟨accountId, collections, audited, identified, collected, ran, same.symm⟩
  constructor
  · intro config outcome session returned
    obtain ⟨accountId, collections, audited, identified, collected, ran, same⟩ := returns config outcome session returned
    obtain ⟨clean, ranged⟩ := clean_of_storesOnly stores ran
    exact ⟨accountId, collections, audited, identified, collected, ran, same, clean, ranged⟩
  · intro command outcome session returned
    rcases dispatch_ok returned with clean | ⟨config, ran⟩
    · exact clean
    · obtain ⟨_, _, audited, _, _, ran, same⟩ := returns config outcome session ran
      exact same.trans (findingsToOutcome_eq_clean_iff.mpr (clean_of_storesOnly stores ran).1)

end Runs

/-! ## An account that is open to TCP -/

/-- All ports of TCP from anywhere. -/
private def anyTcp : Sdk.IpPermission where
  ipProtocol := some "tcp"
  fromPort := some 0
  toPort := some 65535
  ipRanges := [⟨some "0.0.0.0/0"⟩]

private def openAccount : Account where
  identity _ := .ok (some "111122223333")
  client _ := ⟨fun
    | .networkInterfaces => [
        .ok ⟨some [{
          networkInterfaceId := some "eni-1"
          vpcId := some "vpc-1"
          subnetId := some "subnet-1"
          privateIpAddress := some "10.1.0.1"
          groups := [⟨some "sg-1"⟩] }, {
          networkInterfaceId := some "eni-2"
          vpcId := some "vpc-2"
          subnetId := some "subnet-2"
          privateIpAddress := some "10.2.0.1"
          groups := [⟨some "sg-2"⟩] }]⟩]
    | .securityGroups => [
        .ok ⟨some [{
          groupId := some "sg-1"
          vpcId := some "vpc-1"
          groupName := some "app"
          ipPermissionsEgress := [anyTcp] }, {
          groupId := some "sg-2"
          vpcId := some "vpc-2"
          groupName := some "db"
          ipPermissions := [anyTcp] }]⟩]
    | .routeTables => [
        .ok ⟨some [{
          routeTableId := some "rtb-1"
          vpcId := some "vpc-1"
          associations := [{ subnetId := some "subnet-1" }]
          routes := [{ destinationCidrBlock := some "10.2.0.0/16", vpcPeeringConnectionId := some "pcx-1" }] }, {
          routeTableId := some "rtb-2"
          vpcId := some "vpc-2"
          associations := [{ subnetId := some "subnet-2" }]
          routes := [{ destinationCidrBlock := some "10.1.0.0/16", vpcPeeringConnectionId := some "pcx-1" }] }]⟩]
    | .vpcPeeringConnections => [
        .ok ⟨some [{
          vpcPeeringConnectionId := some "pcx-1"
          requesterVpcInfo := some { vpcId := some "vpc-1", ownerId := some "111122223333" }
          accepterVpcInfo := some { vpcId := some "vpc-2", ownerId := some "111122223333" } }]⟩]
    | _ => [.ok ⟨none⟩]⟩

/-- A first audit is stopped among its relationships. -/
private def stoppedHalfway : Store (List String) :=
  auditedFresh openAccount "vpc-2" (List.replicate 20 .done ++ [.stops true])

private def pairsIn (audited : AuditRun) : List (String × String × Bool) :=
  audited.candidates.map fun candidate =>
    (candidate.source.eniId, candidate.destination.eniId, candidate.routeExists)

theorem audits_report_nothing_open : ∃ session run,
    audited openAccount "vpc-2" stoppedHalfway = (.ok run.outcome, session) ∧
      pairsIn run = [("eni-1", "eni-2", true)] ∧ ∀ finding ∈ run.findings, finding.reachability = .notReachable := by
  have pairs : ((collect Collector.all (openAccount.client ⟨"eu-west-1"⟩)).bind Except.toOption).bind
      (fun collections => (Audit.runWithEc2Client (fun _ => "") (validatedSelecting "vpc-2").selectors
        "111122223333" collections stoppedHalfway.graph).toOption.map pairsIn) =
          some [("eni-1", "eni-2", true)] := by decide +kernel
  have finished : (audited openAccount "vpc-2" stoppedHalfway).1 = .ok .clean := by decide +kernel
  have reaches := reaches_auditedFresh openAccount "vpc-2" (List.replicate 20 .done ++ [.stops true])
  change Reaches _ _ stoppedHalfway at reaches
  generalize stoppedHalfway = store at pairs finished reaches ⊢
  rcases ran : audited openAccount "vpc-2" store with ⟨outcome, session⟩
  rw [ran] at finished
  obtain rfl : outcome = _ := finished
  obtain ⟨accountId, collections, run, identified, collected, whole, same, clean, _⟩ :=
    (audits_report_nothing reaches openAccount (readyWith Collector.all) _).1 (validatedSelecting "vpc-2") _ _ ran
  obtain rfl : "111122223333" = accountId := Option.some.inj (Except.ok.inj identified)
  change collect Collector.all (openAccount.client ⟨"eu-west-1"⟩) = _ at collected
  rw [collected] at pairs
  change (Audit.runWithEc2Client (fun _ => "") (validatedSelecting "vpc-2").selectors "111122223333" collections
    store.graph).toOption.map pairsIn = _ at pairs
  rw [show Audit.runWithEc2Client (fun _ => "") (validatedSelecting "vpc-2").selectors "111122223333" collections
    store.graph = .ok run from whole] at pairs
  exact ⟨session, run, by rw [same], Option.some.inj pairs, clean⟩

end NetHound.Soundness
