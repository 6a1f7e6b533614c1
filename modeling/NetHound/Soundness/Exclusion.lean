import NetHound.Evaluate.Frame
import NetHound.Ingest.Origin
import NetHound.Soundness.CleanAudits
import NetHound.Soundness.NodeMapping

/-! # Excluding an unmappable resource

A resource that does not map is left out of the batch with a warning, and the run goes on without its
relationships. The candidates between two interfaces that do not read it are the same as with it. An interface
that does read it may lose the route or the rule that admits it, which the evaluator takes for a denial. No
reachable pair is hidden by that, for the reason that over a database that the audits have written none is
reported.
-/

namespace NetHound.Soundness

open Audit Audit.Session Domain Graph Cypher Evaluate Ingest Topology Interruptible Interruptible.Program

/-! ## What the second run reads -/

section Tables

variable {accountId : String} {first second : Sdk.Collections} {ref : NodeRef Label}
  {batch batch' : GraphBatch} (excludes : Excludes ref first second) (built : Built accountId first batch)
  (built' : Built accountId second batch')

include excludes built built'

/-- The tables agree on keys of which none is of the excluded resource. -/
private theorem filter_table_eq {q : MergeKey Label RelType Field BoltType → Bool} (table : List Merge)
    (apart : ∀ c ∈ batchMerges batch, keyOrigin c.key = ref → q c.key = false) :
    (table.upserts RelMerge.key (batchMerges batch)).filter (fun c => q c.key) =
      (table.upserts RelMerge.key (batchMerges batch')).filter fun c => q c.key := by
  have without {writes : List Merge} (fewer : writes ⊆ batchMerges batch) :
      writes.filter (fun c => q c.key) =
        (writes.filter fun c => keyOrigin c.key ≠ ref).filter fun c => q c.key := by
    rw [List.filter_filter]
    refine List.filter_congr fun c member => ?_
    by_cases own : keyOrigin c.key = ref
    · rw [apart c (fewer member) own, Bool.false_and]
    · rw [decide_eq_true own, Bool.and_true]
  have others := excludes.filter_merges built built' (p := fun origin => decide (origin ≠ ref)) (by simp)
  rw [List.filter_upserts, List.filter_upserts, without (List.Subset.refl _),
    without (excludes.merges_subset built built'), others]

end Tables

section Reads

variable {accountId : String} {first second : Sdk.Collections} {ref : NodeRef Label} {store : Neo4jGraph}
  {table : List Merge} {batch batch' : GraphBatch} {ingested ingested' : Ingested} {eniId : String}

/-- A relationship that was mapped from a resource, and starts where an interface visits, makes it visit the
resource. -/
private theorem visits_origin (finished : Finished accountId first store table batch ingested) {c : Merge}
    (written : c ∈ batchMerges batch) (visits : Visits ingested.graph eniId c.source) :
    Visits ingested.graph eniId (keyOrigin c.key) := by
  have target : c.target.id ∈ targets ingested.graph c.relType c.source c.target.label := by
    have keyed : c.key ∈ (table.upserts RelMerge.key (batchMerges batch)).map RelMerge.key := by
      rw [List.mem_map_key_upserts]
      exact .inr (List.mem_map_of_mem written)
    obtain ⟨d, inTable, same⟩ := List.mem_map.mp keyed
    refine mem_targets_iff.mpr ⟨d.create, ?_, congrArg MergeKey.relType same, congrArg MergeKey.source same,
      congrArg MergeKey.target same⟩
    rw [finished.stored.written.relationships]
    exact List.mem_map_of_mem inTable
  obtain ⟨source, labels⟩ := (emitted_merges (allSent_edgeStatements _) c written).labels
  rw [keyOrigin, RelMerge.key]
  generalize c.source = start, c.target = stop at target source labels visits
  obtain ⟨label, id⟩ := stop
  -- the origin is where the relationship starts, or what protects or routes the subnet it starts at
  rcases type : c.relType <;> rw [type] at target source labels
  case protectedBy =>
    obtain rfl := List.mem_singleton.mp labels
    cases visits with
    | subnet subnet => exact .networkAcl subnet target
    | _ => cases source
  case usesRouteTable =>
    obtain rfl := List.mem_singleton.mp labels
    cases visits with
    | subnet subnet => exact .routeTable subnet target
    | _ => cases source
  all_goals exact visits

variable (excludes : Excludes ref first second) (finished : Finished accountId first store table batch ingested)
  (finished' : Finished accountId second store table batch' ingested')

include excludes finished finished'

open Classical in
/-- An interface that does not visit the resource is read alike in both stores. -/
theorem readsAlike_of_unvisited (unvisited : ¬ Visits ingested.graph eniId ref) :
    ReadsAlike ingested.graph ingested'.graph eniId := by
  let own : NodeRef Label → Bool := fun visited => decide (Visits ingested.graph eniId visited)
  have visited : ∀ ref, Visits ingested.graph eniId ref → own ref = true := fun _ => decide_eq_true
  apply readsAlike_of_restrict visited
  · rw [finished.stored.restrict_relationships (q := fun key => own key.source) fun c _ => rfl,
      finished'.stored.restrict_relationships (q := fun key => own key.source) fun c _ => rfl]
    congr 1
    apply filter_table_eq (q := fun key => own key.source) excludes finished.built finished'.built
    rintro c written rfl
    exact decide_eq_false fun visits => unvisited (visits_origin finished written visits)
  · have other : ref ≠ ⟨.eni, eniId⟩ := by
      rintro rfl
      exact unvisited .eni
    rw [finished.nodesAt_eni, finished'.nodesAt_eni, excludes.filter_enis finished.built finished'.built other]

end Reads

/-! ## Two runs -/

section Runs

variable {accountId : String} {first second : Sdk.Collections} {ref : NodeRef Label}
  (excludes : Excludes ref first second)

include excludes

variable {Schema : Type} {execute : String → Schema → Option Schema} {files : List (String × String)}
  {isUppercase : Char → Bool} {initial : Schema} {store store' : Store Schema} {clock clock' : ℕ → String}
  {selectors : BoundarySelectors} {run run' : AuditRun}
  (reaches : Reaches (AnyProcess execute files isUppercase) ⟨.empty initial, PropertyGraph.empty⟩ store)
  (ran : Audit.runWithEc2Client clock selectors accountId first store.graph = .ok run)

include reaches ran

/-- Whichever processes have been run before on one database, two interfaces that do not read a resource have
the same candidates with it and without it, with the same addresses, rules and route. -/
theorem exclusion_keeps_candidates
    (ran' : Audit.runWithEc2Client clock' selectors accountId second store.graph = .ok run')
    {candidate : PathCandidate} (ofSource : ¬ Visits run.ingested.graph candidate.source.eniId ref)
    (ofDestination : ¬ Visits run.ingested.graph candidate.destination.eniId ref) :
    candidate ∈ run.candidates ↔ candidate ∈ run'.candidates := by
  obtain ⟨table, stored, _⟩ :=
    storesOnly_of_reaches (p := fun _ => True) (fun _ _ _ _ _ _ _ => trivial) reaches
  obtain ⟨_, assembled, _⟩ := runWithEc2Client_ok ran
  obtain ⟨_, assembled', _⟩ := runWithEc2Client_ok ran'
  obtain ⟨_, finished⟩ := exists_finished_of_ok stored ran
  obtain ⟨_, finished'⟩ := exists_finished_of_ok stored ran'
  exact mem_assembleCandidates_iff_of_readsAlike assembled assembled'
    (readsAlike_of_unvisited excludes finished finished' ofSource)
    (readsAlike_of_unvisited excludes finished finished' ofDestination)

end Runs

/-! ## Two peered VPCs -/

private def account : String := "111122223333"

private def https : Sdk.IpPermission where
  ipProtocol := some "tcp"
  fromPort := some 443
  toPort := some 443
  ipRanges := [⟨some "10.0.0.0/8"⟩]

private def eniAt (eniId vpcId subnetId privateIp groupId : String) : Sdk.NetworkInterface :=
  { networkInterfaceId := some eniId
    vpcId := some vpcId
    subnetId := some subnetId
    privateIpAddress := some privateIp
    groups := [⟨some groupId⟩] }

private def openEntry (egress : Bool) (ruleNumber : ℤ) : Sdk.NetworkAclEntry :=
  { cidrBlock := some "0.0.0.0/0"
    egress := some egress
    protocol := some "-1"
    ruleAction := some .allow
    ruleNumber := some ruleNumber }

private def aclAt (networkAclId vpcId subnetId : String) (isDefault : Option Bool) : Sdk.NetworkAcl :=
  { networkAclId := some networkAclId
    vpcId := some vpcId
    isDefault
    associations := [⟨some subnetId⟩]
    entries := [openEntry false 100, openEntry true 101] }

private def routeTableAt (routeTableId vpcId subnetId : String) : Sdk.RouteTable :=
  { routeTableId := some routeTableId
    vpcId := some vpcId
    associations := [{ subnetId := some subnetId }]
    routes := [{ destinationCidrBlock := some "10.0.0.0/8", vpcPeeringConnectionId := some "pcx-1" }] }

private def peered : Sdk.Collections :=
  { securityGroups := [
      { groupId := some "sg-1", vpcId := some "vpc-1", groupName := some "app", ipPermissionsEgress := [https] },
      { groupId := some "sg-2", vpcId := some "vpc-2", groupName := some "data", ipPermissions := [https] }]
    networkAcls := [aclAt "acl-1" "vpc-1" "subnet-1" (some false)]
    routeTables := [routeTableAt "rtb-1" "vpc-1" "subnet-1", routeTableAt "rtb-2" "vpc-2" "subnet-2"]
    networkInterfaces := [
      eniAt "eni-1" "vpc-1" "subnet-1" "10.1.0.1" "sg-1", eniAt "eni-2" "vpc-2" "subnet-2" "10.2.0.1" "sg-2"]
    vpcPeeringConnections := [{
      vpcPeeringConnectionId := some "pcx-1"
      requesterVpcInfo := some ⟨some "vpc-1", some account⟩
      accepterVpcInfo := some ⟨some "vpc-2", some account⟩ }] }

/-- The two VPCs, each end's subnet and a third one with a network ACL. -/
private def peeredWith (second third : Option Bool) : Sdk.Collections :=
  { peered with networkAcls := [aclAt "acl-1" "vpc-1" "subnet-1" (some false),
      aclAt "acl-2" "vpc-2" "subnet-2" second, aclAt "acl-3" "vpc-2" "subnet-3" third] }

private theorem excludes_acl (before after : List Sdk.NetworkAcl) (networkAclId vpcId subnetId : String) :
    Excludes ⟨.networkAcl, networkAclId⟩
      { peered with networkAcls := before ++ aclAt networkAclId vpcId subnetId (some false) :: after }
      { peered with networkAcls := before ++ aclAt networkAclId vpcId subnetId none :: after } := by
  refine @Excludes.networkAcl _ peered _ _ _ _ ?_ ?_
  · intro id named
    cases named
    rfl
  · rintro ⟨_, _, given⟩
    cases given

private def auditOf (second third : Option Bool) : Except Audit.RunError AuditRun :=
  Audit.runWithEc2Client (fun _ => "") ⟨["vpc-2"], [], []⟩ account (peeredWith second third) PropertyGraph.empty

private theorem exists_audit {α : Type} {second third : Option Bool} {shows' : AuditRun → α} {shown : α}
    (decided : (auditOf second third).toOption.map shows' = some shown) :
    ∃ run, auditOf second third = .ok run ∧ shows' run = shown := by
  obtain ⟨run, ran, same⟩ := Option.map_eq_some_iff.mp decided
  rcases result : auditOf second third with error | run'
  · rw [result] at ran
    cases ran
  · rw [result] at ran
    cases ran
    exact ⟨run, rfl, same⟩

private theorem reaches_fresh :
    Reaches (AnyProcess executed oneMigration Char.isUpper) ⟨.empty [], PropertyGraph.empty⟩
      ⟨.empty [], PropertyGraph.empty⟩ := .start

/-- The pairs, and how many rules each one's network ACL at the destination has. -/
private def pairsOf (run : AuditRun) : List (String × String × ℕ) :=
  run.candidates.map fun candidate =>
    (candidate.source.eniId, candidate.destination.eniId, candidate.destination.naclRules.length)

/-- Where an interface reads its network ACLs. -/
private def aclsOf (eniId : String) (run : AuditRun) : List String × List String :=
  let subnetIds := subnetsOf run.ingested.graph eniId
  (subnetIds, subnetIds.flatMap fun subnetId =>
    targets run.ingested.graph .protectedBy ⟨.subnet, subnetId⟩ .networkAcl)

private theorem unvisited_of_aclsOf {run : AuditRun} {eniId networkAclId : String}
    (absent : networkAclId ∉ (aclsOf eniId run).2) :
    ¬ Visits run.ingested.graph eniId ⟨.networkAcl, networkAclId⟩ := by
  rintro ⟨⟩
  next subnetId subnet protects => exact absent (List.mem_flatMap.mpr ⟨subnetId, subnet, protects⟩)

/-- The network ACL of a third subnet is not read by the pair. -/
theorem exclusion_keeps_candidates_thirdAcl : ∃ run run' candidate,
    auditOf (some false) (some false) = .ok run ∧ auditOf (some false) none = .ok run' ∧
      (candidate.source.eniId, candidate.destination.eniId, candidate.destination.naclRules.length) =
        ("eni-1", "eni-2", 2) ∧ candidate ∈ run.candidates ∧ candidate ∈ run'.candidates := by
  obtain ⟨run, ran, shown⟩ := @exists_audit _ (some false) (some false)
    (fun run => (pairsOf run, (aclsOf "eni-1" run).2, (aclsOf "eni-2" run).2))
    ([("eni-1", "eni-2", 2)], ["acl-1"], ["acl-2"]) (by decide +kernel)
  obtain ⟨run', ran', _⟩ := @exists_audit _ (some false) none pairsOf [("eni-1", "eni-2", 2)] (by decide +kernel)
  obtain ⟨pairs, first, second⟩ := Prod.mk.inj shown |>.imp_right Prod.mk.inj
  obtain ⟨candidate, only, ends⟩ := List.map_eq_singleton_iff.mp pairs
  have member : candidate ∈ run.candidates := only ▸ List.mem_singleton_self candidate
  obtain ⟨source, destination, _⟩ := Prod.mk.inj ends |>.imp_right Prod.mk.inj
  have excludes := excludes_acl [aclAt "acl-1" "vpc-1" "subnet-1" (some false),
    aclAt "acl-2" "vpc-2" "subnet-2" (some false)] [] "acl-3" "vpc-2" "subnet-3"
  have kept : candidate ∈ run.candidates ↔ candidate ∈ run'.candidates := exclusion_keeps_candidates excludes
    reaches_fresh ran ran'
    (by rw [source]; exact unvisited_of_aclsOf (by rw [first]; decide))
    (by rw [destination]; exact unvisited_of_aclsOf (by rw [second]; decide))
  exact ⟨run, run', candidate, ran, ran', ends, member, kept.mp member⟩

end NetHound.Soundness
