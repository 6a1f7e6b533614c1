import NetHound.Audit.Stages
import NetHound.Evaluate.Frame
import NetHound.Ingest.Origin

/-! # Audits of other accounts

An audit writes nodes of its own batch and relationships that start at them. One that maps nothing of a set of
nodes keeps the graph as it is on that set, wherever it fails or stops; and candidates between interfaces that
visit only nodes of the set stay what they were, over any number of such audits.
-/

namespace NetHound.Soundness

open Audit Audit.Session Domain Graph Graph.Session Cypher Evaluate Ingest Ingest.Aws Migrations Interruptible
  Interruptible.Program

/-! ## Writes -/

section Steps

variable {own : NodeRef Label → Bool}

/-- The statement writes no node of a set, and no relationship that starts in it. -/
def WritesOutside (own : NodeRef Label → Bool) : Step → Prop
  | .nodes label chunk => ∀ row ∈ chunk.map (nodeUpsert label), own row.ref = false
  | .edges chunk => ∀ c ∈ chunk.merges, own c.source = false

private theorem agreeOn_step {step : Step} (outside : WritesOutside own step) (graph : Neo4jGraph) :
    PropertyGraph.AgreeOn own graph (leftBy (step.write graph)) := by
  cases step with
  | nodes label chunk => exact PropertyGraph.agreeOn_mergeNodes outside graph
  | edges chunk =>
    rcases leftBy_runEdgeChunk chunk graph with same | ⟨merged, unwound⟩
    · rw [Step.write, same]
      exact .refl graph
    · exact PropertyGraph.agreeOn_unwind outside unwound

private theorem agreeOn_leftAfter {steps : List Step} (outside : ∀ step ∈ steps, WritesOutside own step)
    {graph left : Neo4jGraph} (leftAfter : LeftAfter steps graph left) : PropertyGraph.AgreeOn own graph left := by
  have kept : ∀ step ∈ steps, ∀ middle, PropertyGraph.AgreeOn own graph middle →
      PropertyGraph.AgreeOn own graph (leftBy (step.write middle)) :=
    fun step member middle agree => agree.trans (agreeOn_step (outside step member) middle)
  exact leftAfter.invariant kept (.refl graph)

/-- No node of the batch is in the set. -/
def MapsOutside (own : NodeRef Label → Bool) (batch : GraphBatch) : Prop :=
  ∀ label, ∀ id ∈ batchIds batch label, own ⟨label, id⟩ = false

variable {accountId : String} {collections : Sdk.Collections} {batch : GraphBatch}

private theorem outside_batchSteps (built : Built accountId collections batch)
    (outside : MapsOutside own batch) : ∀ step ∈ Ingest.Session.batchSteps batch, WritesOutside own step := by
  intro step member
  rcases Ingest.Session.mem_batchSteps member with ⟨label, chunk, rfl, rows⟩ | ⟨chunk, rfl, written⟩
  · intro row inChunk
    exact outside row.ref.label row.ref.id (mem_nodeRows_iff.mp (List.mem_map_of_mem (rows row inChunk)))
  · intro c inChunk
    exact outside c.source.label c.source.id (built.source_written c (written c inChunk))

end Steps

/-! ## Runs -/

section Runs

variable {Schema : Type} {execute : String → Schema → Option Schema} {files : List (String × String)}
  {isUppercase : Char → Bool} {own : NodeRef Label → Bool} {graph : Neo4jGraph}

/-- An audit of whichever account that maps nothing of a set of nodes. -/
def AuditsElsewhere (execute : String → Schema → Option Schema) (files : List (String × String))
    (isUppercase : Char → Bool) (own : NodeRef Label → Bool)
    (run : Program (Store Schema) Session.RunError Audit.Outcome) : Prop :=
  ∃ (account : Account) (environment : Environment) (config : ValidatedConfig isUppercase),
    (∀ accountId batch, Identified account config accountId →
      Mapped environment.schedule (account.client ⟨config.region⟩) accountId batch → MapsOutside own batch) ∧
    run = Session.run execute files account environment config

/-- Every audit writes a boundary, which no interface visits. -/
private def resources (own : NodeRef Label → Bool) (ref : NodeRef Label) : Bool :=
  own ref && ref.label != .regulatedBoundary

private theorem agreeOn_withBoundary (accountId : String) (graph : Neo4jGraph) :
    PropertyGraph.AgreeOn (resources own) graph (withBoundary accountId graph) := by
  apply PropertyGraph.agreeOn_mergeNodes
  intro row member
  rw [List.mem_singleton.mp member]
  exact Bool.and_false _

private theorem agreeOn_stopsAudit {environment : Environment} {client : Ec2Client} {accountId : String}
    (outside : ∀ batch, Mapped environment.schedule client accountId batch → MapsOutside own batch)
    {left : Neo4jGraph} (stops : StopsAudit environment client accountId graph left) :
    PropertyGraph.AgreeOn (resources own) graph left := by
  rcases stops with rfl | rfl | ⟨batch, mapped, leftAfter⟩
  · exact .refl _
  · exact agreeOn_withBoundary accountId graph
  · have resourcesOutside : MapsOutside (resources own) batch := by
      intro label id member
      rw [resources, outside batch mapped label id member, Bool.false_and]
    obtain ⟨collections, _, built⟩ := mapped
    exact (agreeOn_withBoundary accountId graph).trans
      (agreeOn_leftAfter (outside_batchSteps (buildGraphBatch_ok built) resourcesOutside) leftAfter)

private theorem ensures_agreeOn {run : Program (Store Schema) Session.RunError Audit.Outcome}
    (elsewhere : AuditsElsewhere execute files isUppercase own run) :
    Ensures (fun store : Store Schema => PropertyGraph.AgreeOn (resources own) graph store.graph) run
      (fun _ store => PropertyGraph.AgreeOn (resources own) graph store.graph)
      (fun store => PropertyGraph.AgreeOn (resources own) graph store.graph) := by
  obtain ⟨account, environment, config, outside, rfl⟩ := elsewhere
  have kept (accountId : String) (middle left : Neo4jGraph) (identified : Identified account config accountId)
      (agree : PropertyGraph.AgreeOn (resources own) graph middle)
      (stops : StopsAudit environment (account.client ⟨config.region⟩) accountId middle left) :
      PropertyGraph.AgreeOn (resources own) graph left :=
    agree.trans (agreeOn_stopsAudit (fun batch => outside accountId batch identified) stops)
  exact ensures_run_graph config kept

private theorem resources_of_visits {eniId : String} (visited : ∀ ref, Visits graph eniId ref → own ref = true) :
    ∀ ref, Visits graph eniId ref → resources own ref = true := by
  intro ref visits
  rw [resources, visited ref visits]
  cases visits <;> rfl

/-- Whatever audits that map nothing of a set of nodes have been run since, and wherever they failed or were
stopped, the candidates between two interfaces that visit only nodes of the set are the same, with the same
addresses, rules and route. -/
theorem audits_elsewhere_keep_candidates {store store' : Store Schema}
    (reaches : Reaches (AuditsElsewhere execute files isUppercase own) store store') {boundaryId : String}
    {selectors : BoundarySelectors} {candidates candidates' : List PathCandidate}
    (assembled : Evaluate.assembleCandidates store.graph boundaryId selectors = .ok candidates)
    (assembled' : Evaluate.assembleCandidates store'.graph boundaryId selectors = .ok candidates')
    {candidate : PathCandidate} (ofSource : ∀ ref, Visits store.graph candidate.source.eniId ref → own ref = true)
    (ofDestination : ∀ ref, Visits store.graph candidate.destination.eniId ref → own ref = true) :
    candidate ∈ candidates ↔ candidate ∈ candidates' := by
  have agree : PropertyGraph.AgreeOn (resources own) store.graph store'.graph :=
    reaches.invariant (.refl store.graph) fun _ => ensures_agreeOn
  exact mem_assembleCandidates_iff_of_readsAlike assembled assembled'
    (readsAlike_of_agreeOn (resources_of_visits ofSource) agree)
    (readsAlike_of_agreeOn (resources_of_visits ofDestination) agree)

end Runs

/-! ## A neighbour's audit that is stopped in its writes -/

private def insideBatch : GraphBatch where
  enis := [⟨"eni-1", "111122223333", "vpc-1", "subnet-1", "10.1.0.1", none⟩,
    ⟨"eni-2", "111122223333", "vpc-2", "subnet-2", "10.2.0.1", none⟩]
  securityGroups := [⟨"sg-1", "111122223333", "vpc-1", "app", none⟩]
  networkAcls := []
  subnets := []
  vpcs := []
  routeTables := []
  edges := [.hasSg ⟨"eni-1", "sg-1"⟩]

private def insideStore : Store (List String) :=
  ⟨.empty [], leftBy (Ingest.writeBatch insideBatch PropertyGraph.empty)⟩

private def inside (ref : NodeRef Label) : Bool := ref.id ∈ ["eni-1", "eni-2", "sg-1"]

private def neighbour : Account where
  identity _ := .ok (some "444455556666")
  client _ := ⟨fun
    | .networkInterfaces => [
        .ok ⟨some [{
          networkInterfaceId := some "eni-9"
          vpcId := some "vpc-9"
          subnetId := some "subnet-9"
          privateIpAddress := some "10.9.0.1"
          groups := [⟨some "sg-9"⟩] }]⟩]
    | .securityGroups =>
        [.ok ⟨some [{ groupId := some "sg-9", vpcId := some "vpc-9", groupName := some "web" }]⟩]
    | _ => [.ok ⟨none⟩]⟩

private def neighbourRun : Program (Store (List String)) Session.RunError Audit.Outcome :=
  Session.run executed oneMigration neighbour (readyWith Collector.all) (validatedSelecting "vpc-9")

private def batchNodeIds (batch : GraphBatch) : List String :=
  [.eni, .securityGroup, .networkAcl, .subnet, .vpc, .routeTable, .regulatedBoundary].flatMap (batchIds batch)

private theorem neighbourRun_elsewhere :
    AuditsElsewhere executed oneMigration Char.isUpper inside neighbourRun := by
  refine ⟨neighbour, readyWith Collector.all, validatedSelecting "vpc-9", ?_, rfl⟩
  have mapped : ((collect Collector.all (neighbour.client ⟨"eu-west-1"⟩)).bind
      Except.toOption).bind (fun collections =>
        (Topology.buildGraphBatch "444455556666" collections).2.toOption.map batchNodeIds) =
      some ["eni-9", "sg-9", "subnet-9", "vpc-9"] := by decide +kernel
  rintro accountId batch identified ⟨collections, collected, built⟩ label id member
  obtain rfl : "444455556666" = accountId := Option.some.inj (Except.ok.inj identified)
  have ofBatch : id ∈ batchNodeIds batch :=
    List.mem_flatMap.mpr ⟨label, by cases label <;> decide, member⟩
  change collect Collector.all (neighbour.client ⟨"eu-west-1"⟩) = _ at collected
  rw [collected] at mapped
  change (Topology.buildGraphBatch "444455556666" collections).2.toOption.map batchNodeIds = _ at mapped
  rw [built] at mapped
  rw [Option.some.inj mapped] at ofBatch
  have outside : ∀ id ∈ ["eni-9", "sg-9", "subnet-9", "vpc-9"], id ∉ ["eni-1", "eni-2", "sg-1"] := by decide
  exact decide_eq_false (outside id ofBatch)

private def assembledIn (store : Store (List String)) : Except CandidateAssemblyError (List PathCandidate) :=
  Evaluate.assembleCandidates store.graph "boundary-111122223333" ⟨["vpc-2"], [], []⟩

private def stoppedNeighbour : Store (List String) :=
  (neighbourRun ⟨insideStore, List.replicate 15 .done ++ [.stops true]⟩).2.store

private theorem exists_candidates {store : Store (List String)} {pairs : List (String × String)}
    (decided : (assembledIn store).toOption.map (fun candidates =>
      candidates.map fun candidate => (candidate.source.eniId, candidate.destination.eniId)) = some pairs) :
    ∃ candidates, assembledIn store = .ok candidates ∧
      candidates.map (fun candidate => (candidate.source.eniId, candidate.destination.eniId)) = pairs := by
  obtain ⟨candidates, assembled, same⟩ := Option.map_eq_some_iff.mp decided
  rcases result : assembledIn store with error | candidates'
  · rw [result] at assembled
    cases assembled
  · rw [result] at assembled
    cases assembled
    exact ⟨candidates, rfl, same⟩

private theorem visits_inside {eniId : String} (known : eniId ∈ ["eni-1", "eni-2"]) :
    ∀ ref, Visits insideStore.graph eniId ref → inside ref = true := by
  have noSubnet : ∀ eniId ∈ ["eni-1", "eni-2"], subnetsOf insideStore.graph eniId = [] := by decide +kernel
  have groups : ∀ eniId ∈ ["eni-1", "eni-2"], ∀ group ∈ securityGroupsOf insideStore.graph eniId,
      group = "sg-1" := by decide +kernel
  intro ref visits
  cases visits with
  | eni =>
    have own : ∀ eniId ∈ ["eni-1", "eni-2"], eniId ∈ ["eni-1", "eni-2", "sg-1"] := by decide
    exact decide_eq_true (own eniId known)
  | securityGroup group =>
    rw [groups eniId known _ group]
    rfl
  | subnet subnet | networkAcl subnet _ | routeTable subnet _ =>
    rw [noSubnet eniId known] at subnet
    cases subnet

theorem audits_elsewhere_keep_candidates_stopped : ∃ candidates candidates' candidate,
    assembledIn insideStore = .ok candidates ∧ assembledIn stoppedNeighbour = .ok candidates' ∧
      candidates'.length = 2 ∧ candidate ∈ candidates ∧ candidate ∈ candidates' := by
  obtain ⟨candidates, assembled, pairs⟩ := @exists_candidates insideStore [("eni-1", "eni-2")] (by decide +kernel)
  obtain ⟨candidates', assembled', pairs'⟩ := @exists_candidates stoppedNeighbour
    [("eni-1", "eni-2"), ("eni-9", "eni-2")] (by decide +kernel)
  obtain ⟨candidate, rfl, ends⟩ := List.map_eq_singleton_iff.mp pairs
  obtain ⟨source, destination⟩ := Prod.mk.inj ends
  have two : candidates'.length = 2 := by
    rw [← List.length_map, pairs']
    rfl
  have reaches : Reaches (AuditsElsewhere executed oneMigration Char.isUpper inside) insideStore stoppedNeighbour :=
    .run neighbourRun_elsewhere _ .start
  have kept := (@audits_elsewhere_keep_candidates _ _ _ _ inside _ _ reaches _ _ _ _ assembled assembled' candidate
    (by rw [source]; exact visits_inside List.mem_cons_self)
    (by rw [destination]; exact visits_inside (List.mem_cons_of_mem _ List.mem_cons_self))).mp
      (List.mem_singleton_self candidate)
  exact ⟨_, candidates', candidate, assembled, assembled', two, List.mem_singleton_self candidate, kept⟩

end NetHound.Soundness
