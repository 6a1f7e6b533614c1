import NetHound.Graph.Replay
import NetHound.ToMathlib.InterruptedRuns

/-! # The writer over a connection

The upserts of `graph/neo4j.rs` as programs whose calls may fail or be the last thing the process does. A
node statement is one call. An edge statement is two, `execute` and the `next` that pulls its only row, and
its transaction commits with the second; the row's count is checked after that. A `Step` is one statement:
interrupted or not, a run of steps leaves what the writer leaves after the first of them.
-/

namespace NetHound.Graph.Session

open Domain Cypher Interruptible Interruptible.Program

/-- The source of a `GraphWriteError::Write`: the driver's, or the writer's own. -/
inductive WriteError where
  | driver
  | refused (error : GraphWriteError)
deriving DecidableEq, Repr

abbrev Client (α : Type) : Type := Program Neo4jGraph WriteError α

def runNodeChunk (label : Label) (chunk : List NodeRow) : Client Unit :=
  request .driver fun graph => some ((), graph.mergeNodes (chunk.map (nodeUpsert label)))

def runNodeUpsert (label : Label) (rows : List NodeRow) : Client Unit :=
  forM (chunkRows rows batchSize) (runNodeChunk label)

/-- What an edge statement returns and leaves; a null in its pattern makes it fail. -/
def edgeEffect (query : EdgeQuery) (chunk : List Row) (graph : Neo4jGraph) : Option (ℕ × Neo4jGraph) :=
  (graph.unwind (chunk.filterMap query.merge)).toOption.map Prod.swap

def runEdgeChunk (query : EdgeQuery) (chunk : List Row) : Client Unit := do
  request .driver fun graph => some ((), graph)
  let merged ← request .driver (edgeEffect query chunk)
  if merged ≠ chunk.length then
    if chunk.length < merged then fail (.refused (.countOverflow query.relType merged chunk.length))
    else fail (.refused (.unresolvedEndpoint query.relType (chunk.length - merged) chunk.length))
  else pure ()

def runEdgeUpsert (query : EdgeQuery) (rows : List Row) : Client Unit :=
  forM (chunkRows rows batchSize) (runEdgeChunk query)

/-! ## Upserts -/

def upsertEnis (enis : List EniRecord) : Client Unit := runNodeUpsert .eni (enis.map eniRow)

def upsertSecurityGroups (securityGroups : List SecurityGroupRecord) : Client Unit :=
  runNodeUpsert .securityGroup (securityGroups.map securityGroupRow)

def upsertNetworkAcls (networkAcls : List NetworkAclRecord) : Client Unit :=
  runNodeUpsert .networkAcl (networkAcls.map networkAclRow)

def upsertSubnets (subnets : List SubnetRecord) : Client Unit :=
  runNodeUpsert .subnet (subnets.map subnetRow)

def upsertVpcs (vpcs : List VpcRecord) : Client Unit := runNodeUpsert .vpc (vpcs.map vpcRow)

def upsertRouteTables (routeTables : List RouteTableRecord) : Client Unit :=
  runNodeUpsert .routeTable (routeTables.map routeTableRow)

def upsertRegulatedBoundaries (boundaries : List RegulatedBoundaryRecord) : Client Unit :=
  runNodeUpsert .regulatedBoundary (boundaries.map regulatedBoundaryRow)

def upsertHasSgEdges (edges : List HasSgEdge) : Client Unit :=
  runEdgeUpsert hasSgUpsert (edges.map hasSgRow)

def upsertInSubnetEdges (edges : List InSubnetEdge) : Client Unit :=
  runEdgeUpsert inSubnetUpsert (edges.map inSubnetRow)

def upsertProtectedByEdges (edges : List ProtectedByEdge) : Client Unit :=
  runEdgeUpsert protectedByUpsert (edges.map protectedByRow)

def upsertUsesRouteTableEdges (edges : List UsesRouteTableEdge) : Client Unit :=
  runEdgeUpsert usesRouteTableUpsert (edges.map usesRouteTableRow)

/-- An inconsistent edge is found before the first call. -/
def upsertRoutesToEdges (edges : List RoutesToEdge) : Client Unit :=
  let rows := splitRouteRows edges
  match rows.inconsistency with
  | some edge => fail (.refused (.inconsistentRoute edge))
  | none => do
      runEdgeUpsert routesToResolvedUpsert rows.resolvedRows
      runEdgeUpsert routesToUnresolvedUpsert rows.unresolvedRows

def upsertAllowsEgressRules (batches : List SgRuleBatch) : Client Unit := do
  let rows := splitSgRuleRows batches
  runEdgeUpsert allowsEgressCidrUpsert rows.cidrRows
  runEdgeUpsert allowsEgressSgRefResolvedUpsert rows.sgRefResolvedRows
  runEdgeUpsert allowsEgressSgRefUnresolvedUpsert rows.sgRefUnresolvedRows

def upsertAllowsIngressRules (batches : List SgRuleBatch) : Client Unit := do
  let rows := splitSgRuleRows batches
  runEdgeUpsert allowsIngressCidrUpsert rows.cidrRows
  runEdgeUpsert allowsIngressSgRefResolvedUpsert rows.sgRefResolvedRows
  runEdgeUpsert allowsIngressSgRefUnresolvedUpsert rows.sgRefUnresolvedRows

def upsertHasRules (batches : List NaclRuleBatch) : Client Unit :=
  runEdgeUpsert hasRuleUpsert
    (batches.flatMap fun batch => batch.rules.map (naclRuleRow batch.networkAclId))

/-! ## Steps -/

/-- One statement with its parameter rows. -/
inductive Step where
  | nodes (label : Label) (chunk : List NodeRow)
  | edges (chunk : Chunk)

def Step.run : Step → Client Unit
  | .nodes label chunk => runNodeChunk label chunk
  | .edges chunk => runEdgeChunk chunk.1 chunk.2

/-- What a step does when nothing fails but the statement. -/
def Step.write : Step → Write
  | .nodes label chunk => fun graph => .ok (graph.mergeNodes (chunk.map (nodeUpsert label)))
  | .edges chunk => Graph.runEdgeChunk chunk.1 chunk.2

def runSteps : List Step → Write
  | [], graph => .ok graph
  | step :: steps, graph => step.write graph >>= runSteps steps

theorem runSteps_append (steps more : List Step) (graph : Neo4jGraph) :
    runSteps (steps ++ more) graph = (runSteps steps graph >>= fun graph => runSteps more graph) := by
  induction steps generalizing graph with
  | nil => rfl
  | cons step steps ih =>
    rw [List.cons_append, runSteps, runSteps]
    rcases step.write graph with failure | middle
    · rfl
    · exact ih middle

/-- The steps of a node upsert, and of an edge upsert. -/
def nodeSteps (label : Label) (rows : List NodeRow) : List Step :=
  (chunkRows rows batchSize).map (.nodes label)

def edgeSteps (query : EdgeQuery) (rows : List Row) : List Step :=
  (chunkRows rows batchSize).map fun chunk => .edges (query, chunk)

theorem runNodeUpsert_eq_forM (label : Label) (rows : List NodeRow) :
    runNodeUpsert label rows = forM (nodeSteps label rows) Step.run := by
  rw [nodeSteps, List.forM_map]
  rfl

theorem runEdgeUpsert_eq_forM (query : EdgeQuery) (rows : List Row) :
    runEdgeUpsert query rows = forM (edgeSteps query rows) Step.run := by
  rw [edgeSteps, List.forM_map]
  rfl

/-- The steps of several edge upserts. -/
def statementSteps (statements : List Statement) : List Step :=
  statements.flatMap fun statement => edgeSteps statement.1 statement.2

theorem statementSteps_eq (statements : List Statement) :
    statementSteps statements = (chunksOf statements).map .edges := by
  rw [statementSteps, chunksOf, List.map_flatMap]
  simp only [List.map_map]
  rfl

theorem upsertRoutesToEdges_eq_forM {edges : List RoutesToEdge}
    (consistent : ∀ edge ∈ edges, edge.Consistent) :
    upsertRoutesToEdges edges = forM (statementSteps (routeStatements edges)) Step.run := by
  simp only [upsertRoutesToEdges, statementSteps, routeStatements, splitRouteRows_eq consistent,
    runEdgeUpsert_eq_forM, List.flatMap_cons, List.flatMap_nil, List.append_nil, List.forM_append]

theorem upsertAllowsEgressRules_eq_forM (batches : List SgRuleBatch) :
    upsertAllowsEgressRules batches = forM (statementSteps (sgRuleStatements .egress batches)) Step.run := by
  simp only [upsertAllowsEgressRules, statementSteps, sgRuleStatements, runEdgeUpsert_eq_forM,
    List.flatMap_cons, List.flatMap_nil, List.append_nil, List.forM_append]

theorem upsertAllowsIngressRules_eq_forM (batches : List SgRuleBatch) :
    upsertAllowsIngressRules batches = forM (statementSteps (sgRuleStatements .ingress batches)) Step.run := by
  simp only [upsertAllowsIngressRules, statementSteps, sgRuleStatements, runEdgeUpsert_eq_forM,
    List.flatMap_cons, List.flatMap_nil, List.append_nil, List.forM_append]

/-! ## What a step leaves -/

/-- The graph is what the writer leaves after the first of the steps. -/
def LeftAfter (steps : List Step) (graph₀ graph : Neo4jGraph) : Prop :=
  ∃ landed later, steps = landed ++ later ∧ graph = leftBy (runSteps landed graph₀)

/-- How a run of steps fails: in the driver, after the first of them, or where the writer refuses one. -/
def FailedWith (steps : List Step) (graph₀ : Neo4jGraph) : WriteError → Neo4jGraph → Prop
  | .driver, graph => LeftAfter steps graph₀ graph
  | .refused error, graph => ∃ landed later, steps = landed ++ later ∧
      runSteps landed graph₀ = .error ⟨error, graph⟩

theorem FailedWith.leftAfter {steps : List Step} {graph₀ graph : Neo4jGraph} {error : WriteError}
    (failed : FailedWith steps graph₀ error graph) : LeftAfter steps graph₀ graph := by
  cases error with
  | driver => exact failed
  | refused error =>
    obtain ⟨landed, later, all, refused⟩ := failed
    exact ⟨landed, later, all, by rw [refused]; rfl⟩

private theorem runSteps_invariant {inv : Neo4jGraph → Prop} {steps : List Step}
    (kept : ∀ step ∈ steps, ∀ graph, inv graph → inv (leftBy (step.write graph))) {graph : Neo4jGraph}
    (holds : inv graph) : inv (leftBy (runSteps steps graph)) := by
  induction steps generalizing graph with
  | nil => exact holds
  | cons step steps ih =>
    obtain ⟨keptFirst, keptRest⟩ := List.forall_mem_cons.mp kept
    have stepped := keptFirst graph holds
    rw [runSteps]
    rcases ran : step.write graph with failure | middle <;> rw [ran] at stepped
    · exact stepped
    · exact ih keptRest stepped

/-- What every step keeps, however it ends, holds wherever the steps stop. -/
theorem LeftAfter.invariant {inv : Neo4jGraph → Prop} {steps : List Step} {graph₀ graph : Neo4jGraph}
    (left : LeftAfter steps graph₀ graph)
    (kept : ∀ step ∈ steps, ∀ graph, inv graph → inv (leftBy (step.write graph))) (holds : inv graph₀) :
    inv graph := by
  obtain ⟨landed, later, rfl, rfl⟩ := left
  exact runSteps_invariant (fun step member => kept step (List.mem_append_left later member)) holds

private theorem runSteps_singleton (step : Step) (graph : Neo4jGraph) : runSteps [step] graph = step.write graph := by
  change (step.write graph >>= fun graph => .ok graph) = step.write graph
  cases step.write graph <;> rfl

private theorem leftAfter_start (step : Step) (graph₀ : Neo4jGraph) : LeftAfter [step] graph₀ graph₀ :=
  ⟨[], [step], rfl, rfl⟩

private theorem leftAfter_end {step : Step} {graph₀ graph : Neo4jGraph} (left : graph = leftBy (step.write graph₀)) :
    LeftAfter [step] graph₀ graph :=
  ⟨[step], [], rfl, by rw [runSteps_singleton, left]⟩

theorem leads_runStep (step : Step) (graph₀ : Neo4jGraph) :
    Leads (· = graph₀) step.run (fun _ graph => step.write graph₀ = .ok graph) (FailedWith [step] graph₀)
      (LeftAfter [step] graph₀) := by
  cases step with
  | nodes label chunk =>
    have landed (graph : Neo4jGraph) (applied : some ((), graph₀.mergeNodes (chunk.map (nodeUpsert label))) =
        some ((), graph)) : graph = leftBy ((Step.nodes label chunk).write graph₀) := by
      cases applied
      rfl
    apply leads_request
    · rintro _ _ _ rfl applied
      cases applied
      rfl
    · rintro _ rfl
      exact leftAfter_start _ _
    · rintro _ _ graph rfl applied
      exact leftAfter_end (landed graph applied)
    · rintro _ rfl
      exact leftAfter_start _ _
    · rintro _ _ graph rfl applied
      exact leftAfter_end (landed graph applied)
  | edges chunk =>
    have sent : Leads (· = graph₀) (request .driver fun graph => some ((), graph) : Client Unit)
        (fun _ => (· = graph₀)) (FailedWith [.edges chunk] graph₀) (LeftAfter [.edges chunk] graph₀) := by
      apply leads_request
      · rintro _ _ _ rfl applied
        cases applied
        rfl
      · rintro _ rfl
        exact leftAfter_start _ _
      · rintro _ _ _ rfl applied
        cases applied
        exact leftAfter_start _ _
      · rintro _ rfl
        exact leftAfter_start _ _
      · rintro _ _ _ rfl applied
        cases applied
        exact leftAfter_start _ _
    have unwound {merged : ℕ} {graph : Neo4jGraph}
        (applied : edgeEffect chunk.1 chunk.2 graph₀ = some (merged, graph)) :
        graph₀.unwind (chunk.2.filterMap chunk.1.merge) = .ok (graph, merged) := by
      rw [edgeEffect] at applied
      rcases ran : graph₀.unwind (chunk.2.filterMap chunk.1.merge) with field | ⟨after, count⟩
      · rw [ran] at applied
        cases applied
      · rw [ran] at applied
        cases applied
        rfl
    have landed {merged : ℕ} {graph : Neo4jGraph}
        (unwound : graph₀.unwind (chunk.2.filterMap chunk.1.merge) = .ok (graph, merged)) :
        graph = leftBy ((Step.edges chunk).write graph₀) := by
      rw [Step.write, Graph.runEdgeChunk, unwound]
      dsimp only
      split
      · split <;> rfl
      · rfl
    have pulled : Leads (· = graph₀) (request .driver (edgeEffect chunk.1 chunk.2) : Client ℕ)
        (fun merged graph => graph₀.unwind (chunk.2.filterMap chunk.1.merge) = .ok (graph, merged))
        (FailedWith [.edges chunk] graph₀) (LeftAfter [.edges chunk] graph₀) := by
      apply leads_request
      · rintro _ _ _ rfl applied
        exact unwound applied
      · rintro _ rfl
        exact leftAfter_start _ _
      · rintro _ _ _ rfl applied
        exact leftAfter_end (landed (unwound applied))
      · rintro _ rfl
        exact leftAfter_start _ _
      · rintro _ _ _ rfl applied
        exact leftAfter_end (landed (unwound applied))
    refine sent.bind fun _ => pulled.bind fun merged => ?_
    -- the count of a statement that has committed
    split
    · next differs =>
      split
      · next exceeds =>
        refine leads_fail fun graph unwound => ⟨[.edges chunk], [], rfl, ?_⟩
        rw [runSteps_singleton, Step.write, Graph.runEdgeChunk, unwound]
        dsimp only
        rw [if_pos differs, if_pos exceeds]
      · next falls =>
        refine leads_fail fun graph unwound => ⟨[.edges chunk], [], rfl, ?_⟩
        rw [runSteps_singleton, Step.write, Graph.runEdgeChunk, unwound]
        dsimp only
        rw [if_pos differs, if_neg falls]
    · next same =>
      apply leads_pure
      intro graph unwound
      rw [not_not.mp same] at unwound
      exact runEdgeChunk_eq_ok_iff.mpr unwound

/-- A run of steps that returns has written them all; one that is interrupted leaves what the writer leaves
after the first of them, and is refused only what the writer refuses. -/
theorem leads_runSteps (steps : List Step) (graph₀ : Neo4jGraph) :
    Leads (· = graph₀) (forM steps Step.run) (fun _ graph => runSteps steps graph₀ = .ok graph)
      (FailedWith steps graph₀) (LeftAfter steps graph₀) := by
  have loop := @leads_forM Neo4jGraph WriteError Step (LeftAfter steps graph₀) (FailedWith steps graph₀) steps
    Step.run (fun earlier graph => runSteps earlier graph₀ = .ok graph)
  refine (loop ?_).imp (fun graph same => by rw [same]; rfl) (fun _ _ written => written)
    (fun _ _ failed => failed) fun _ left => left
  intro earlier step later all
  constructor
  rintro ⟨graph, replies⟩ written
  -- a step from the graph the earlier ones wrote
  have extended (steps' : List Step) : runSteps (earlier ++ steps') graph₀ = runSteps steps' graph := by
    rw [runSteps_append, written]
    rfl
  have place {first rest : List Step} (split : [step] = first ++ rest) :
      steps = (earlier ++ first) ++ (rest ++ later) := by
    rw [all, List.append_assoc, ← List.append_assoc first, ← split]
    rfl
  have left (graph' : Neo4jGraph) (left : LeftAfter [step] graph graph') : LeftAfter steps graph₀ graph' := by
    obtain ⟨first, rest, split, rfl⟩ := left
    exact ⟨earlier ++ first, rest ++ later, place split, by rw [extended]⟩
  refine ((leads_runStep step graph).imp (fun _ same => same) ?_ ?_ left).ends ⟨graph, replies⟩ rfl
  · intro _ after stepped
    rw [extended, runSteps_singleton, stepped]
  · intro error graph' failed
    cases error with
    | driver => exact left graph' failed
    | refused error =>
      obtain ⟨first, rest, split, refused⟩ := failed
      exact ⟨earlier ++ first, rest ++ later, place split, by rw [extended, refused]⟩

/-- Steps the writer would get through complete. -/
theorem completes_runSteps {steps : List Step} {graph graph' : Neo4jGraph}
    (written : runSteps steps graph = .ok graph') : Completes (forM steps Step.run) graph ⟨⟩ graph' := by
  induction steps generalizing graph with
  | nil =>
    cases written
    exact completes_pure _ _
  | cons step steps ih =>
    obtain ⟨middle, first, rest⟩ := Except.bind_eq_ok_iff.mp written
    rw [List.forM_cons]
    have ran : Completes step.run graph ⟨⟩ middle := by
      cases step with
      | nodes label chunk =>
        cases first
        exact completes_request rfl
      | edges chunk =>
        have unwound := runEdgeChunk_eq_ok_iff.mp first
        have pulled : edgeEffect chunk.1 chunk.2 graph = some (chunk.2.length, middle) := by
          rw [edgeEffect, unwound]
          rfl
        refine (completes_request rfl).bind ((completes_request pulled).bind ?_)
        rw [if_neg (not_not_intro rfl)]
        exact completes_pure _ _
    exact ran.bind (ih rest)

/-! ## Tables -/

/-- A stored graph whose merges all have a property. -/
def StoresOnly (p : Merge → Prop) (graph : Neo4jGraph) : Prop :=
  ∃ table, Stored graph table ∧ ∀ c ∈ table, p c

/-- The merges a step may store have it. -/
def Step.Writes (p : Merge → Prop) : Step → Prop
  | .nodes _ _ => True
  | .edges chunk => ∀ c ∈ chunk.merges, Emitted c ∧ (c.Complete → p c)

theorem StoresOnly.mergeNodes {p : Merge → Prop} {graph : Neo4jGraph} (holds : StoresOnly p graph)
    (rows : List (NodeMerge Label Field BoltType)) : StoresOnly p (graph.mergeNodes rows) := by
  obtain ⟨table, stored, all⟩ := holds
  exact ⟨table, stored.mergeNodes rows, all⟩

/-- However a step ends, the graph stays a table: only complete merges are stored. -/
theorem StoresOnly.step {p : Merge → Prop} {step : Step} (writes : step.Writes p) {graph : Neo4jGraph}
    (holds : StoresOnly p graph) : StoresOnly p (leftBy (step.write graph)) := by
  cases step with
  | nodes label chunk => exact holds.mergeNodes _
  | edges chunk =>
    rcases leftBy_runEdgeChunk chunk graph with same | ⟨merged, unwound⟩
    · rw [Step.write, same]
      exact holds
    · obtain ⟨table, stored, all⟩ := holds
      have formedRows : FormedRows chunk.1 chunk.2 := fun c member => (writes c member).1.formed
      obtain ⟨complete, _, written⟩ := unwind_chunk stored.written
        (fun d member => (stored.emitted d member).formed) formedRows (by simp) unwound
      have stores (d : Merge) (member : d ∈ table.upserts RelMerge.key (graph.boundRows chunk.merges)) :
          Emitted d ∧ p d := by
        rcases List.mem_of_mem_upserts RelMerge.key member with inTable | bound
        · exact ⟨stored.emitted d inTable, all d inTable⟩
        · obtain ⟨emitted, kept⟩ := writes d (List.mem_of_mem_filter bound)
          exact ⟨emitted, kept (complete d bound)⟩
      exact ⟨_, ⟨written, fun d member => (stores d member).1⟩, fun d member => (stores d member).2⟩

/-- The steps of some node chunks and of the edge chunks after them. -/
def stepsOf (nodes : List (Label × List NodeRow)) (chunks : List Chunk) : List Step :=
  (nodes.map fun chunk => .nodes chunk.1 chunk.2) ++ chunks.map .edges

/-- The rows of some node chunks. -/
def rowsOf (nodes : List (Label × List NodeRow)) : List (NodeMerge Label Field BoltType) :=
  nodes.flatMap fun chunk => chunk.2.map (nodeUpsert chunk.1)

theorem runSteps_stepsOf (nodes : List (Label × List NodeRow)) (chunks : List Chunk) (graph : Neo4jGraph) :
    runSteps (stepsOf nodes chunks) graph = runChunks chunks (graph.mergeNodes (rowsOf nodes)) := by
  induction nodes generalizing graph with
  | nil =>
    change runSteps (chunks.map .edges) graph = runChunks chunks graph
    induction chunks generalizing graph with
    | nil => rfl
    | cons chunk chunks ih =>
      rw [List.map_cons, runSteps, runChunks]
      rcases ran : Graph.runEdgeChunk chunk.1 chunk.2 graph with failure | middle
      · simp only [Step.write, ran]
        rfl
      · simp only [Step.write, ran]
        exact ih middle
  | cons chunk nodes ih =>
    have rows : rowsOf (chunk :: nodes) = chunk.2.map (nodeUpsert chunk.1) ++ rowsOf nodes := rfl
    rw [rows, PropertyGraph.mergeNodes_append, ← ih]
    rfl

/-- Whatever was left of an earlier run of some of the steps, all of them end as they would have without it. -/
theorem runSteps_resumed {nodes : List (Label × List NodeRow)} {chunks : List Chunk}
    (emitted : ∀ chunk ∈ chunks, ∀ c ∈ chunk.merges, Emitted c) {landed later : List Step}
    (all : stepsOf nodes chunks = landed ++ later) (graph graph' : Neo4jGraph) :
    runSteps (stepsOf nodes chunks) (leftBy (runSteps landed graph)) = .ok graph' ↔
      runSteps (stepsOf nodes chunks) graph = .ok graph' := by
  rw [runSteps_stepsOf, runSteps_stepsOf]
  rcases List.append_eq_append_iff.mp all with ⟨inEdges, rfl, ofEdges⟩ | ⟨moreNodes, ofNodes, rfl⟩
  · obtain ⟨first, rest, rfl, rfl, _⟩ := List.map_eq_append_iff.mp ofEdges
    have nodesKept : (leftBy (runSteps (stepsOf nodes first) graph)).mergeNodes (rowsOf nodes) =
        leftBy (runSteps (stepsOf nodes first) graph) := by
      apply PropertyGraph.mergeNodes_of_nodes
      rw [runSteps_stepsOf]
      obtain ⟨_, _, _, sameNodes, _⟩ := leftBy_runChunks
        (fun chunk member => emitted chunk (List.mem_append_left rest member))
        (graph.mergeNodes (rowsOf nodes))
      exact sameNodes
    change runChunks _ ((leftBy (runSteps (stepsOf nodes first) graph)).mergeNodes (rowsOf nodes)) = _ ↔ _
    rw [nodesKept, runSteps_stepsOf]
    exact runChunks_resumed emitted
  · obtain ⟨first, rest, rfl, rfl, _⟩ := List.map_eq_append_iff.mp ofNodes
    have landedRows := runSteps_stepsOf first [] graph
    rw [stepsOf, List.map_nil, List.append_nil] at landedRows
    rw [landedRows]
    change runChunks chunks ((graph.mergeNodes (rowsOf first)).mergeNodes (rowsOf (first ++ rest))) = _ ↔ _
    have split : rowsOf (first ++ rest) = rowsOf first ++ rowsOf rest := List.flatMap_append
    rw [split, PropertyGraph.mergeNodes_resumed]

end NetHound.Graph.Session
