import NetHound.Evaluate.Assembly
import NetHound.ToMathlib.InterruptedRuns

/-! # Assembling candidates over a connection

`assemble_candidates` with its calls: each query is sent by one, and the rows of its result are pulled one by
one until a last call finds the end. None of them changes the graph, so an assembly that returns has read
what the graph held.
-/

namespace NetHound.Evaluate.Session

open Domain Graph Cypher Interruptible Interruptible.Program

inductive CandidateAssemblyError where
  | query
  | row (source : Evaluate.CandidateAssemblyError)
deriving DecidableEq, Repr

abbrev Client (α : Type) : Type := Program Neo4jGraph CandidateAssemblyError α

/-- `stream.next`. -/
def next : Client Unit := request .query fun graph => some ((), graph)

def decode (read : Except Evaluate.CandidateAssemblyError EniNode) : Client EniNode :=
  match read with
  | .ok eni => pure eni
  | .error source => fail (.row source)

def readEnis : List EniRow → Client (List EniNode)
  | [] => do
      next
      pure []
  | row :: rows => do
      next
      let eni ← decode (eniFromRow row)
      let enis ← readEnis rows
      pure (eni :: enis)

def fetchEnis : Client (List EniNode) := do
  let rows ← request .query fun graph => some (eniRows graph, graph)
  readEnis rows

/-- The route tables that `ROUTE_TABLE_TARGETS_QUERY` has a row for. -/
def routeTableRows (graph : Neo4jGraph) : List String :=
  ((graph.nodes.filter fun node => node.ref.label = .routeTable).map fun node => node.ref.id).filter
    fun routeTableId => (Evaluate.fetchRouteTableTargets graph routeTableId).isSome

def fetchRouteTableTargets : Client RouteTargets := do
  let (rows, targets) ← request .query fun graph =>
    some ((routeTableRows graph, Evaluate.fetchRouteTableTargets graph), graph)
  forM rows fun _ => next
  next
  pure targets

def assembleCandidates (boundaryId : String) (selectors : BoundarySelectors) : Client (List PathCandidate) := do
  let enis ← fetchEnis
  let routeTargets ← fetchRouteTableTargets
  pure (pairCandidates boundaryId selectors routeTargets enis)

/-! ## What is read -/

section Reads

variable (graph₀ : Neo4jGraph)

/-- A call that changes nothing. -/
private theorem leads_read {α : Type} (answer : Neo4jGraph → α) :
    Leads (· = graph₀) (request .query fun graph => some (answer graph, graph) : Client α)
      (fun value graph => graph = graph₀ ∧ value = answer graph₀) (fun _ => (· = graph₀)) (· = graph₀) := by
  apply leads_request
  · rintro _ _ _ rfl applied
    cases applied
    exact ⟨rfl, rfl⟩
  · exact fun _ same => same
  · rintro _ _ _ rfl applied
    cases applied
    rfl
  · exact fun _ same => same
  · rintro _ _ _ rfl applied
    cases applied
    rfl

private theorem leads_next : Leads (· = graph₀) next (fun _ => (· = graph₀)) (fun _ => (· = graph₀)) (· = graph₀) :=
  (leads_read graph₀ fun _ => ()).imp (fun _ same => same) (fun _ _ read => read.1) (fun _ _ same => same)
    fun _ same => same

private theorem leads_readEnis (rows : List EniRow) :
    Leads (· = graph₀) (readEnis rows) (fun enis graph => graph = graph₀ ∧ rows.mapM eniFromRow = .ok enis)
      (fun _ => (· = graph₀)) (· = graph₀) := by
  induction rows with
  | nil => exact (leads_next graph₀).bind fun _ => leads_pure fun _ same => ⟨same, rfl⟩
  | cons row rows ih =>
    rw [readEnis]
    refine (leads_next graph₀).bind fun _ => ?_
    rcases read : eniFromRow row with source | eni
    · exact leads_fail fun _ same => same
    · rw [decode, pure_bind]
      refine ih.bind fun enis => leads_pure fun graph ⟨same, rest⟩ => ⟨same, ?_⟩
      rw [List.mapM_cons, read, rest]
      rfl

private theorem leads_pull (rows : List String) :
    Leads (· = graph₀) (forM rows fun _ => next) (fun _ => (· = graph₀)) (fun _ => (· = graph₀)) (· = graph₀) := by
  have loop := @leads_forM Neo4jGraph CandidateAssemblyError String (· = graph₀) (fun _ => (· = graph₀)) rows
    (fun _ => next) fun _ => (· = graph₀)
  exact loop fun _ _ _ _ => leads_next graph₀

/-- An assembly that returns has read the candidates of the graph, and none changes it. -/
theorem leads_assembleCandidates (boundaryId : String) (selectors : BoundarySelectors) :
    Leads (· = graph₀) (assembleCandidates boundaryId selectors)
      (fun candidates graph => graph = graph₀ ∧
        Evaluate.assembleCandidates graph₀ boundaryId selectors = .ok candidates)
      (fun _ => (· = graph₀)) (· = graph₀) := by
  have fetched : Leads (· = graph₀) fetchEnis
      (fun enis graph => graph = graph₀ ∧ Evaluate.fetchEnis graph₀ = .ok enis) (fun _ => (· = graph₀))
      (· = graph₀) := by
    refine (leads_read graph₀ eniRows).bind fun rows => leads_of_each fun graph ⟨same, ofGraph⟩ => ?_
    rw [same, ofGraph]
    exact leads_readEnis graph₀ _
  have targets : Leads (· = graph₀) fetchRouteTableTargets
      (fun targets graph => graph = graph₀ ∧ targets = Evaluate.fetchRouteTableTargets graph₀)
      (fun _ => (· = graph₀)) (· = graph₀) := by
    refine (leads_read graph₀ fun graph =>
      (routeTableRows graph, Evaluate.fetchRouteTableTargets graph)).bind fun (rows, targets) =>
        leads_of_each fun graph ⟨same, ofGraph⟩ => ?_
    cases ofGraph
    rw [same]
    refine (leads_pull graph₀ _).bind fun _ => (leads_next graph₀).bind fun _ => ?_
    exact leads_pure fun _ same => ⟨same, rfl⟩
  refine fetched.bind fun enis => leads_of_each fun graph ⟨same, read⟩ => ?_
  rw [same]
  refine targets.bind fun routeTargets => leads_pure fun graph ⟨same, ofGraph⟩ => ⟨same, ?_⟩
  rw [Evaluate.assembleCandidates, read, ofGraph]
  rfl

end Reads

/-! ## Undisturbed -/

private theorem completes_read {α : Type} (answer : Neo4jGraph → α) (graph : Neo4jGraph) :
    Completes (request .query fun graph => some (answer graph, graph) : Client α) graph (answer graph) graph :=
  completes_request rfl

private theorem completes_readEnis {rows : List EniRow} {enis : List EniNode} (read : rows.mapM eniFromRow = .ok enis)
    (graph : Neo4jGraph) : Completes (readEnis rows) graph enis graph := by
  induction rows generalizing enis with
  | nil =>
    cases read
    exact (completes_read (fun _ => ()) graph).bind (completes_pure _ _)
  | cons row rows ih =>
    rw [List.mapM_cons] at read
    obtain ⟨eni, first, run⟩ := Except.bind_eq_ok_iff.mp read
    obtain ⟨rest, later, done⟩ := Except.bind_eq_ok_iff.mp run
    cases done
    rw [readEnis, first, decode]
    refine (completes_read (fun _ => ()) graph).bind ?_
    rw [pure_bind]
    exact (ih later).bind (completes_pure _ _)

/-- An assembly that would succeed completes. -/
theorem completes_assembleCandidates {graph : Neo4jGraph} {boundaryId : String} {selectors : BoundarySelectors}
    {candidates : List PathCandidate}
    (assembled : Evaluate.assembleCandidates graph boundaryId selectors = .ok candidates) :
    Completes (assembleCandidates boundaryId selectors) graph candidates graph := by
  obtain ⟨enis, read, done⟩ := Except.bind_eq_ok_iff.mp assembled
  cases done
  have pulled : Completes (forM (routeTableRows graph) fun _ => next : Client Unit) graph ⟨⟩ graph := by
    have loop := @completes_forM Neo4jGraph CandidateAssemblyError String (routeTableRows graph) (fun _ => next)
      fun _ => graph
    exact loop fun _ _ _ _ => completes_read (fun _ => ()) graph
  refine ((completes_read eniRows graph).bind (completes_readEnis read graph)).bind ?_
  refine Completes.bind ((completes_read (fun graph =>
    (routeTableRows graph, Evaluate.fetchRouteTableTargets graph)) graph).bind ?_) (completes_pure _ _)
  exact pulled.bind ((completes_read (fun _ => ()) graph).bind (completes_pure _ _))

end NetHound.Evaluate.Session
