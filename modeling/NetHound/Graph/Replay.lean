import NetHound.Cypher.Replay
import NetHound.Graph.Statements

/-! # Statements repeated over their own result

A run of statements is a run of chunks. A chunk is accepted over a graph when its bound rows are
complete and match, all told, as many relationships as it has rows. A run that succeeded leaves a graph
that accepts every chunk again, since no later merge changes what an earlier one matches; and merging
everything again is the identity (`runStatements_again`).
-/

namespace NetHound.Graph

open Domain Cypher

/-- Two merges of one type the writer emits never set what the other matches on. -/
theorem Emitted.separate {c d : Merge} (emitted : Emitted c) (emitted' : Emitted d) : c.Separate d := by
  obtain ⟨query, row, ⟨known, _⟩, merged⟩ := emitted
  obtain ⟨query', row', ⟨known', _⟩, merged'⟩ := emitted'
  obtain ⟨type, mergeKeys, _, _⟩ := EdgeQuery.merge_shape merged
  obtain ⟨type', _, setKeys, _⟩ := EdgeQuery.merge_shape merged'
  have apart : ∀ query ∈ edgeQueries, ∀ query' ∈ edgeQueries, query.relType = query'.relType →
      ∀ key ∈ query.mergeKeys, key ∉ query'.setKeys := by decide
  intro sameType
  rw [mergeKeys, setKeys]
  exact apart query known query' known' (by rw [← type, ← type', sameType])

/-- What the writer emits can be repeated. -/
theorem Emitted.repeatable : List.Repeatable RelMerge.matched RelMerge.assign RelMerge.create Emitted :=
  RelMerge.repeatable (fun _ _ => Emitted.compatible) fun _ _ => Emitted.separate

/-! ## Runs of chunks -/

abbrev Chunk := EdgeQuery × List Row

def runChunks : List Chunk → Write
  | [], graph => .ok graph
  | chunk :: chunks, graph => do
      let graph ← runEdgeChunk chunk.1 chunk.2 graph
      runChunks chunks graph

/-- The chunks some statements are run in. -/
def chunksOf (statements : List Statement) : List Chunk :=
  statements.flatMap fun statement => (chunkRows statement.2 batchSize).map (statement.1, ·)

def Chunk.merges (chunk : Chunk) : List Merge := chunk.2.filterMap chunk.1.merge

private theorem runChunks_append (chunks more : List Chunk) (graph : Neo4jGraph) :
    runChunks (chunks ++ more) graph = (runChunks chunks graph >>= fun graph => runChunks more graph) := by
  induction chunks generalizing graph with
  | nil => rfl
  | cons chunk chunks ih =>
    rw [List.cons_append, runChunks, runChunks]
    rcases runEdgeChunk chunk.1 chunk.2 graph with failure | middle
    · rfl
    · exact ih middle

private theorem runEdgeChunks_eq (query : EdgeQuery) (chunks : List (List Row)) (graph : Neo4jGraph) :
    runEdgeChunks query chunks graph = runChunks (chunks.map (query, ·)) graph := by
  induction chunks generalizing graph with
  | nil => rfl
  | cons chunk chunks ih =>
    rw [List.map_cons, runEdgeChunks, runChunks]
    rcases runEdgeChunk query chunk graph with failure | middle
    · rfl
    · exact ih middle

theorem runStatements_eq_runChunks (statements : List Statement) (graph : Neo4jGraph) :
    runStatements statements graph = runChunks (chunksOf statements) graph := by
  induction statements generalizing graph with
  | nil => rfl
  | cons statement statements ih =>
    rw [chunksOf, List.flatMap_cons, runChunks_append, ← runEdgeChunks_eq, runStatements, runEdgeUpsert]
    rcases runEdgeChunks statement.1 (chunkRows statement.2 batchSize) graph with failure | middle
    · rfl
    · exact ih middle

/-- The chunk would succeed over a graph that already holds what it merges. -/
structure Accepts (graph : Neo4jGraph) (chunk : Chunk) : Prop where
  complete : ∀ c ∈ graph.boundRows chunk.merges, c.Complete
  counted : graph.tally (graph.boundRows chunk.merges) = chunk.2.length

/-- Everything a run of chunks merges into a graph, in order. -/
def boundMerges (graph : Neo4jGraph) (chunks : List Chunk) : List Merge :=
  chunks.flatMap fun chunk => graph.boundRows chunk.merges

section Chunks

variable {graph graph' : Neo4jGraph} {chunks : List Chunk}

private theorem boundRows_congr (sameNodes : graph'.nodes = graph.nodes) (rows : List Merge) :
    graph'.boundRows rows = graph.boundRows rows := by
  have sameRefs : graph'.refs = graph.refs := congrArg (List.map Node.ref) sameNodes
  simp only [PropertyGraph.boundRows, RelMerge.Bound, sameRefs]

private theorem tally_congr {rows : List Merge}
    (same : ∀ c ∈ rows, graph'.relationships.countP c.matched = graph.relationships.countP c.matched) :
    graph'.tally rows = graph.tally rows :=
  congrArg (List.foldr (· + ·) 0) (List.map_congr_left same)

private theorem emitted_boundRows {chunk : Chunk} (emitted : ∀ c ∈ chunk.merges, Emitted c) :
    ∀ c ∈ graph.boundRows chunk.merges, Emitted c := by
  intro c member
  exact emitted c (List.mem_of_mem_filter member)

private theorem emitted_boundMerges (emitted : ∀ chunk ∈ chunks, ∀ c ∈ chunk.merges, Emitted c) :
    ∀ c ∈ boundMerges graph chunks, Emitted c := by
  intro c member
  obtain ⟨chunk, inChunks, inRows⟩ := List.mem_flatMap.mp member
  exact emitted_boundRows (emitted chunk inChunks) c inRows

/-- What a successful run of chunks has done. -/
theorem runChunks_ok (emitted : ∀ chunk ∈ chunks, ∀ c ∈ chunk.merges, Emitted c)
    (ran : runChunks chunks graph = .ok graph') :
    graph'.nodes = graph.nodes ∧
      graph'.relationships = List.mergeAll RelMerge.matched RelMerge.assign RelMerge.create
        (boundMerges graph chunks) graph.relationships ∧
      ∀ chunk ∈ chunks, Accepts graph' chunk := by
  induction chunks generalizing graph with
  | nil =>
    cases ran
    exact ⟨rfl, rfl, by simp⟩
  | cons chunk chunks ih =>
    obtain ⟨emittedFirst, emittedRest⟩ := List.forall_mem_cons.mp emitted
    obtain ⟨middle, first, rest⟩ := Except.bind_eq_ok_iff.mp ran
    have unwound := runEdgeChunk_eq_ok_iff.mp first
    have sameNodes := PropertyGraph.unwind_nodes unwound
    obtain ⟨complete, relationships, counted⟩ :=
      PropertyGraph.unwind_ok Emitted.repeatable emittedFirst unwound
    obtain ⟨sameNodes', relationships', accepted⟩ := ih emittedRest rest
    have sameBound : boundMerges middle chunks = boundMerges graph chunks := by
      simp only [boundMerges, boundRows_congr sameNodes]
    rw [sameBound] at relationships'
    refine ⟨sameNodes'.trans sameNodes, ?_, List.forall_mem_cons.mpr ⟨?_, accepted⟩⟩
    · rw [relationships', relationships, boundMerges, boundMerges, List.flatMap_cons,
        List.mergeAll_append]
    · have bound : graph'.boundRows chunk.merges = graph.boundRows chunk.merges :=
        boundRows_congr (sameNodes'.trans sameNodes) _
      have emittedBound : ∀ c ∈ graph.boundRows chunk.merges, Emitted c := emitted_boundRows emittedFirst
      have settled := Emitted.repeatable.settled emittedBound graph.relationships
      constructor
      · rw [bound]
        exact complete
      · rw [bound]
        refine Eq.trans (tally_congr fun c member => ?_) counted.symm
        rw [relationships']
        apply Emitted.repeatable.countP_mergeAll (emittedBound c member)
          (emitted_boundMerges emittedRest)
        rw [relationships]
        exact settled.present c member

/-- Chunks a graph accepts run over it. -/
theorem exists_runChunks (emitted : ∀ chunk ∈ chunks, ∀ c ∈ chunk.merges, Emitted c)
    (accepted : ∀ chunk ∈ chunks, Accepts graph chunk)
    (present : ∀ c ∈ boundMerges graph chunks, graph.relationships.any c.matched = true) :
    ∃ graph', runChunks chunks graph = .ok graph' := by
  induction chunks generalizing graph with
  | nil => exact ⟨graph, rfl⟩
  | cons chunk chunks ih =>
    obtain ⟨emittedFirst, emittedRest⟩ := List.forall_mem_cons.mp emitted
    obtain ⟨acceptedFirst, acceptedRest⟩ := List.forall_mem_cons.mp accepted
    rw [boundMerges, List.flatMap_cons] at present
    obtain ⟨middle, unwound⟩ := PropertyGraph.exists_unwind_of_present Emitted.repeatable emittedFirst
      acceptedFirst.complete fun c member => present c (List.mem_append_left _ member)
    rw [acceptedFirst.counted] at unwound
    have sameNodes := PropertyGraph.unwind_nodes unwound
    have relationships := (PropertyGraph.unwind_ok Emitted.repeatable emittedFirst unwound).2.1
    have kept : ∀ c ∈ boundMerges graph chunks,
        middle.relationships.countP c.matched = graph.relationships.countP c.matched := by
      intro c member
      rw [relationships]
      exact Emitted.repeatable.countP_mergeAll (emitted_boundMerges emittedRest c member)
        (emitted_boundRows emittedFirst) (present c (List.mem_append_right _ member))
    have sameBound : boundMerges middle chunks = boundMerges graph chunks := by
      simp only [boundMerges, boundRows_congr sameNodes]
    have acceptedMiddle : ∀ later ∈ chunks, Accepts middle later := by
      intro later member
      have bound := boundRows_congr sameNodes later.merges
      constructor
      · rw [bound]
        exact (acceptedRest later member).complete
      · rw [bound, ← (acceptedRest later member).counted]
        exact tally_congr fun c inRows => kept c (List.mem_flatMap.mpr ⟨later, member, inRows⟩)
    obtain ⟨last, rest⟩ := ih emittedRest acceptedMiddle fun c member => by
      rw [sameBound] at member
      have before := present c (List.mem_append_right _ member)
      rw [List.any_eq_true, ← List.countP_pos_iff] at before ⊢
      rwa [kept c member]
    exact ⟨last, Except.bind_eq_ok_iff.mpr ⟨middle, runEdgeChunk_eq_ok_iff.mpr unwound, rest⟩⟩

/-- Running chunks again over their own result gives it back. -/
theorem runChunks_again (emitted : ∀ chunk ∈ chunks, ∀ c ∈ chunk.merges, Emitted c)
    (ran : runChunks chunks graph = .ok graph') : runChunks chunks graph' = .ok graph' := by
  obtain ⟨sameNodes, relationships, accepted⟩ := runChunks_ok emitted ran
  have sameBound : boundMerges graph' chunks = boundMerges graph chunks := by
    simp only [boundMerges, boundRows_congr sameNodes]
  have emittedBound : ∀ c ∈ boundMerges graph chunks, Emitted c := emitted_boundMerges emitted
  have settled := Emitted.repeatable.settled emittedBound graph.relationships
  rw [← relationships, ← sameBound] at settled
  obtain ⟨last, again⟩ := exists_runChunks emitted accepted settled.present
  obtain ⟨sameNodes', relationships', _⟩ := runChunks_ok emitted again
  have same : last = graph' := by
    apply PropertyGraph.eq_of_parts sameNodes'
    rw [relationships', Emitted.repeatable.mergeAll_of_settled (emitted_boundMerges emitted) settled]
  rw [again, same]

/-- A run of chunks succeeds with the graph that has merged them all and accepts each of them. -/
theorem runChunks_eq_ok_iff (emitted : ∀ chunk ∈ chunks, ∀ c ∈ chunk.merges, Emitted c) :
    runChunks chunks graph = .ok graph' ↔ graph'.nodes = graph.nodes ∧
      graph'.relationships = List.mergeAll RelMerge.matched RelMerge.assign RelMerge.create
        (boundMerges graph chunks) graph.relationships ∧
      ∀ chunk ∈ chunks, Accepts graph' chunk := by
  refine ⟨runChunks_ok emitted, ?_⟩
  induction chunks generalizing graph with
  | nil =>
    rintro ⟨sameNodes, relationships, _⟩
    rw [PropertyGraph.eq_of_parts sameNodes relationships]
    rfl
  | cons chunk chunks ih =>
    rintro ⟨sameNodes, relationships, accepted⟩
    obtain ⟨emittedFirst, emittedRest⟩ := List.forall_mem_cons.mp emitted
    obtain ⟨acceptedFirst, acceptedRest⟩ := List.forall_mem_cons.mp accepted
    have sameRows := boundRows_congr sameNodes chunk.merges
    have emittedBound : ∀ c ∈ graph.boundRows chunk.merges, Emitted c := emitted_boundRows emittedFirst
    obtain ⟨middle, merged, unwound⟩ := graph.unwind_of_complete fun c member bound =>
      acceptedFirst.complete c (sameRows ▸ List.mem_filter.mpr ⟨member, decide_eq_true bound⟩)
    obtain ⟨_, first, counted⟩ := PropertyGraph.unwind_ok Emitted.repeatable emittedFirst unwound
    have middleNodes := PropertyGraph.unwind_nodes unwound
    have sameBound : boundMerges middle chunks = boundMerges graph chunks := by
      simp only [boundMerges, boundRows_congr middleNodes]
    have rest : graph'.relationships = List.mergeAll RelMerge.matched RelMerge.assign RelMerge.create
        (boundMerges middle chunks) middle.relationships := by
      rw [relationships, sameBound, first, ← List.mergeAll_append]
      rfl
    -- later chunks change no count of this one
    have settled := Emitted.repeatable.settled emittedBound graph.relationships
    have whole : merged = chunk.2.length := by
      rw [counted, ← acceptedFirst.counted, sameRows]
      refine (tally_congr fun c member => ?_).symm
      rw [rest]
      apply Emitted.repeatable.countP_mergeAll (emittedBound c member) (emitted_boundMerges emittedRest)
      rw [first]
      exact settled.present c member
    rw [whole] at unwound
    exact Except.bind_eq_ok_iff.mpr ⟨middle, runEdgeChunk_eq_ok_iff.mpr unwound,
      ih emittedRest ⟨sameNodes.trans middleNodes.symm, rest, acceptedRest⟩⟩

/-- The graph a write leaves, whether or not it succeeds. -/
def leftBy : Except WriteFailure Neo4jGraph → Neo4jGraph
  | .ok graph => graph
  | .error failure => failure.graph

/-- A statement leaves the graph alone or has merged its rows, whether or not their count is accepted. -/
theorem leftBy_runEdgeChunk (chunk : Chunk) (graph : Neo4jGraph) :
    leftBy (runEdgeChunk chunk.1 chunk.2 graph) = graph ∨
      ∃ merged, graph.unwind chunk.merges = .ok (leftBy (runEdgeChunk chunk.1 chunk.2 graph), merged) := by
  rcases unwound : graph.unwind (chunk.2.filterMap chunk.1.merge) with field | ⟨after, merged⟩
  · left
    rw [runEdgeChunk, unwound]
    rfl
  · right
    have left : leftBy (runEdgeChunk chunk.1 chunk.2 graph) = after := by
      rw [runEdgeChunk, unwound]
      dsimp only
      split
      · split <;> rfl
      · rfl
    rw [left]
    exact ⟨merged, unwound⟩

private theorem merged_of_runEdgeChunk {chunk : Chunk} (emitted : ∀ c ∈ chunk.merges, Emitted c)
    (graph : Neo4jGraph) :
    leftBy (runEdgeChunk chunk.1 chunk.2 graph) = graph ∨
      (leftBy (runEdgeChunk chunk.1 chunk.2 graph)).nodes = graph.nodes ∧
        (leftBy (runEdgeChunk chunk.1 chunk.2 graph)).relationships =
          List.mergeAll RelMerge.matched RelMerge.assign RelMerge.create
            (graph.boundRows chunk.merges) graph.relationships := by
  rcases leftBy_runEdgeChunk chunk graph with same | ⟨merged, unwound⟩
  · exact Or.inl same
  · exact Or.inr ⟨PropertyGraph.unwind_nodes unwound,
      (PropertyGraph.unwind_ok Emitted.repeatable emitted unwound).2.1⟩

/-- However a run of chunks ends, it has merged the first of them. -/
theorem leftBy_runChunks (emitted : ∀ chunk ∈ chunks, ∀ c ∈ chunk.merges, Emitted c) (graph : Neo4jGraph) :
    ∃ landed later, chunks = landed ++ later ∧
      (leftBy (runChunks chunks graph)).nodes = graph.nodes ∧
      (leftBy (runChunks chunks graph)).relationships =
        List.mergeAll RelMerge.matched RelMerge.assign RelMerge.create
          (boundMerges graph landed) graph.relationships := by
  induction chunks generalizing graph with
  | nil => exact ⟨[], [], rfl, rfl, rfl⟩
  | cons chunk chunks ih =>
    obtain ⟨emittedFirst, emittedRest⟩ := List.forall_mem_cons.mp emitted
    rcases ran : runEdgeChunk chunk.1 chunk.2 graph with failure | middle
    · have whole : runChunks (chunk :: chunks) graph = .error failure := by
        rw [runChunks, ran]
        rfl
      rw [whole]
      rcases merged_of_runEdgeChunk emittedFirst graph with same | ⟨sameNodes, relationships⟩
      · rw [ran] at same
        exact ⟨[], chunk :: chunks, rfl, congrArg PropertyGraph.nodes same,
          congrArg PropertyGraph.relationships same⟩
      · rw [ran] at sameNodes relationships
        refine ⟨[chunk], chunks, rfl, sameNodes, ?_⟩
        rw [boundMerges, List.flatMap_singleton]
        exact relationships
    · have whole : runChunks (chunk :: chunks) graph = runChunks chunks middle := by
        rw [runChunks, ran]
        rfl
      have unwound := runEdgeChunk_eq_ok_iff.mp ran
      have middleNodes := PropertyGraph.unwind_nodes unwound
      obtain ⟨landed, later, split, sameNodes, relationships⟩ := ih emittedRest middle
      have sameBound : boundMerges middle landed = boundMerges graph landed := by
        simp only [boundMerges, boundRows_congr middleNodes]
      rw [whole]
      refine ⟨chunk :: landed, later, by rw [split]; rfl, sameNodes.trans middleNodes, ?_⟩
      rw [relationships, sameBound,
        (PropertyGraph.unwind_ok Emitted.repeatable emittedFirst unwound).2.1, ← List.mergeAll_append]
      rfl

/-- Chunks of which a part had been run before, to whatever end, end as they would have anyway. -/
theorem runChunks_resumed {landed later : List Chunk}
    (emitted : ∀ chunk ∈ landed ++ later, ∀ c ∈ chunk.merges, Emitted c) :
    runChunks (landed ++ later) (leftBy (runChunks landed graph)) = .ok graph' ↔
      runChunks (landed ++ later) graph = .ok graph' := by
  have emittedLanded : ∀ chunk ∈ landed, ∀ c ∈ chunk.merges, Emitted c :=
    fun chunk member => emitted chunk (List.mem_append_left _ member)
  obtain ⟨first, rest, rfl, sameNodes, relationships⟩ := leftBy_runChunks emittedLanded graph
  generalize leftBy (runChunks (first ++ rest) graph) = left at sameNodes relationships ⊢
  have sameBound : boundMerges left (first ++ rest ++ later) = boundMerges graph (first ++ rest ++ later) := by
    simp only [boundMerges, boundRows_congr sameNodes]
  have resumed : List.mergeAll RelMerge.matched RelMerge.assign RelMerge.create
      (boundMerges graph (first ++ rest ++ later)) left.relationships =
        List.mergeAll RelMerge.matched RelMerge.assign RelMerge.create
          (boundMerges graph (first ++ rest ++ later)) graph.relationships := by
    have split : boundMerges graph (first ++ rest ++ later) =
        boundMerges graph first ++ boundMerges graph (rest ++ later) := by
      rw [List.append_assoc, boundMerges, List.flatMap_append]
      rfl
    rw [relationships, split]
    apply Emitted.repeatable.mergeAll_resumed
    exact emitted_boundMerges fun chunk member => emittedLanded chunk (List.mem_append_left _ member)
  rw [runChunks_eq_ok_iff emitted, runChunks_eq_ok_iff emitted, sameNodes, sameBound, resumed]

end Chunks

theorem emitted_chunksOf {statements : List Statement} (sent : AllSent statements) :
    ∀ chunk ∈ chunksOf statements, ∀ c ∈ chunk.merges, Emitted c := by
  intro chunk member c inChunk
  obtain ⟨statement, inStatements, inChunks⟩ := List.mem_flatMap.mp member
  obtain ⟨rows, ofStatement, rfl⟩ := List.mem_map.mp inChunks
  obtain ⟨row, inRows, merged⟩ := List.mem_filterMap.mp inChunk
  have whole : row ∈ statement.2 := by
    rw [← flatten_chunkRows statement.2]
    exact List.mem_flatten.mpr ⟨rows, ofStatement, inRows⟩
  exact ⟨statement.1, row, sent statement inStatements row whole, merged⟩

/-- Running statements again over their own result gives it back. -/
theorem runStatements_again {statements : List Statement} {graph graph' : Neo4jGraph}
    (sent : AllSent statements) (ran : runStatements statements graph = .ok graph') :
    runStatements statements graph' = .ok graph' := by
  rw [runStatements_eq_runChunks] at ran ⊢
  exact runChunks_again (emitted_chunksOf sent) ran

end NetHound.Graph
