import NetHound.Graph.Neo4j
import NetHound.ToMathlib.ExceptRun

/-! # What the upserts write

`Sent` says which rows reach which edge query. The merges of sent rows are pairwise compatible, so
the relationships they leave are a table keyed by type, endpoints and merge pattern. Three lemmas
about a whole edge upsert are all that later modules use: what a successful one has written
(`runEdgeUpsert_ok`), that one whose rows are bound and complete succeeds, and that a bound one
never reports an unresolved endpoint.
-/

namespace NetHound.Graph

open Domain Cypher

/-! ## Chunks -/

private theorem flatten_chunksUpTo {α : Type} {size fuel : ℕ} (positive : 0 < size) {rows : List α}
    (enough : rows.length ≤ fuel) : (chunksUpTo size fuel rows).flatten = rows := by
  induction fuel generalizing rows with
  | zero =>
    have empty : rows = [] := List.length_eq_zero_iff.mp (by omega)
    rw [empty]
    rfl
  | succ fuel ih =>
    rw [chunksUpTo]
    split
    · next empty => rw [List.isEmpty_iff.mp empty]; rfl
    · next nonempty =>
      have shorter : (rows.drop size).length ≤ fuel := by
        rw [List.length_drop]
        omega
      rw [List.flatten_cons, ih shorter, List.take_append_drop]

/-- Chunking loses no row and keeps their order, whatever the batch size. -/
theorem flatten_chunkRows_of_pos {α : Type} {size : ℕ} (positive : 0 < size) (rows : List α) :
    (chunkRows rows size).flatten = rows :=
  flatten_chunksUpTo positive (Nat.le_refl _)

theorem flatten_chunkRows {α : Type} (rows : List α) : (chunkRows rows batchSize).flatten = rows :=
  flatten_chunkRows_of_pos (by decide) rows

private theorem mergeNodes_flatten (label : Label) (chunks : List (List NodeRow)) (graph : Neo4jGraph) :
    chunks.foldl (fun graph chunk => graph.mergeNodes (chunk.map (nodeUpsert label))) graph =
      graph.mergeNodes (chunks.flatten.map (nodeUpsert label)) := by
  induction chunks generalizing graph with
  | nil => rfl
  | cons chunk chunks ih =>
    rw [List.foldl_cons, ih, List.flatten_cons, List.map_append, PropertyGraph.mergeNodes_append]

/-- A node upsert merges its rows in order, however they were chunked. -/
theorem runNodeUpsert_eq (label : Label) (rows : List NodeRow) (graph : Neo4jGraph) :
    runNodeUpsert label rows graph = .ok (graph.mergeNodes (rows.map (nodeUpsert label))) := by
  rw [runNodeUpsert, mergeNodes_flatten, flatten_chunkRows]

/-! ## The merges of sent rows -/

def edgeQueries : List EdgeQuery :=
  [hasSgUpsert, inSubnetUpsert, protectedByUpsert, usesRouteTableUpsert, routesToResolvedUpsert,
    routesToUnresolvedUpsert, allowsEgressCidrUpsert, allowsEgressSgRefResolvedUpsert,
    allowsEgressSgRefUnresolvedUpsert, allowsIngressCidrUpsert, allowsIngressSgRefResolvedUpsert,
    allowsIngressSgRefUnresolvedUpsert, hasRuleUpsert]

/-- The target kind of the rules a query takes. -/
def EdgeQuery.kind (query : EdgeQuery) : Option String :=
  if .cidr ∈ query.mergeKeys then some "cidr"
  else if .targetSecurityGroupId ∈ query.mergeKeys then some "security_group_ref" else none

/-- A row the writer sends to a query. -/
def Sent (query : EdgeQuery) (row : Row) : Prop :=
  query ∈ edgeQueries ∧ ∀ kind, query.kind = some kind → row.value .targetKind = stringProp kind

/-- A merge of a sent row. -/
def Emitted (c : Merge) : Prop := ∃ query row, Sent query row ∧ query.merge row = some c

theorem EdgeQuery.merge_eq_some_iff {query : EdgeQuery} {row : Row} {c : Merge} :
    query.merge row = some c ↔ ∃ source, row.ref query.source = some source ∧
      ∃ target, query.targetRef row source = some target ∧
        c = ⟨query.relType, source, target, query.mergeKeys, query.setKeys, row.value⟩ := by
  simp only [EdgeQuery.merge, bind, Option.bind_eq_some_iff]
  refine exists_congr fun source => and_congr_right fun _ => exists_congr fun target =>
    and_congr_right fun _ => ?_
  exact Option.some_inj.trans eq_comm

/-- A merge has its query's shape and its row's values. -/
theorem EdgeQuery.merge_shape {query : EdgeQuery} {row : Row} {c : Merge}
    (merged : query.merge row = some c) :
    c.relType = query.relType ∧ c.mergeKeys = query.mergeKeys ∧ c.setKeys = query.setKeys ∧
      c.row = row.value := by
  obtain ⟨_, _, _, _, rfl⟩ := merge_eq_some_iff.mp merged
  exact ⟨rfl, rfl, rfl, rfl⟩

private theorem query_shapes : ∀ query ∈ edgeQueries, ∀ query' ∈ edgeQueries,
    query.relType = query'.relType →
      query.mergeKeys = query'.mergeKeys ∧ query.setKeys = query'.setKeys ∨
        .targetKind ∈ query.mergeKeys ∧ .targetKind ∈ query'.mergeKeys ∧
          query.kind.isSome ∧ query'.kind.isSome ∧ query.kind ≠ query'.kind := by
  decide

/-- Any two merges the writer emits are compatible. -/
theorem Emitted.compatible {c d : Merge} (emitted : Emitted c) (emitted' : Emitted d) :
    c.Compatible d := by
  obtain ⟨query, row, ⟨known, kinds⟩, merged⟩ := emitted
  obtain ⟨query', row', ⟨known', kinds'⟩, merged'⟩ := emitted'
  obtain ⟨type, mergeKeys, setKeys, values⟩ := EdgeQuery.merge_shape merged
  obtain ⟨type', mergeKeys', setKeys', values'⟩ := EdgeQuery.merge_shape merged'
  intro sameType
  rw [mergeKeys, mergeKeys', setKeys, setKeys', values, values']
  rcases query_shapes query known query' known' (by rw [← type, ← type', sameType]) with
    same | ⟨inMerge, inMerge', kinded, kinded', differ⟩
  · exact Or.inl same
  · obtain ⟨kind, ofKind⟩ := Option.isSome_iff_exists.mp kinded
    obtain ⟨kind', ofKind'⟩ := Option.isSome_iff_exists.mp kinded'
    refine Or.inr ⟨.targetKind, inMerge, inMerge', ?_⟩
    rw [kinds kind ofKind, kinds' kind' ofKind']
    intro same
    rw [ofKind, ofKind'] at differ
    simp only [stringProp, Option.some.injEq, BoltType.string.injEq] at same
    exact differ (congrArg some same)

/-- A merge of a row of one of the writer's queries, whatever the row. -/
def Formed (c : Merge) : Prop := ∃ query ∈ edgeQueries, ∃ row, query.merge row = some c

theorem Emitted.formed {c : Merge} (emitted : Emitted c) : Formed c := by
  obtain ⟨query, row, ⟨known, _⟩, merged⟩ := emitted
  exact ⟨query, known, row, merged⟩

private theorem query_patterns : ∀ query ∈ edgeQueries, ∀ query' ∈ edgeQueries,
    query.relType = query'.relType →
      query.mergeKeys = query'.mergeKeys ∧ query.setKeys = query'.setKeys ∨
        ∃ key ∈ query.mergeKeys, key ∉ query'.mergeKeys ∧ key ∉ query'.setKeys := by
  decide

/-- A complete row matches what another row left exactly when the two write one relationship. -/
theorem Formed.keyed {c d : Merge} (formed : Formed c) (complete : c.Complete) (formed' : Formed d) :
    c.Keyed d := by
  obtain ⟨query, known, row, merged⟩ := formed
  obtain ⟨query', known', row', merged'⟩ := formed'
  obtain ⟨type, mergeKeys, setKeys, _⟩ := EdgeQuery.merge_shape merged
  obtain ⟨type', mergeKeys', setKeys', _⟩ := EdgeQuery.merge_shape merged'
  by_cases sameType : c.relType = d.relType
  · rcases query_patterns query known query' known' (by rw [← type, ← type', sameType]) with
      same | ⟨key, inMerge, unmerged, unset⟩
    · apply RelMerge.createsKeyed
      intro _
      rw [mergeKeys, mergeKeys', setKeys, setKeys']
      exact Or.inl same
    · rw [← mergeKeys] at inMerge
      rw [← mergeKeys'] at unmerged
      rw [← setKeys'] at unset
      exact RelMerge.createsKeyed_of_unwritten complete inMerge unmerged unset
  · exact RelMerge.createsKeyed fun same => absurd same sameType

/-- The label of the nodes relationships of a type start at. -/
def sourceLabel : RelType → Label
  | .hasSg | .inSubnet => .eni
  | .protectedBy | .usesRouteTable => .subnet
  | .routesTo => .routeTable
  | .allowsEgress | .allowsIngress => .securityGroup
  | .hasRule => .networkAcl

/-- The labels of the nodes they lead to. -/
def targetLabels : RelType → List Label
  | .hasSg | .allowsEgress | .allowsIngress => [.securityGroup]
  | .inSubnet => [.subnet]
  | .protectedBy | .hasRule => [.networkAcl]
  | .usesRouteTable => [.routeTable]
  | .routesTo => [.vpc, .routeTable]

private theorem query_labels : ∀ query ∈ edgeQueries, query.source.1 = sourceLabel query.relType ∧
    (query.target.getD query.source).1 ∈ targetLabels query.relType := by
  decide

private theorem Row.label_ref {row : Row} {place : Label × Field} {ref : NodeRef Label}
    (found : row.ref place = some ref) : ref.label = place.1 := by
  rw [Row.ref] at found
  split at found
  · cases found
    rfl
  · cases found

/-- The writer connects the labels the schema names. -/
theorem Emitted.labels {c : Merge} (emitted : Emitted c) :
    c.source.label = sourceLabel c.relType ∧ c.target.label ∈ targetLabels c.relType := by
  obtain ⟨query, row, ⟨known, _⟩, merged⟩ := emitted
  obtain ⟨source, ofSource, target, ofTarget, rfl⟩ := EdgeQuery.merge_eq_some_iff.mp merged
  obtain ⟨sourced, targeted⟩ := query_labels query known
  refine ⟨(Row.label_ref ofSource).trans sourced, ?_⟩
  rw [EdgeQuery.targetRef] at ofTarget
  split at ofTarget
  · next place leads =>
    rw [leads] at targeted
    rw [Row.label_ref ofTarget]
    exact targeted
  · next loops =>
    cases ofTarget
    rw [loops] at targeted
    rw [Row.label_ref ofSource]
    exact targeted

/-! ## Edge upserts -/

section EdgeUpserts

variable {query : EdgeQuery} {graph graph' : Neo4jGraph}
  {others : List (Relationship Label RelType Field BoltType)} {table : List Merge}

/-- A chunk succeeds when the statement returns as many relationships as it has rows. -/
theorem runEdgeChunk_eq_ok_iff {chunk : List Row} :
    runEdgeChunk query chunk graph = .ok graph' ↔
      graph.unwind (chunk.filterMap query.merge) = .ok (graph', chunk.length) := by
  constructor
  · intro ran
    unfold runEdgeChunk at ran
    split at ran
    · cases ran
    · next merged unwound =>
      split_ifs at ran with differs
      cases ran
      rw [unwound, not_not.mp differs]
  · intro unwound
    rw [runEdgeChunk, unwound]
    exact if_neg (not_not.mpr rfl)

/-- The nodes a row names exist. -/
def EndpointsExist (graph : Neo4jGraph) (query : EdgeQuery) (row : Row) : Prop :=
  ∃ c, query.merge row = some c ∧ c.Bound graph

instance (graph : Neo4jGraph) (query : EdgeQuery) (row : Row) : Decidable (EndpointsExist graph query row) :=
  match merged : query.merge row with
  | none => isFalse fun exist => by
      obtain ⟨c, found, _⟩ := exist
      rw [merged] at found
      cases found
  | some c => decidable_of_iff (c.Bound graph) ⟨fun bound => ⟨c, merged, bound⟩, fun exist => by
      obtain ⟨c', found, bound⟩ := exist
      rw [merged] at found
      cases found
      exact bound⟩

theorem endpointsExist_congr {row : Row} (sameNodes : graph'.nodes = graph.nodes) :
    EndpointsExist graph' query row ↔ EndpointsExist graph query row := by
  have sameRefs : graph'.refs = graph.refs := congrArg (List.map Node.ref) sameNodes
  unfold EndpointsExist RelMerge.Bound
  rw [sameRefs]

private theorem length_boundRows (chunk : List Row) :
    (graph.boundRows (chunk.filterMap query.merge)).length =
      chunk.countP fun row => EndpointsExist graph query row := by
  rw [PropertyGraph.boundRows, ← List.countP_eq_length_filter, List.countP_filterMap]
  apply List.countP_congr
  intro row _
  rcases merged : query.merge row with _ | c
  · simp [EndpointsExist, merged]
  · simp [EndpointsExist, merged]

/-- Every merge of the rows is one of the writer's. -/
def FormedRows (query : EdgeQuery) (rows : List Row) : Prop := ∀ c ∈ rows.filterMap query.merge, Formed c

theorem formedRows_of_known (known : query ∈ edgeQueries) (rows : List Row) : FormedRows query rows := by
  intro c member
  obtain ⟨row, _, merged⟩ := List.mem_filterMap.mp member
  exact ⟨query, known, row, merged⟩

theorem formedRows_of_sent {rows : List Row} (sent : ∀ row ∈ rows, Sent query row) :
    FormedRows query rows := by
  intro c member
  obtain ⟨row, inRows, merged⟩ := List.mem_filterMap.mp member
  exact ⟨query, (sent row inRows).1, row, merged⟩

private theorem formedRows_append {rows more : List Row} :
    FormedRows query (rows ++ more) ↔ FormedRows query rows ∧ FormedRows query more := by
  rw [FormedRows, List.filterMap_append]
  exact List.forall_mem_append

/-- No merge of the rows matches any of the relationships. -/
private def Untouched (query : EdgeQuery) (rows : List Row)
    (others : List (Relationship Label RelType Field BoltType)) : Prop :=
  ∀ c ∈ rows.filterMap query.merge, ∀ r ∈ others, c.matched r = false

private theorem untouched_append {rows more : List Row} :
    Untouched query (rows ++ more) others ↔
      Untouched query rows others ∧ Untouched query more others := by
  rw [Untouched, List.filterMap_append]
  exact List.forall_mem_append

private theorem formed_upserts {writes : List Merge} (formed : ∀ d ∈ table, Formed d)
    (formedWrites : ∀ c ∈ writes, Formed c) : ∀ d ∈ table.upserts RelMerge.key writes, Formed d := by
  intro d member
  rcases List.mem_of_mem_upserts RelMerge.key member with inTable | inWrites
  · exact formed d inTable
  · exact formedWrites d inWrites

/-- A chunk's statement counts the rows whose nodes exist and upserts their merges. -/
theorem unwind_chunk {chunk : List Row} {merged : ℕ} (written : graph.Written others table)
    (formed : ∀ d ∈ table, Formed d) (formedRows : FormedRows query chunk)
    (untouched : ∀ c ∈ chunk.filterMap query.merge, ∀ r ∈ others, c.matched r = false)
    (ran : graph.unwind (chunk.filterMap query.merge) = .ok (graph', merged)) :
    (∀ c ∈ graph.boundRows (chunk.filterMap query.merge), c.Complete) ∧
      merged = chunk.countP (fun row => EndpointsExist graph query row) ∧
      graph'.Written others
        (table.upserts RelMerge.key (graph.boundRows (chunk.filterMap query.merge))) := by
  have keyed : ∀ c ∈ chunk.filterMap query.merge, c.Complete →
      ∀ d, d ∈ table ∨ d ∈ chunk.filterMap query.merge → c.Keyed d := by
    rintro c member complete d (inTable | inChunk)
    · exact (formedRows c member).keyed complete (formed d inTable)
    · exact (formedRows c member).keyed complete (formedRows d inChunk)
  obtain ⟨complete, counted, written'⟩ := PropertyGraph.unwind_bound written keyed untouched ran
  exact ⟨complete, counted.trans (length_boundRows chunk), written'⟩

private theorem boundRows_of_exist {chunk : List Row} (exist : ∀ row ∈ chunk, EndpointsExist graph query row) :
    graph.boundRows (chunk.filterMap query.merge) = chunk.filterMap query.merge := by
  refine List.filter_eq_self.mpr fun c member => decide_eq_true ?_
  obtain ⟨row, inChunk, merged⟩ := List.mem_filterMap.mp member
  obtain ⟨c', merged', bound⟩ := exist row inChunk
  rw [merged] at merged'
  cases merged'
  exact bound

/-- What a row of a successful upsert was. -/
private def Done (query : EdgeQuery) (graph : Neo4jGraph) (row : Row) : Prop :=
  ∃ c, query.merge row = some c ∧ c.Bound graph ∧ c.Complete

private theorem runEdgeChunk_written {chunk : List Row} (written : graph.Written others table)
    (formed : ∀ d ∈ table, Formed d) (formedRows : FormedRows query chunk)
    (untouched : Untouched query chunk others) (ran : runEdgeChunk query chunk graph = .ok graph') :
    graph'.nodes = graph.nodes ∧ (∀ row ∈ chunk, Done query graph row) ∧
      graph'.Written others (table.upserts RelMerge.key (chunk.filterMap query.merge)) := by
  have unwound := runEdgeChunk_eq_ok_iff.mp ran
  obtain ⟨complete, counted, written'⟩ := unwind_chunk written formed formedRows untouched unwound
  have exist : ∀ row ∈ chunk, EndpointsExist graph query row := fun row member =>
    of_decide_eq_true (List.countP_eq_length.mp counted.symm row member)
  rw [boundRows_of_exist exist] at complete written'
  refine ⟨PropertyGraph.unwind_nodes unwound, fun row member => ?_, written'⟩
  obtain ⟨c, merged, bound⟩ := exist row member
  exact ⟨c, merged, bound, complete c (List.mem_filterMap.mpr ⟨row, member, merged⟩)⟩

private theorem done_congr {row : Row} (sameNodes : graph'.nodes = graph.nodes)
    (done : Done query graph' row) : Done query graph row := by
  obtain ⟨c, merged, bound, complete⟩ := done
  rw [RelMerge.Bound, PropertyGraph.refs, sameNodes] at bound
  exact ⟨c, merged, bound, complete⟩

/-- Chunks that all succeeded have matched every row's endpoints, had every merge key, and upserted the
rows' merges into the table of relationships. -/
theorem runEdgeChunks_written {chunks : List (List Row)} (written : graph.Written others table)
    (formed : ∀ d ∈ table, Formed d) (formedRows : FormedRows query chunks.flatten)
    (untouched : ∀ c ∈ chunks.flatten.filterMap query.merge, ∀ r ∈ others, c.matched r = false)
    (ran : runEdgeChunks query chunks graph = .ok graph') :
    graph'.nodes = graph.nodes ∧
      (∀ row ∈ chunks.flatten, ∃ c, query.merge row = some c ∧ c.Bound graph ∧ c.Complete) ∧
      graph'.Written others (table.upserts RelMerge.key (chunks.flatten.filterMap query.merge)) := by
  induction chunks generalizing graph table with
  | nil =>
    cases ran
    exact ⟨rfl, by simp, written⟩
  | cons chunk chunks ih =>
    obtain ⟨middle, first, rest⟩ := Except.bind_eq_ok_iff.mp ran
    rw [List.flatten_cons] at formedRows untouched ⊢
    obtain ⟨formedFirst, formedRest⟩ := formedRows_append.mp formedRows
    obtain ⟨untouchedFirst, untouchedRest⟩ := untouched_append.mp untouched
    obtain ⟨sameNodes, done, written'⟩ :=
      runEdgeChunk_written written formed formedFirst untouchedFirst first
    obtain ⟨sameNodes', done', written''⟩ := ih written' (formed_upserts formed formedFirst)
      formedRest untouchedRest rest
    refine ⟨sameNodes'.trans sameNodes, ?_, ?_⟩
    · intro row member
      rcases List.mem_append.mp member with inFirst | inRest
      · exact done row inFirst
      · exact done_congr sameNodes (done' row inRest)
    · rw [List.filterMap_append, List.upserts_append]
      exact written''

/-- A successful edge upsert did so for its rows. -/
theorem runEdgeUpsert_ok {rows : List Row} (written : graph.Written others table)
    (formed : ∀ d ∈ table, Formed d) (formedRows : FormedRows query rows)
    (untouched : ∀ c ∈ rows.filterMap query.merge, ∀ r ∈ others, c.matched r = false)
    (ran : runEdgeUpsert query rows graph = .ok graph') :
    graph'.nodes = graph.nodes ∧
      (∀ row ∈ rows, ∃ c, query.merge row = some c ∧ c.Bound graph ∧ c.Complete) ∧
      graph'.Written others (table.upserts RelMerge.key (rows.filterMap query.merge)) := by
  have flat : (chunkRows rows batchSize).flatten = rows := flatten_chunkRows rows
  rw [← flat] at formedRows untouched
  have whole := runEdgeChunks_written written formed formedRows untouched ran
  rw [flat] at whole
  exact whole

/-- An edge upsert never touches nodes. -/
theorem runEdgeUpsert_nodes {rows : List Row} (ran : runEdgeUpsert query rows graph = .ok graph') :
    graph'.nodes = graph.nodes := by
  rw [runEdgeUpsert] at ran
  generalize chunkRows rows batchSize = chunks at ran
  induction chunks generalizing graph with
  | nil =>
    cases ran
    rfl
  | cons chunk chunks ih =>
    obtain ⟨middle, first, rest⟩ := Except.bind_eq_ok_iff.mp ran
    exact (ih rest).trans (PropertyGraph.unwind_nodes (runEdgeChunk_eq_ok_iff.mp first))

private theorem length_filterMap_merge {chunk : List Row}
    (done : ∀ row ∈ chunk, ∃ c, query.merge row = some c) :
    (chunk.filterMap query.merge).length = chunk.length := by
  induction chunk with
  | nil => rfl
  | cons row chunk ih =>
    obtain ⟨c, merged⟩ := done row List.mem_cons_self
    rw [List.filterMap_cons_some merged, List.length_cons, List.length_cons,
      ih fun row member => done row (List.mem_cons_of_mem _ member)]

private theorem merges_of_done {chunk : List Row} {p : Merge → Prop}
    (done : ∀ row ∈ chunk, ∃ c, query.merge row = some c ∧ p c) : ∀ c ∈ chunk.filterMap query.merge, p c := by
  intro c member
  obtain ⟨row, inChunk, merged⟩ := List.mem_filterMap.mp member
  obtain ⟨c', merged', holds⟩ := done row inChunk
  rw [merged] at merged'
  cases merged'
  exact holds

/-- Chunks whose rows are all bound and complete succeed. -/
theorem exists_runEdgeChunks {chunks : List (List Row)} (written : graph.Written others table)
    (formed : ∀ d ∈ table, Formed d) (formedRows : FormedRows query chunks.flatten)
    (untouched : ∀ c ∈ chunks.flatten.filterMap query.merge, ∀ r ∈ others, c.matched r = false)
    (done : ∀ row ∈ chunks.flatten, ∃ c, query.merge row = some c ∧ c.Bound graph ∧ c.Complete) :
    ∃ graph', runEdgeChunks query chunks graph = .ok graph' := by
  induction chunks generalizing graph table with
  | nil => exact ⟨graph, rfl⟩
  | cons chunk chunks ih =>
    rw [List.flatten_cons] at formedRows untouched done
    obtain ⟨formedFirst, formedRest⟩ := formedRows_append.mp formedRows
    obtain ⟨untouchedFirst, untouchedRest⟩ := untouched_append.mp untouched
    have doneFirst := fun row member => done row (List.mem_append_left _ member)
    obtain ⟨middle, merged, unwound⟩ := PropertyGraph.unwind_of_complete graph
      (fun c member _ => (merges_of_done doneFirst c member).2)
    obtain ⟨_, counted, _⟩ := unwind_chunk written formed formedFirst untouchedFirst unwound
    have whole : merged = chunk.length := by
      rw [counted]
      apply List.countP_eq_length.mpr
      intro row member
      obtain ⟨c, formedRow, bound, _⟩ := doneFirst row member
      exact decide_eq_true ⟨c, formedRow, bound⟩
    have first : runEdgeChunk query chunk graph = .ok middle := by
      apply runEdgeChunk_eq_ok_iff.mpr
      rw [unwound, whole]
    obtain ⟨sameNodes, _, written'⟩ :=
      runEdgeChunk_written written formed formedFirst untouchedFirst first
    obtain ⟨last, rest⟩ := ih written' (formed_upserts formed formedFirst) formedRest untouchedRest
      (fun row member => by
        obtain ⟨c, merged, bound, complete⟩ := done row (List.mem_append_right _ member)
        rw [RelMerge.Bound, PropertyGraph.refs, ← sameNodes] at bound
        exact ⟨c, merged, bound, complete⟩)
    refine ⟨last, ?_⟩
    rw [runEdgeChunks, first]
    exact rest

/-- An edge upsert whose rows are all bound and complete succeeds. -/
theorem runEdgeUpsert_of_complete {rows : List Row} (written : graph.Written others table)
    (formed : ∀ d ∈ table, Formed d) (formedRows : FormedRows query rows)
    (untouched : ∀ c ∈ rows.filterMap query.merge, ∀ r ∈ others, c.matched r = false)
    (done : ∀ row ∈ rows, ∃ c, query.merge row = some c ∧ c.Bound graph ∧ c.Complete) :
    ∃ graph', runEdgeUpsert query rows graph = .ok graph' := by
  rw [← flatten_chunkRows rows] at formedRows untouched done
  exact exists_runEdgeChunks written formed formedRows untouched done

/-- Missing endpoints are the only cause of the endpoint error. -/
theorem runEdgeUpsert_error {rows : List Row} {failure : WriteFailure}
    (bound : ∀ row ∈ rows, ∃ c, query.merge row = some c ∧ c.Bound graph)
    (failed : runEdgeUpsert query rows graph = .error failure) (edgeType : RelType)
    (missing total : ℕ) : failure.error ≠ .unresolvedEndpoint edgeType missing total := by
  rw [runEdgeUpsert] at failed
  rw [← flatten_chunkRows rows] at bound
  generalize chunkRows rows batchSize = chunks at failed bound
  induction chunks generalizing graph with
  | nil => cases failed
  | cons chunk chunks ih =>
    rw [List.flatten_cons] at bound
    have boundFirst := fun row member => bound row (List.mem_append_left _ member)
    rcases first : runEdgeChunk query chunk graph with stopped | middle
    · rw [runEdgeChunks, first] at failed
      cases failed
      unfold runEdgeChunk at first
      split at first
      · cases first
        exact fun clash => nomatch clash
      · next merged unwound =>
        have atLeast := PropertyGraph.length_le_of_unwind (merges_of_done boundFirst) unwound
        have length := length_filterMap_merge fun row member =>
          (boundFirst row member).imp fun _ whole => whole.1
        split_ifs at first with differs beyond
        · cases first
          exact fun clash => nomatch clash
        · omega
    · rw [runEdgeChunks, first] at failed
      have sameNodes := PropertyGraph.unwind_nodes (runEdgeChunk_eq_ok_iff.mp first)
      refine ih failed fun row member => ?_
      obtain ⟨c, merged, holds⟩ := bound row (List.mem_append_right _ member)
      rw [RelMerge.Bound, PropertyGraph.refs, ← sameNodes] at holds
      exact ⟨c, merged, holds⟩

end EdgeUpserts

/-! ## The rows of the rule and route upserts -/

/-- The rules of some batches with their owners, in order. -/
def ownedRules (batches : List SgRuleBatch) : List (String × SgRule) :=
  batches.flatMap fun batch => batch.rules.map fun rule => (batch.securityGroupId, rule)

def cidrRow (owned : String × SgRule) : Option Row :=
  match owned.2.target with
  | .cidr cidr => some (sgRuleCidrRow owned.1 owned.2 cidr)
  | .securityGroupRef _ => none

def sgRefRow (resolved : Bool) (owned : String × SgRule) : Option Row :=
  match owned.2.target with
  | .cidr _ => none
  | .securityGroupRef refId =>
      if owned.2.resolved = resolved then some (sgRuleSgRefRow owned.1 owned.2 refId) else none

private theorem push_eq (rows : SgRuleRows) (owned : String × SgRule) :
    rows.push owned.1 owned.2 =
      ⟨rows.cidrRows ++ (cidrRow owned).toList, rows.sgRefResolvedRows ++ (sgRefRow true owned).toList,
        rows.sgRefUnresolvedRows ++ (sgRefRow false owned).toList⟩ := by
  obtain ⟨owner, rule⟩ := owned
  rcases target : rule.target with cidr | refId
  · simp [SgRuleRows.push, cidrRow, sgRefRow, target]
  · by_cases resolved : rule.resolved = true <;>
      simp [SgRuleRows.push, cidrRow, sgRefRow, target, resolved]

private theorem foldl_push_eq (owned : List (String × SgRule)) (rows : SgRuleRows) :
    owned.foldl (fun rows owned => rows.push owned.1 owned.2) rows =
      ⟨rows.cidrRows ++ owned.filterMap cidrRow, rows.sgRefResolvedRows ++ owned.filterMap (sgRefRow true),
        rows.sgRefUnresolvedRows ++ owned.filterMap (sgRefRow false)⟩ := by
  induction owned generalizing rows with
  | nil => simp
  | cons first owned ih =>
    rw [List.foldl_cons, ih, push_eq]
    simp only [List.append_assoc, List.filterMap_cons]
    congr 2
    · cases cidrRow first <;> rfl
    · cases sgRefRow true first <;> rfl
    · cases sgRefRow false first <;> rfl

/-- Every rule's row goes to exactly one query, by its target and flag. -/
theorem splitSgRuleRows_eq (batches : List SgRuleBatch) :
    splitSgRuleRows batches =
      ⟨(ownedRules batches).filterMap cidrRow, (ownedRules batches).filterMap (sgRefRow true),
        (ownedRules batches).filterMap (sgRefRow false)⟩ := by
  have flat : splitSgRuleRows batches =
      (ownedRules batches).foldl (fun rows owned => rows.push owned.1 owned.2) ⟨[], [], []⟩ := by
    rw [splitSgRuleRows, ownedRules, List.foldl_flatMap]
    simp only [List.foldl_map]
  rw [flat, foldl_push_eq]
  simp only [List.nil_append]

/-- The row of a route whose target and flag agree, by shape. -/
def routeRow (resolved : Bool) (edge : RoutesToEdge) : Option Row :=
  match edge.targetVpcId, edge.resolved with
  | some targetVpcId, true => if resolved then some (routesToResolvedRow edge targetVpcId) else none
  | none, false => if resolved then none else some (routesToUnresolvedRow edge)
  | _, _ => none

/-- A route's target is known exactly when it is flagged resolved. -/
def RoutesToEdge.Consistent (edge : RoutesToEdge) : Prop := edge.targetVpcId.isSome = edge.resolved

instance (edge : RoutesToEdge) : Decidable edge.Consistent := inferInstanceAs (Decidable (_ = _))

private theorem foldl_route_push_eq {edges : List RoutesToEdge} (consistent : ∀ edge ∈ edges, edge.Consistent)
    (rows : RouteRows) :
    edges.foldl RouteRows.push rows =
      ⟨rows.resolvedRows ++ edges.filterMap (routeRow true),
        rows.unresolvedRows ++ edges.filterMap (routeRow false), rows.inconsistency⟩ := by
  induction edges generalizing rows with
  | nil => simp
  | cons edge edges ih =>
    have agree := consistent edge List.mem_cons_self
    rw [List.foldl_cons, ih fun edge member => consistent edge (List.mem_cons_of_mem _ member)]
    rcases target : edge.targetVpcId with _ | targetVpcId <;>
      rcases flag : edge.resolved with _ | _ <;>
        simp [RoutesToEdge.Consistent, target, flag] at agree <;>
          simp [RouteRows.push, routeRow, target, flag]

/-- Consistent routes are split by flag and never refused. -/
theorem splitRouteRows_eq {edges : List RoutesToEdge} (consistent : ∀ edge ∈ edges, edge.Consistent) :
    splitRouteRows edges =
      ⟨edges.filterMap (routeRow true), edges.filterMap (routeRow false), none⟩ := by
  rw [splitRouteRows, foldl_route_push_eq consistent]
  simp only [List.nil_append]

private theorem foldl_route_push_consistent {edges : List RoutesToEdge} {rows : RouteRows}
    (accepted : (edges.foldl RouteRows.push rows).inconsistency = none) :
    rows.inconsistency = none ∧ ∀ edge ∈ edges, edge.Consistent := by
  induction edges generalizing rows with
  | nil => exact ⟨accepted, by simp⟩
  | cons edge edges ih =>
    obtain ⟨first, rest⟩ := ih accepted
    rcases target : edge.targetVpcId with _ | targetVpcId <;>
      rcases flag : edge.resolved with _ | _ <;>
        simp [RouteRows.push, target, flag] at first <;>
          simp [RoutesToEdge.Consistent, target, flag, first] <;>
            exact rest

/-- Routes that are not refused are consistent. -/
theorem consistent_of_splitRouteRows {edges : List RoutesToEdge}
    (accepted : (splitRouteRows edges).inconsistency = none) : ∀ edge ∈ edges, edge.Consistent :=
  (foldl_route_push_consistent accepted).2

end NetHound.Graph
