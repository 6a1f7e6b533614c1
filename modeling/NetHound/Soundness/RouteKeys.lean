import NetHound.Graph.Statements

/-! # Routes and their documented key

A route edge is documented as keyed on its route table and destination. The store keys it on its target
as well, since a resolved route leads to a VPC and an unresolved one back to its own table. Over any
sequence of calls the documented key holds exactly when no two edges of one key have different targets.
-/

namespace NetHound.Soundness

open Domain Graph Cypher

/-- Where the relationship of a route leads. -/
def routeEnd (edge : RoutesToEdge) : NodeRef Label :=
  edge.targetVpcId.elim ⟨.routeTable, edge.routeTableId⟩ fun targetVpcId => ⟨.vpc, targetVpcId⟩

/-- Calls of `upsert_routes_to_edges` in order, up to the first that fails. -/
def upsertRoutesCalls : List (List RoutesToEdge) → Write
  | [], graph => .ok graph
  | edges :: calls, graph => do
      let graph ← upsertRoutesToEdges edges graph
      upsertRoutesCalls calls graph

/-- The `ROUTES_TO` relationships of a route table and destination. -/
def routesAt (graph : Neo4jGraph) (routeTableId destinationCidr : String) :
    List (Relationship Label RelType Field BoltType) :=
  graph.relationships.filter fun r => r.relType = .routesTo ∧ r.source = ⟨.routeTable, routeTableId⟩ ∧
    r.props .destinationCidr = stringProp destinationCidr

/-- The last edge written for a key. -/
def lastEdge (edges : List RoutesToEdge) (routeTableId destinationCidr : String) : Option RoutesToEdge :=
  (edges.filter fun edge =>
    edge.routeTableId = routeTableId ∧ edge.destinationCidr = destinationCidr).getLast?

/-- Every key has one relationship, with the target and flag of the last edge written for it, or none
where no edge was. -/
def LastRouteOnly (edges : List RoutesToEdge) (graph : Neo4jGraph) : Prop :=
  ∀ routeTableId destinationCidr,
    (∀ edge, lastEdge edges routeTableId destinationCidr = some edge →
      ∃ r, routesAt graph routeTableId destinationCidr = [r] ∧ r.target = routeEnd edge ∧
        r.props .resolved = boolProp edge.resolved) ∧
    (lastEdge edges routeTableId destinationCidr = none → routesAt graph routeTableId destinationCidr = [])

/-- No two edges of one key lead elsewhere. -/
def OneTargetPerKey (edges : List RoutesToEdge) : Prop :=
  ∀ edge ∈ edges, ∀ edge' ∈ edges, edge.routeTableId = edge'.routeTableId →
    edge.destinationCidr = edge'.destinationCidr → edge.targetVpcId = edge'.targetVpcId

/-! ## What a call merges -/

private def routeMerge (edge : RoutesToEdge) : Merge :=
  ⟨.routesTo, ⟨.routeTable, edge.routeTableId⟩, routeEnd edge, [.destinationCidr], [.resolved],
    (edge.targetVpcId.elim (routesToUnresolvedRow edge) (routesToResolvedRow edge)).value⟩

private theorem merge_routeRow {resolved : Bool} {edge : RoutesToEdge} {row : Row}
    (built : routeRow resolved edge = some row) :
    (if resolved then routesToResolvedUpsert else routesToUnresolvedUpsert).merge row =
      some (routeMerge edge) := by
  obtain ⟨routeTableId, destinationCidr, targetVpcId, flag⟩ := edge
  rcases targetVpcId with _ | targetVpcId <;> rcases flag with _ | _ <;> rcases resolved with _ | _ <;>
    cases built <;> rfl

private theorem exists_routeRow {edge : RoutesToEdge} (consistent : edge.Consistent) :
    ∃ row, routeRow edge.resolved edge = some row := by
  obtain ⟨routeTableId, destinationCidr, targetVpcId, flag⟩ := edge
  rcases targetVpcId with _ | targetVpcId <;> cases consistent
  · exact ⟨_, rfl⟩
  · exact ⟨_, rfl⟩

/-- A call merges one relationship for each of its edges. -/
private theorem mem_merges_routes {edges : List RoutesToEdge}
    (consistent : ∀ edge ∈ edges, edge.Consistent) {c : Merge} :
    c ∈ merges (routeStatements edges) ↔ ∃ edge ∈ edges, routeMerge edge = c := by
  rw [merges, routeStatements, splitRouteRows_eq consistent]
  constructor
  · intro member
    obtain ⟨statement, inStatements, inRows⟩ := List.mem_flatMap.mp member
    obtain ⟨row, inRow, merged⟩ := List.mem_filterMap.mp inRows
    simp only [List.mem_cons, List.not_mem_nil, or_false] at inStatements
    rcases inStatements with rfl | rfl <;>
      obtain ⟨edge, inEdges, built⟩ := List.mem_filterMap.mp inRow <;>
      exact ⟨edge, inEdges, Option.some.inj ((merge_routeRow built).symm.trans merged)⟩
  · rintro ⟨edge, member, rfl⟩
    obtain ⟨row, built⟩ := exists_routeRow (consistent edge member)
    have merged := merge_routeRow built
    rcases flag : edge.resolved with _ | _ <;> rw [flag] at built merged
    · refine List.mem_flatMap.mpr ⟨_, List.mem_cons_of_mem _ List.mem_cons_self, ?_⟩
      exact List.mem_filterMap.mpr ⟨row, List.mem_filterMap.mpr ⟨edge, member, built⟩, merged⟩
    · refine List.mem_flatMap.mpr ⟨_, List.mem_cons_self, ?_⟩
      exact List.mem_filterMap.mpr ⟨row, List.mem_filterMap.mpr ⟨edge, member, built⟩, merged⟩

private theorem key_routeMerge (edge : RoutesToEdge) :
    (routeMerge edge).key = ⟨.routesTo, ⟨.routeTable, edge.routeTableId⟩, routeEnd edge,
      [(.destinationCidr, stringProp edge.destinationCidr)]⟩ := by
  obtain ⟨routeTableId, destinationCidr, targetVpcId, flag⟩ := edge
  rcases targetVpcId with _ | targetVpcId <;> rfl

private theorem atKey_routeMerge {edge : RoutesToEdge} {routeTableId destinationCidr : String} :
    (routeMerge edge).source = ⟨.routeTable, routeTableId⟩ ∧
        (routeMerge edge).row .destinationCidr = stringProp destinationCidr ↔
      edge.routeTableId = routeTableId ∧ edge.destinationCidr = destinationCidr := by
  have row : (routeMerge edge).row .destinationCidr = stringProp edge.destinationCidr := by
    obtain ⟨_, _, targetVpcId, _⟩ := edge
    rcases targetVpcId with _ | targetVpcId <;> rfl
  rw [row, stringProp, stringProp, Option.some_inj, BoltType.string.injEq]
  exact and_congr_left fun _ => by rw [routeMerge, NodeRef.mk.injEq, eq_self, true_and]

private theorem resolved_create {edge : RoutesToEdge} :
    (routeMerge edge).create.props .resolved = boolProp edge.resolved := by
  obtain ⟨_, _, targetVpcId, _⟩ := edge
  rcases targetVpcId with _ | targetVpcId <;> rfl

private theorem target_of_routeEnd {edge edge' : RoutesToEdge} (same : routeEnd edge = routeEnd edge') :
    edge.targetVpcId = edge'.targetVpcId := by
  obtain ⟨_, _, targetVpcId, _⟩ := edge
  obtain ⟨_, _, targetVpcId', _⟩ := edge'
  rcases targetVpcId with _ | targetVpcId <;> rcases targetVpcId' with _ | targetVpcId'
  · rfl
  · exact Label.noConfusion (congrArg NodeRef.label same)
  · exact Label.noConfusion (congrArg NodeRef.label same)
  · exact congrArg some (congrArg NodeRef.id same)

/-! ## What a sequence of calls leaves -/

/-- The relationships beyond `others` are those of the routes written so far, by key. -/
private structure Routed (graph : Neo4jGraph) (others : List (Relationship Label RelType Field BoltType))
    (edges : List RoutesToEdge) (table : List Merge) : Prop where
  written : graph.Written others table
  consistent : ∀ edge ∈ edges, edge.Consistent
  present : ∀ edge ∈ edges, (routeMerge edge).key ∈ table.map RelMerge.key
  source : ∀ c ∈ table, ∃ edge ∈ edges, routeMerge edge = c

section Runs

variable {graph graph' : Neo4jGraph} {others : List (Relationship Label RelType Field BoltType)}
  {done edges : List RoutesToEdge} {table : List Merge}

private theorem emitted_routeMerge {edge : RoutesToEdge} (consistent : edge.Consistent) :
    Emitted (routeMerge edge) := by
  have all : ∀ other ∈ [edge], other.Consistent := by simpa using consistent
  apply emitted_merges (allSent_routeStatements [edge])
  exact (mem_merges_routes all).mpr ⟨edge, List.mem_singleton_self edge, rfl⟩

private theorem Routed.call (routed : Routed graph others done table)
    (fresh : ∀ r ∈ others, r.relType ≠ .routesTo)
    (ran : upsertRoutesToEdges edges graph = .ok graph') :
    ∃ table', Routed graph' others (done ++ edges) table' := by
  have consistent := consistent_of_upsertRoutesToEdges ran
  have ofEdge (c : Merge) := @mem_merges_routes edges consistent c
  rw [upsertRoutesToEdges_eq consistent] at ran
  have emitted : ∀ d ∈ table, Emitted d := by
    intro d member
    obtain ⟨edge, inDone, rfl⟩ := routed.source d member
    exact emitted_routeMerge (routed.consistent edge inDone)
  have untouched : ∀ c ∈ merges (routeStatements edges), ∀ r ∈ others, c.matched r = false := by
    intro c member r inOthers
    obtain ⟨edge, _, rfl⟩ := (ofEdge c).mp member
    have other : ¬ r.relType = (routeMerge edge).relType := fresh r inOthers
    rw [RelMerge.matched, decide_eq_false other]
    rfl
  refine ⟨_, (runStatements_written routed.written emitted (allSent_routeStatements edges) untouched ran).2,
    ?_, ?_, ?_⟩
  · exact List.forall_mem_append.mpr ⟨routed.consistent, consistent⟩
  · intro edge member
    rw [List.mem_map_key_upserts]
    refine (List.mem_append.mp member).imp (routed.present edge) fun inCall => ?_
    exact List.mem_map_of_mem ((ofEdge _).mpr ⟨edge, inCall, rfl⟩)
  · intro c member
    rcases List.mem_of_mem_upserts RelMerge.key member with inTable | inCall
    · obtain ⟨edge, inDone, rfl⟩ := routed.source c inTable
      exact ⟨edge, List.mem_append_left _ inDone, rfl⟩
    · obtain ⟨edge, inEdges, rfl⟩ := (ofEdge c).mp inCall
      exact ⟨edge, List.mem_append_right _ inEdges, rfl⟩

private theorem Routed.calls {calls : List (List RoutesToEdge)} (routed : Routed graph others done table)
    (fresh : ∀ r ∈ others, r.relType ≠ .routesTo)
    (ran : upsertRoutesCalls calls graph = .ok graph') :
    ∃ table', Routed graph' others (done ++ calls.flatten) table' := by
  induction calls generalizing graph done table with
  | nil =>
    cases ran
    exact ⟨table, by rwa [List.flatten_nil, List.append_nil]⟩
  | cons edges calls ih =>
    obtain ⟨middle, first, rest⟩ := Except.bind_eq_ok_iff.mp ran
    obtain ⟨_, routedMiddle⟩ := routed.call fresh first
    rw [List.flatten_cons, ← List.append_assoc]
    exact ih routedMiddle rest

private def mergesAt (table : List Merge) (routeTableId destinationCidr : String) : List Merge :=
  table.filter fun c =>
    c.source = ⟨.routeTable, routeTableId⟩ ∧ c.row .destinationCidr = stringProp destinationCidr

private theorem Routed.mem_mergesAt (routed : Routed graph others edges table)
    {routeTableId destinationCidr : String} {c : Merge} :
    c ∈ mergesAt table routeTableId destinationCidr ↔ c ∈ table ∧ ∃ edge ∈ edges, routeMerge edge = c ∧
      edge.routeTableId = routeTableId ∧ edge.destinationCidr = destinationCidr := by
  rw [mergesAt, List.mem_filter, decide_eq_true_eq]
  refine and_congr_right fun inTable => ?_
  constructor
  · intro keyed
    obtain ⟨edge, inEdges, rfl⟩ := routed.source c inTable
    exact ⟨edge, inEdges, rfl, atKey_routeMerge.mp keyed⟩
  · rintro ⟨edge, _, rfl, keyed⟩
    exact atKey_routeMerge.mpr keyed

/-- The relationships of a key are those of the merges written for it. -/
private theorem Routed.routesAt_eq (routed : Routed graph others edges table)
    (fresh : ∀ r ∈ others, r.relType ≠ .routesTo) (routeTableId destinationCidr : String) :
    routesAt graph routeTableId destinationCidr =
      (mergesAt table routeTableId destinationCidr).map RelMerge.create := by
  rw [routesAt, mergesAt, routed.written.relationships, List.filter_append, List.filter_map]
  have none : (others.filter fun r => r.relType = .routesTo ∧ r.source = ⟨.routeTable, routeTableId⟩ ∧
      r.props .destinationCidr = stringProp destinationCidr) = [] := by
    refine List.filter_eq_nil_iff.mpr fun r member => ?_
    rw [decide_eq_true_eq, not_and]
    exact fun routes => absurd routes (fresh r member)
  rw [none, List.nil_append]
  congr 1
  refine List.filter_congr fun c member => ?_
  obtain ⟨edge, _, rfl⟩ := routed.source c member
  rw [Function.comp_apply, decide_eq_decide]
  exact and_iff_right rfl

/-- A written edge leaves a relationship of its key at its own end. -/
private theorem Routed.exists_mem_routesAt (routed : Routed graph others edges table)
    (fresh : ∀ r ∈ others, r.relType ≠ .routesTo) {edge : RoutesToEdge} (member : edge ∈ edges) :
    ∃ r ∈ routesAt graph edge.routeTableId edge.destinationCidr, r.target = routeEnd edge := by
  obtain ⟨c, inTable, sameKey⟩ := List.mem_map.mp (routed.present edge member)
  obtain ⟨written, inWritten, rfl⟩ := routed.source c inTable
  rw [key_routeMerge, key_routeMerge, MergeKey.mk.injEq] at sameKey
  obtain ⟨_, source, target, pattern⟩ := sameKey
  refine ⟨(routeMerge written).create, ?_, target⟩
  rw [routed.routesAt_eq fresh]
  apply List.mem_map_of_mem
  refine routed.mem_mergesAt.mpr ⟨inTable, written, inWritten, rfl, congrArg NodeRef.id source, ?_⟩
  simpa [stringProp] using pattern

private theorem Routed.lastRouteOnly (routed : Routed graph others edges table)
    (fresh : ∀ r ∈ others, r.relType ≠ .routesTo) (one : OneTargetPerKey edges) :
    LastRouteOnly edges graph := by
  intro routeTableId destinationCidr
  rw [routed.routesAt_eq fresh]
  constructor
  · intro edge last
    have member := List.mem_of_getLast? last
    rw [List.mem_filter, decide_eq_true_eq] at member
    obtain ⟨inEdges, rfl, rfl⟩ := member
    obtain ⟨r, present, _⟩ := routed.exists_mem_routesAt fresh inEdges
    rw [routed.routesAt_eq fresh] at present
    obtain ⟨c, inRows, rfl⟩ := List.mem_map.mp present
    have sameKey : ∀ d ∈ mergesAt table edge.routeTableId edge.destinationCidr,
        d.key = (routeMerge edge).key := by
      intro d member
      obtain ⟨_, other, inOther, rfl, sameTable, sameCidr⟩ := routed.mem_mergesAt.mp member
      have target := one other inOther edge inEdges sameTable sameCidr
      rw [key_routeMerge, key_routeMerge, sameTable, sameCidr, routeEnd, routeEnd, target, sameTable]
    have unique : ((mergesAt table edge.routeTableId edge.destinationCidr).map RelMerge.key).Nodup :=
      routed.written.unique.sublist (List.filter_sublist.map RelMerge.key)
    have alone := List.eq_singleton_of_nodup (List.Nodup.of_map _ unique) inRows fun d member =>
      List.inj_on_of_nodup_map unique member inRows ((sameKey d member).trans (sameKey c inRows).symm)
    obtain ⟨_, written, inWritten, rfl, sameTable, sameCidr⟩ := routed.mem_mergesAt.mp inRows
    have target := one written inWritten edge inEdges sameTable sameCidr
    refine ⟨(routeMerge written).create, by rw [alone, List.map_singleton], ?_, ?_⟩
    · change routeEnd written = routeEnd edge
      rw [routeEnd, routeEnd, target, sameTable]
    · rw [resolved_create, ← routed.consistent written inWritten, ← routed.consistent edge inEdges, target]
  · intro unwritten
    rw [List.map_eq_nil_iff, List.eq_nil_iff_forall_not_mem]
    intro c member
    obtain ⟨_, edge, inEdges, _, keyed⟩ := routed.mem_mergesAt.mp member
    have written := List.getLast?_eq_none_iff.mp unwritten
    rw [List.eq_nil_iff_forall_not_mem] at written
    exact written edge (List.mem_filter.mpr ⟨inEdges, decide_eq_true keyed⟩)

private theorem Routed.oneTargetPerKey (routed : Routed graph others edges table)
    (fresh : ∀ r ∈ others, r.relType ≠ .routesTo) (only : LastRouteOnly edges graph) :
    OneTargetPerKey edges := by
  intro edge inEdges edge' inEdges' sameTable sameCidr
  obtain ⟨r, present, target⟩ := routed.exists_mem_routesAt fresh inEdges
  obtain ⟨r', present', target'⟩ := routed.exists_mem_routesAt fresh inEdges'
  rw [← sameTable, ← sameCidr] at present'
  obtain ⟨last, found⟩ : ∃ last, lastEdge edges edge.routeTableId edge.destinationCidr = some last := by
    refine Option.ne_none_iff_exists'.mp fun unwritten => ?_
    rw [(only _ _).2 unwritten] at present
    cases present
  obtain ⟨one, alone, _⟩ := (only _ _).1 last found
  rw [alone, List.mem_singleton] at present present'
  apply target_of_routeEnd
  rw [← target, ← target', present, present']

end Runs

/-- The documented key holds after a sequence of calls exactly when no key was written with two targets. -/
theorem lastRouteOnly_iff {graph graph' : Neo4jGraph} {calls : List (List RoutesToEdge)}
    (fresh : ∀ r ∈ graph.relationships, r.relType ≠ .routesTo)
    (ran : upsertRoutesCalls calls graph = .ok graph') :
    LastRouteOnly calls.flatten graph' ↔ OneTargetPerKey calls.flatten := by
  have start : Routed graph graph.relationships [] [] :=
    ⟨.start graph, by simp, by simp, by simp⟩
  obtain ⟨_, routed⟩ := start.calls fresh ran
  exact ⟨routed.oneTargetPerKey fresh, routed.lastRouteOnly fresh⟩

private def network : Neo4jGraph :=
  PropertyGraph.empty.mergeNodes
    [nodeUpsert .routeTable (routeTableRow ⟨"rtb-1", "111122223333", "vpc-1", true⟩),
      nodeUpsert .vpc (vpcRow ⟨"vpc-2", "111122223333", "10.1.0.0/16"⟩)]

private def peeredRoute : RoutesToEdge := ⟨"rtb-1", "10.1.0.0/16", some "vpc-2", true⟩

private def unpeered : RoutesToEdge := ⟨"rtb-1", "10.1.0.0/16", none, false⟩

theorem lastRouteOnly_repeated :
    ∃ graph', upsertRoutesCalls [[peeredRoute], [peeredRoute, peeredRoute]] network = .ok graph' ∧
      (LastRouteOnly [[peeredRoute], [peeredRoute, peeredRoute]].flatten graph' ↔
        OneTargetPerKey [[peeredRoute], [peeredRoute, peeredRoute]].flatten) := by
  have written : (upsertRoutesCalls [[peeredRoute], [peeredRoute, peeredRoute]] network).isOk = true := by decide
  rcases ran : upsertRoutesCalls [[peeredRoute], [peeredRoute, peeredRoute]] network with failure | graph'
  · rw [ran] at written
    cases written
  · refine ⟨graph', rfl, lastRouteOnly_iff ?_ ran⟩
    decide

/-- A route that loses its target keeps the relationship to it. -/
theorem lastRouteOnly_unpeered :
    ¬ ∀ (graph graph' : Neo4jGraph) (calls : List (List RoutesToEdge)),
      (∀ r ∈ graph.relationships, r.relType ≠ .routesTo) → upsertRoutesCalls calls graph = .ok graph' →
        LastRouteOnly calls.flatten graph' := by
  intro holds
  have lengths : (upsertRoutesCalls [[peeredRoute], [unpeered]] network).toOption.map
      (fun graph => (routesAt graph "rtb-1" "10.1.0.0/16").length) = some 2 := by decide
  rcases ran : upsertRoutesCalls [[peeredRoute], [unpeered]] network with failure | graph'
  · rw [ran] at lengths
    cases lengths
  · rw [ran] at lengths
    obtain ⟨r, alone, _⟩ := (holds network graph' [[peeredRoute], [unpeered]] (by decide) ran
      "rtb-1" "10.1.0.0/16").1 unpeered rfl
    have two : (routesAt graph' "rtb-1" "10.1.0.0/16").length = 2 := Option.some.inj lengths
    rw [alone] at two
    cases two

end NetHound.Soundness
