import Mathlib.Data.Nat.Notation
import NetHound.ToMathlib.KeyedTable

/-! # Property graphs and the statements that merge into them

A property graph holds nodes, unique by label and id, and relationships between nodes that exist;
both are invariants of the type. A property that is null is absent.

`NodeMerge` is a row of `UNWIND rows MERGE (n:L {id}) SET n += props`. `RelMerge` is a row of
`UNWIND rows MATCH (a), (b) MERGE (a)-[r:T {..}]->(b) SET r.. RETURN count(r)`: a row whose endpoints
are missing binds nothing, a null in the merge pattern is an error, every matching relationship is
set, and one is created where none matches.

Relationships written by merges alone form a table keyed by type, endpoints and pattern values, as
long as any two writes of one key have one shape. `unwind_bound` is that invariant for a whole
statement: it upserts the bound rows into the table, and its count is their number.
-/

namespace Cypher

structure NodeRef (Label : Type*) where
  label : Label
  id : String
deriving DecidableEq, Repr

variable {Label RelType Key Value : Type*}

structure Node (Label Key Value : Type*) where
  ref : NodeRef Label
  props : Key → Option Value

structure Relationship (Label RelType Key Value : Type*) where
  relType : RelType
  source : NodeRef Label
  target : NodeRef Label
  props : Key → Option Value

structure PropertyGraph (Label RelType Key Value : Type*) where
  nodes : List (Node Label Key Value)
  relationships : List (Relationship Label RelType Key Value)
  uniqueRefs : (nodes.map Node.ref).Nodup
  anchored : ∀ r ∈ relationships, r.source ∈ nodes.map Node.ref ∧ r.target ∈ nodes.map Node.ref

namespace PropertyGraph

def empty : PropertyGraph Label RelType Key Value where
  nodes := []
  relationships := []
  uniqueRefs := List.nodup_nil
  anchored := by simp

/-- The references of the nodes that exist. -/
def refs (graph : PropertyGraph Label RelType Key Value) : List (NodeRef Label) :=
  graph.nodes.map Node.ref

/-- The part of a graph whose relationships satisfy `p`. -/
def restrict (p : Relationship Label RelType Key Value → Bool)
    (graph : PropertyGraph Label RelType Key Value) : PropertyGraph Label RelType Key Value where
  nodes := graph.nodes
  relationships := graph.relationships.filter p
  uniqueRefs := graph.uniqueRefs
  anchored := fun r member => graph.anchored r (List.mem_filter.mp member).1

end PropertyGraph

/-! ## Node merges -/

/-- One node row; a null value removes the property. -/
structure NodeMerge (Label Key Value : Type*) where
  ref : NodeRef Label
  props : List (Key × Option Value)

section NodeMerge

variable [DecidableEq Label] [DecidableEq Key]

def NodeMerge.matched (row : NodeMerge Label Key Value) (node : Node Label Key Value) : Bool :=
  decide (node.ref = row.ref)

def NodeMerge.assign (row : NodeMerge Label Key Value) (node : Node Label Key Value) :
    Node Label Key Value :=
  { node with props := fun key => (row.props.lookup key).getD (node.props key) }

def NodeMerge.create (row : NodeMerge Label Key Value) : Node Label Key Value :=
  ⟨row.ref, fun key => (row.props.lookup key).getD none⟩

private theorem map_ref_mergeInto (row : NodeMerge Label Key Value) (nodes : List (Node Label Key Value)) :
    (nodes.mergeInto NodeMerge.matched NodeMerge.assign NodeMerge.create row).map Node.ref =
      if row.ref ∈ nodes.map Node.ref then nodes.map Node.ref else nodes.map Node.ref ++ [row.ref] := by
  have present : nodes.any row.matched = decide (row.ref ∈ nodes.map Node.ref) := by
    rw [Bool.eq_iff_iff, List.any_eq_true, decide_eq_true_eq, List.mem_map]
    exact exists_congr fun node => and_congr_right fun _ => by rw [NodeMerge.matched, decide_eq_true_eq]
  rw [List.mergeInto, present]
  by_cases member : row.ref ∈ nodes.map Node.ref
  · rw [if_pos (decide_eq_true member), if_pos member, List.map_map]
    refine List.map_congr_left fun node _ => ?_
    rw [Function.comp_apply]
    split <;> rfl
  · rw [if_neg (by simpa using member), if_neg member, List.map_append]
    rfl

/-- `MERGE (n) SET n += props` for one row. -/
def PropertyGraph.mergeNode (graph : PropertyGraph Label RelType Key Value)
    (row : NodeMerge Label Key Value) : PropertyGraph Label RelType Key Value where
  nodes := graph.nodes.mergeInto NodeMerge.matched NodeMerge.assign NodeMerge.create row
  relationships := graph.relationships
  uniqueRefs := by
    rw [map_ref_mergeInto]
    split
    · exact graph.uniqueRefs
    · next fresh => exact graph.uniqueRefs.append (List.nodup_singleton _) (by simpa using fresh)
  anchored := by
    intro r member
    obtain ⟨source, target⟩ := graph.anchored r member
    rw [map_ref_mergeInto]
    split
    · exact ⟨source, target⟩
    · exact ⟨List.mem_append_left _ source, List.mem_append_left _ target⟩

/-- A whole statement of node rows. -/
def PropertyGraph.mergeNodes (graph : PropertyGraph Label RelType Key Value)
    (rows : List (NodeMerge Label Key Value)) : PropertyGraph Label RelType Key Value :=
  rows.foldl PropertyGraph.mergeNode graph

theorem PropertyGraph.mem_refs_mergeNode {graph : PropertyGraph Label RelType Key Value}
    {row : NodeMerge Label Key Value} {ref : NodeRef Label} :
    ref ∈ (graph.mergeNode row).refs ↔ ref ∈ graph.refs ∨ ref = row.ref := by
  change ref ∈ (graph.nodes.mergeInto _ _ _ row).map Node.ref ↔ _
  rw [map_ref_mergeInto]
  change _ ↔ ref ∈ graph.nodes.map Node.ref ∨ _
  split
  · next present =>
    constructor
    · exact Or.inl
    · rintro (member | rfl)
      · exact member
      · exact present
  · rw [List.mem_append, List.mem_singleton]

/-- Node rows add their own references and no others. -/
theorem PropertyGraph.mem_refs_mergeNodes {graph : PropertyGraph Label RelType Key Value}
    {rows : List (NodeMerge Label Key Value)} {ref : NodeRef Label} :
    ref ∈ (graph.mergeNodes rows).refs ↔ ref ∈ graph.refs ∨ ref ∈ rows.map NodeMerge.ref := by
  induction rows generalizing graph with
  | nil => simp [mergeNodes]
  | cons row rows ih =>
    change ref ∈ ((graph.mergeNode row).mergeNodes rows).refs ↔ _
    rw [ih, mem_refs_mergeNode, List.map_cons, List.mem_cons, or_assoc]

@[simp] theorem PropertyGraph.mergeNodes_relationships (graph : PropertyGraph Label RelType Key Value)
    (rows : List (NodeMerge Label Key Value)) :
    (graph.mergeNodes rows).relationships = graph.relationships := by
  induction rows generalizing graph with
  | nil => rfl
  | cons row rows ih => exact ih (graph.mergeNode row)

/-- The node of a reference, if there is one. -/
def PropertyGraph.nodesAt (graph : PropertyGraph Label RelType Key Value) (ref : NodeRef Label) :
    List (Node Label Key Value) :=
  graph.nodes.filter fun node => node.ref = ref

omit [DecidableEq Key] in
theorem PropertyGraph.mem_nodesAt {graph : PropertyGraph Label RelType Key Value} {ref : NodeRef Label}
    {node : Node Label Key Value} : node ∈ graph.nodesAt ref ↔ node ∈ graph.nodes ∧ node.ref = ref := by
  rw [nodesAt, List.mem_filter, decide_eq_true_eq]

omit [DecidableEq Key] in
/-- References are unique. -/
theorem PropertyGraph.nodesAt_ref {graph : PropertyGraph Label RelType Key Value}
    {node : Node Label Key Value}
    (member : node ∈ graph.nodes) : graph.nodesAt node.ref = [node] := by
  have unique : ((graph.nodesAt node.ref).map Node.ref).Nodup :=
    graph.uniqueRefs.sublist (List.filter_sublist.map Node.ref)
  have present : node ∈ graph.nodesAt node.ref := mem_nodesAt.mpr ⟨member, rfl⟩
  apply List.eq_singleton_of_nodup (List.Nodup.of_map _ unique) present
  exact fun other found => List.inj_on_of_nodup_map unique found present (mem_nodesAt.mp found).2

omit [DecidableEq Key] in
private theorem matched_iff {row : NodeMerge Label Key Value} {node : Node Label Key Value} :
    row.matched node = true ↔ node.ref = row.ref := by
  rw [NodeMerge.matched, decide_eq_true_eq]

/-- Only the rows of a reference touch its node. -/
theorem PropertyGraph.nodesAt_mergeNodes (graph : PropertyGraph Label RelType Key Value)
    (rows : List (NodeMerge Label Key Value)) (ref : NodeRef Label) :
    (graph.mergeNodes rows).nodesAt ref =
      (rows.filter fun row => row.ref = ref).foldl
        (fun nodes row => nodes.mergeInto NodeMerge.matched NodeMerge.assign NodeMerge.create row)
        (graph.nodesAt ref) := by
  induction rows generalizing graph with
  | nil => rfl
  | cons row rows ih =>
    change ((graph.mergeNode row).mergeNodes rows).nodesAt ref = _
    rw [ih, List.filter_cons]
    by_cases same : row.ref = ref
    · rw [if_pos (decide_eq_true same), List.foldl_cons]
      congr 1
      apply List.filter_mergeInto_of_kept
      · intro node hit
        rw [NodeMerge.assign, matched_iff.mp hit]
        exact ⟨decide_eq_true same, decide_eq_true same⟩
      · exact decide_eq_true same
    · rw [if_neg (by simpa using same)]
      congr 1
      apply List.filter_mergeInto_of_dropped
      · intro node hit
        rw [NodeMerge.assign, matched_iff.mp hit]
        exact ⟨decide_eq_false same, decide_eq_false same⟩
      · exact decide_eq_false same

/-- A node carries what the last row of its reference sets. -/
theorem PropertyGraph.props_mergeNodes {graph : PropertyGraph Label RelType Key Value}
    {rows : List (NodeMerge Label Key Value)} {ref : NodeRef Label} {row : NodeMerge Label Key Value}
    (last : (rows.filter fun row => row.ref = ref).getLast? = some row) {key : Key} {value : Option Value}
    (listed : row.props.lookup key = some value) {node : Node Label Key Value}
    (member : node ∈ (graph.mergeNodes rows).nodesAt ref) : node.props key = value := by
  have atRef : node.ref = ref := (mem_nodesAt.mp member).2
  obtain ⟨earlier, split⟩ := List.getLast?_eq_some_iff.mp last
  have ofRef : row.ref = ref := by
    have inRows : row ∈ rows.filter fun row => row.ref = ref := by
      rw [split]
      exact List.mem_append_right _ (List.mem_singleton_self row)
    exact of_decide_eq_true (List.mem_filter.mp inRows).2
  rw [nodesAt_mergeNodes, split, List.foldl_append, List.foldl_cons, List.foldl_nil, List.mergeInto] at member
  split at member
  · obtain ⟨before, _, rfl⟩ := List.mem_map.mp member
    split
    · change (row.props.lookup key).getD _ = value
      rw [listed, Option.getD_some]
    · next missed =>
      rw [if_neg missed] at atRef
      exact absurd (matched_iff.mpr (atRef.trans ofRef.symm)) missed
  · next missed =>
    rcases List.mem_append.mp member with before | created
    · have missing : ¬ row.matched node = true := fun hit => missed (List.any_eq_true.mpr ⟨node, before, hit⟩)
      exact absurd (matched_iff.mpr (atRef.trans ofRef.symm)) missing
    · rw [List.mem_singleton.mp created]
      change (row.props.lookup key).getD none = value
      rw [listed, Option.getD_some]

@[simp] theorem PropertyGraph.mergeNodes_append (graph : PropertyGraph Label RelType Key Value)
    (rows more : List (NodeMerge Label Key Value)) :
    graph.mergeNodes (rows ++ more) = (graph.mergeNodes rows).mergeNodes more :=
  List.foldl_append

end NodeMerge

/-! ## Relationship merges -/

/-- One relationship row: the endpoints it matches, the pattern keys it merges on, the keys it sets
afterwards, and the row's values. -/
structure RelMerge (Label RelType Key Value : Type*) where
  relType : RelType
  source : NodeRef Label
  target : NodeRef Label
  mergeKeys : List Key
  setKeys : List Key
  row : Key → Option Value

section RelMerge

variable [DecidableEq Label] [DecidableEq RelType] [DecidableEq Key] [DecidableEq Value]

def RelMerge.matched (c : RelMerge Label RelType Key Value)
    (r : Relationship Label RelType Key Value) : Bool :=
  decide (r.relType = c.relType) && (decide (r.source = c.source) && (decide (r.target = c.target) &&
    c.mergeKeys.all (fun key => r.props key = c.row key)))

def RelMerge.assign (c : RelMerge Label RelType Key Value)
    (r : Relationship Label RelType Key Value) : Relationship Label RelType Key Value :=
  { r with props := fun key => if key ∈ c.setKeys then c.row key else r.props key }

def RelMerge.create (c : RelMerge Label RelType Key Value) : Relationship Label RelType Key Value :=
  ⟨c.relType, c.source, c.target,
    fun key => if key ∈ c.setKeys ∨ key ∈ c.mergeKeys then c.row key else none⟩

/-- The properties a merge leaves on a relationship it wrote: one it created, or one it matched. -/
inductive RelMerge.Leaves (c : RelMerge Label RelType Key Value) : (Key → Option Value) → Prop
  | created : c.Leaves c.create.props
  | assigned (r : Relationship Label RelType Key Value) (matched : c.matched r = true) :
      c.Leaves (c.assign r).props

/-- Either way, the pattern and the assigned properties hold the row's values. -/
theorem RelMerge.Leaves.props_eq {c : RelMerge Label RelType Key Value} {props : Key → Option Value}
    (leaves : c.Leaves props) {key : Key} (written : key ∈ c.mergeKeys ++ c.setKeys) :
    props key = c.row key := by
  rw [List.mem_append] at written
  cases leaves with
  | created => exact if_pos written.symm
  | assigned r matched =>
    simp only [RelMerge.matched, Bool.and_eq_true, decide_eq_true_eq, List.all_eq_true] at matched
    change (if key ∈ c.setKeys then c.row key else r.props key) = c.row key
    split
    · rfl
    · next unset => exact matched.2.2.2 key (written.resolve_right unset)

/-- Both endpoints exist. -/
abbrev RelMerge.Bound (c : RelMerge Label RelType Key Value)
    (graph : PropertyGraph Label RelType Key Value) : Prop :=
  c.source ∈ graph.refs ∧ c.target ∈ graph.refs

/-- `MERGE (a)-[r]->(b) SET r..` for one bound row. -/
def PropertyGraph.mergeRelationship (graph : PropertyGraph Label RelType Key Value)
    (c : RelMerge Label RelType Key Value) (bound : c.Bound graph) :
    PropertyGraph Label RelType Key Value where
  nodes := graph.nodes
  relationships := graph.relationships.mergeInto RelMerge.matched RelMerge.assign RelMerge.create c
  uniqueRefs := graph.uniqueRefs
  anchored := by
    intro r member
    unfold List.mergeInto at member
    split at member
    · obtain ⟨r', member', rfl⟩ := List.mem_map.mp member
      split <;> exact graph.anchored r' member'
    · rcases List.mem_append.mp member with member | created
      · exact graph.anchored r member
      · rw [List.mem_singleton] at created
        subst created
        exact bound

/-- One row: unbound rows return nothing, a null pattern value fails the statement. -/
def PropertyGraph.runRow (graph : PropertyGraph Label RelType Key Value)
    (c : RelMerge Label RelType Key Value) : Except Key (PropertyGraph Label RelType Key Value × ℕ) :=
  if bound : c.Bound graph then
    match c.mergeKeys.find? (fun key => (c.row key).isNone) with
    | some key => .error key
    | none => .ok (graph.mergeRelationship c bound, max 1 (graph.relationships.countP c.matched))
  else .ok (graph, 0)

/-- The rows of one statement in order, with the number of relationships returned. -/
def PropertyGraph.unwind (graph : PropertyGraph Label RelType Key Value) :
    List (RelMerge Label RelType Key Value) → Except Key (PropertyGraph Label RelType Key Value × ℕ)
  | [] => .ok (graph, 0)
  | c :: rows =>
      match graph.runRow c with
      | .error key => .error key
      | .ok (graph, merged) =>
          match graph.unwind rows with
          | .error key => .error key
          | .ok (graph, more) => .ok (graph, merged + more)

/-- The rows that bind in a graph. -/
def PropertyGraph.boundRows (graph : PropertyGraph Label RelType Key Value)
    (rows : List (RelMerge Label RelType Key Value)) : List (RelMerge Label RelType Key Value) :=
  rows.filter fun c => c.Bound graph

/-- Every merge key has a value. -/
def RelMerge.Complete (c : RelMerge Label RelType Key Value) : Prop := ∀ key ∈ c.mergeKeys, c.row key ≠ none

instance (c : RelMerge Label RelType Key Value) : Decidable c.Complete :=
  inferInstanceAs (Decidable (∀ key ∈ c.mergeKeys, c.row key ≠ none))

/-- What makes two merges write one relationship. -/
structure MergeKey (Label RelType Key Value : Type*) where
  relType : RelType
  source : NodeRef Label
  target : NodeRef Label
  pattern : List (Key × Option Value)
deriving DecidableEq

def RelMerge.key (c : RelMerge Label RelType Key Value) : MergeKey Label RelType Key Value :=
  ⟨c.relType, c.source, c.target, c.mergeKeys.map fun key => (key, c.row key)⟩

/-- Merges of one type are told apart by the pattern only: they have one shape, or a pattern key
they share has different values. -/
def RelMerge.Compatible (c d : RelMerge Label RelType Key Value) : Prop :=
  c.relType = d.relType → c.mergeKeys = d.mergeKeys ∧ c.setKeys = d.setKeys ∨
    ∃ key ∈ c.mergeKeys, key ∈ d.mergeKeys ∧ c.row key ≠ d.row key

/-- A merge writes the relationship another created exactly when their keys agree. -/
abbrev RelMerge.Keyed (c d : RelMerge Label RelType Key Value) : Prop :=
  List.CreatesKeyed RelMerge.matched RelMerge.assign RelMerge.create RelMerge.key c d

private theorem matched_create_iff (c d : RelMerge Label RelType Key Value) :
    c.matched d.create = true ↔ d.relType = c.relType ∧ d.source = c.source ∧ d.target = c.target ∧
      ∀ key ∈ c.mergeKeys, d.create.props key = c.row key := by
  simp only [RelMerge.matched, Bool.and_eq_true, decide_eq_true_eq, List.all_eq_true]
  rfl

omit [DecidableEq Key] [DecidableEq Value] in
private theorem map_row_inj {keys : List Key} {row row' : Key → Option Value} :
    keys.map (fun key => (key, row key)) = keys.map (fun key => (key, row' key)) ↔
      ∀ key ∈ keys, row key = row' key := by
  rw [List.map_inj_left]
  simp

/-- Compatible merges write one relationship exactly when their keys agree. -/
theorem RelMerge.createsKeyed {c d : RelMerge Label RelType Key Value} (compatible : c.Compatible d) :
    c.Keyed d := by
  by_cases sameType : c.relType = d.relType
  · rcases compatible sameType with ⟨sameMerge, sameSet⟩ | ⟨key, inC, inD, differ⟩
    · have created (key : Key) (member : key ∈ c.mergeKeys) : d.create.props key = d.row key :=
        if_pos (Or.inr (sameMerge ▸ member))
      have keys : d.key = c.key ↔ d.relType = c.relType ∧ d.source = c.source ∧ d.target = c.target ∧
          ∀ key ∈ c.mergeKeys, d.row key = c.row key := by
        rw [RelMerge.key, RelMerge.key, ← sameMerge, MergeKey.mk.injEq, map_row_inj]
      constructor
      · rw [Bool.eq_iff_iff, matched_create_iff, decide_eq_true_eq, keys]
        refine and_congr_right fun _ => and_congr_right fun _ => and_congr_right fun _ => ?_
        exact forall₂_congr fun key member => by rw [created key member]
      · intro same
        obtain ⟨_, source, target, rows⟩ := keys.mp same
        have props : (fun key => if key ∈ c.setKeys then c.row key else d.create.props key) =
            c.create.props := by
          funext key
          change _ = if key ∈ c.setKeys ∨ key ∈ c.mergeKeys then c.row key else none
          by_cases inSet : key ∈ c.setKeys
          · rw [if_pos inSet, if_pos (Or.inl inSet)]
          · by_cases inMerge : key ∈ c.mergeKeys
            · rw [if_neg inSet, created key inMerge, rows key inMerge, if_pos (Or.inr inMerge)]
            · rw [if_neg inSet, if_neg (not_or.mpr ⟨inSet, inMerge⟩), RelMerge.create, ← sameMerge,
                ← sameSet]
              exact if_neg (not_or.mpr ⟨inSet, inMerge⟩)
        rw [RelMerge.assign, props]
        simp only [RelMerge.create, sameType, source, target]
    · have apart : d.key ≠ c.key := by
        intro same
        have rows : (d.mergeKeys.map fun key => (key, d.row key)) =
            c.mergeKeys.map fun key => (key, c.row key) := congrArg MergeKey.pattern same
        have member : (key, c.row key) ∈ d.mergeKeys.map fun key => (key, d.row key) :=
          rows ▸ List.mem_map.mpr ⟨key, inC, rfl⟩
        obtain ⟨key', _, pair⟩ := List.mem_map.mp member
        obtain ⟨rfl, row⟩ := Prod.mk.inj pair
        exact differ row.symm
      refine ⟨?_, fun same => absurd same apart⟩
      rw [decide_eq_false apart, Bool.eq_false_iff, ne_eq, matched_create_iff]
      rintro ⟨_, _, _, rows⟩
      have created : d.create.props key = d.row key := if_pos (Or.inr inD)
      exact differ ((rows key inC).symm.trans created)
  · have apart : d.key ≠ c.key := fun same => sameType (congrArg MergeKey.relType same).symm
    refine ⟨?_, fun same => absurd same apart⟩
    rw [decide_eq_false apart, Bool.eq_false_iff, ne_eq, matched_create_iff]
    exact fun matched => sameType matched.1.symm

/-- A complete merge never matches what another creates without one of its pattern keys. -/
theorem RelMerge.createsKeyed_of_unwritten {c d : RelMerge Label RelType Key Value} (complete : c.Complete)
    {key : Key} (inMerge : key ∈ c.mergeKeys) (unmerged : key ∉ d.mergeKeys) (unset : key ∉ d.setKeys) :
    c.Keyed d := by
  have apart : d.key ≠ c.key := by
    intro same
    have member : key ∈ c.key.pattern.map Prod.fst := by simpa [RelMerge.key] using inMerge
    rw [← same] at member
    exact unmerged (by simpa [RelMerge.key] using member)
  refine ⟨?_, fun same => absurd same apart⟩
  rw [decide_eq_false apart, Bool.eq_false_iff, ne_eq, matched_create_iff]
  rintro ⟨_, _, _, rows⟩
  have absent : d.create.props key = none := if_neg (not_or.mpr ⟨unset, unmerged⟩)
  exact complete key inMerge ((rows key inMerge).symm.trans absent)

/-! ## Statements -/

section Statements

variable {graph graph' : PropertyGraph Label RelType Key Value}
  {rows : List (RelMerge Label RelType Key Value)} {c : RelMerge Label RelType Key Value} {merged : ℕ}

omit [DecidableEq Label] [DecidableEq RelType] [DecidableEq Key] [DecidableEq Value] in
private theorem find?_isNone_eq_none_iff (c : RelMerge Label RelType Key Value) :
    c.mergeKeys.find? (fun key => (c.row key).isNone) = none ↔ c.Complete := by
  rw [List.find?_eq_none]
  exact forall₂_congr fun key _ => by rw [Option.isNone_iff_eq_none]

theorem PropertyGraph.runRow_of_bound (bound : c.Bound graph) (complete : c.Complete) :
    graph.runRow c =
      .ok (graph.mergeRelationship c bound, max 1 (graph.relationships.countP c.matched)) := by
  rw [runRow, dif_pos bound, (find?_isNone_eq_none_iff c).mpr complete]

/-- What a row that ran has done. -/
theorem PropertyGraph.runRow_ok (ran : graph.runRow c = .ok (graph', merged)) :
    (¬ c.Bound graph ∧ graph' = graph ∧ merged = 0) ∨
      ∃ bound : c.Bound graph, c.Complete ∧ graph' = graph.mergeRelationship c bound ∧
        merged = max 1 (graph.relationships.countP c.matched) := by
  by_cases bound : c.Bound graph
  · right
    rw [runRow, dif_pos bound] at ran
    split at ran
    · cases ran
    · next complete =>
      cases ran
      exact ⟨bound, (find?_isNone_eq_none_iff c).mp complete, rfl, rfl⟩
  · left
    rw [runRow, dif_neg bound] at ran
    cases ran
    exact ⟨bound, rfl, rfl⟩

theorem PropertyGraph.runRow_nodes (ran : graph.runRow c = .ok (graph', merged)) :
    graph'.nodes = graph.nodes := by
  rcases runRow_ok ran with ⟨_, rfl, _⟩ | ⟨_, _, rfl, _⟩ <;> rfl

theorem PropertyGraph.unwind_cons_ok (ran : graph.unwind (c :: rows) = .ok (graph', merged)) :
    ∃ middle first more, graph.runRow c = .ok (middle, first) ∧
      middle.unwind rows = .ok (graph', more) ∧ merged = first + more := by
  rw [unwind] at ran
  split at ran
  · cases ran
  · next middle first row =>
    split at ran
    · cases ran
    · next last more rest =>
      cases ran
      exact ⟨middle, first, more, row, rest, rfl⟩

theorem PropertyGraph.unwind_nodes (ran : graph.unwind rows = .ok (graph', merged)) :
    graph'.nodes = graph.nodes := by
  induction rows generalizing graph merged with
  | nil => cases ran; rfl
  | cons c rows ih =>
    obtain ⟨middle, _, _, row, rest, _⟩ := unwind_cons_ok ran
    rw [ih rest, runRow_nodes row]

/-- A statement whose bound rows are complete never fails. -/
theorem PropertyGraph.unwind_of_complete (graph : PropertyGraph Label RelType Key Value)
    (complete : ∀ c ∈ rows, c.Bound graph → c.Complete) :
    ∃ graph' merged, graph.unwind rows = .ok (graph', merged) := by
  induction rows generalizing graph with
  | nil => exact ⟨graph, 0, rfl⟩
  | cons c rows ih =>
    obtain ⟨middle, first, row⟩ : ∃ middle first, graph.runRow c = .ok (middle, first) := by
      by_cases bound : c.Bound graph
      · exact ⟨_, _, runRow_of_bound bound (complete c List.mem_cons_self bound)⟩
      · exact ⟨graph, 0, dif_neg bound⟩
    have sameRefs : middle.refs = graph.refs := by rw [refs, refs, runRow_nodes row]
    obtain ⟨last, more, rest⟩ := ih middle fun d member bound =>
      complete d (List.mem_cons_of_mem c member) (by rwa [RelMerge.Bound, ← sameRefs])
    exact ⟨last, first + more, by rw [unwind, row]; simp only [rest]⟩

/-- A statement whose rows are all bound returns a relationship for each. -/
theorem PropertyGraph.length_le_of_unwind (bound : ∀ c ∈ rows, c.Bound graph)
    (ran : graph.unwind rows = .ok (graph', merged)) : rows.length ≤ merged := by
  induction rows generalizing graph merged with
  | nil => exact Nat.zero_le merged
  | cons c rows ih =>
    obtain ⟨middle, first, more, row, rest, rfl⟩ := unwind_cons_ok ran
    have sameRefs : middle.refs = graph.refs := by rw [refs, refs, runRow_nodes row]
    have later : rows.length ≤ more := by
      refine ih (fun d member => ?_) rest
      rw [RelMerge.Bound, sameRefs]
      exact bound d (List.mem_cons_of_mem c member)
    rcases runRow_ok row with ⟨unbound, _⟩ | ⟨_, _, _, rfl⟩
    · exact absurd (bound c List.mem_cons_self) unbound
    · rw [List.length_cons]
      omega

/-- The relationships a graph holds beyond `others` are those its merges created, by key. -/
structure PropertyGraph.Written (graph : PropertyGraph Label RelType Key Value)
    (others : List (Relationship Label RelType Key Value))
    (table : List (RelMerge Label RelType Key Value)) : Prop where
  relationships : graph.relationships = others ++ table.map RelMerge.create
  unique : (table.map RelMerge.key).Nodup

variable {others : List (Relationship Label RelType Key Value)}
  {table : List (RelMerge Label RelType Key Value)}

omit [DecidableEq Label] [DecidableEq RelType] [DecidableEq Value] in
theorem PropertyGraph.Written.empty :
    (PropertyGraph.empty : PropertyGraph Label RelType Key Value).Written [] [] where
  relationships := rfl
  unique := List.nodup_nil

omit [DecidableEq Label] [DecidableEq RelType] [DecidableEq Value] in
/-- Whatever a graph holds, no merge has written to it yet. -/
theorem PropertyGraph.Written.start (graph : PropertyGraph Label RelType Key Value) :
    graph.Written graph.relationships [] where
  relationships := (List.append_nil _).symm
  unique := List.nodup_nil

omit [DecidableEq RelType] [DecidableEq Value] in
theorem PropertyGraph.Written.mergeNodes (written : graph.Written others table)
    (rows : List (NodeMerge Label Key Value)) : (graph.mergeNodes rows).Written others table where
  relationships := (mergeNodes_relationships graph rows).trans written.relationships
  unique := written.unique

/-- A bound row upserts itself into the table, and one relationship at most matched it. -/
theorem PropertyGraph.Written.mergeRelationship (written : graph.Written others table)
    (bound : c.Bound graph) (keyed : ∀ d ∈ table, c.Keyed d)
    (untouched : ∀ r ∈ others, c.matched r = false) :
    (graph.mergeRelationship c bound).Written others (table.upsert RelMerge.key c) ∧
      graph.relationships.countP c.matched ≤ 1 := by
  refine ⟨⟨?_, List.nodup_upsert _ written.unique⟩, ?_⟩
  · change graph.relationships.mergeInto _ _ _ c = _
    rw [written.relationships, List.mergeInto_append_left untouched,
      List.mergeInto_map_create written.unique keyed]
  · have none : others.countP c.matched = 0 :=
      List.countP_eq_zero.mpr fun r member => by rw [untouched r member]; decide
    rw [written.relationships, List.countP_append, none, Nat.zero_add]
    exact List.countP_matched_map written.unique keyed

/-- A statement that ran has upserted its bound rows, all of them complete, and returned one
relationship for each. -/
theorem PropertyGraph.unwind_bound (written : graph.Written others table)
    (keyed : ∀ c ∈ rows, c.Complete → ∀ d, d ∈ table ∨ d ∈ rows → c.Keyed d)
    (untouched : ∀ c ∈ rows, ∀ r ∈ others, c.matched r = false)
    (ran : graph.unwind rows = .ok (graph', merged)) :
    (∀ c ∈ graph.boundRows rows, c.Complete) ∧ merged = (graph.boundRows rows).length ∧
      graph'.Written others (table.upserts RelMerge.key (graph.boundRows rows)) := by
  induction rows generalizing graph table merged with
  | nil =>
    cases ran
    exact ⟨by simp [boundRows], rfl, written⟩
  | cons c rows ih =>
    obtain ⟨middle, first, more, row, rest, rfl⟩ := unwind_cons_ok ran
    have later (d : RelMerge Label RelType Key Value) (member : d ∈ rows) := List.mem_cons_of_mem c member
    have sameRefs : middle.refs = graph.refs := by rw [refs, refs, runRow_nodes row]
    have sameRows : middle.boundRows rows = graph.boundRows rows := by
      simp only [boundRows, RelMerge.Bound, sameRefs]
    have untouchedRest := fun d member => untouched d (later d member)
    rcases runRow_ok row with ⟨unbound, rfl, rfl⟩ | ⟨bound, complete, rfl, rfl⟩
    · have skipped : middle.boundRows (c :: rows) = middle.boundRows rows :=
        List.filter_cons_of_neg (by simpa using unbound)
      have keyedRest : ∀ d ∈ rows, d.Complete → ∀ e, e ∈ table ∨ e ∈ rows → d.Keyed e :=
        fun d member complete e place => keyed d (later d member) complete e (place.imp_right (later e))
      rw [skipped, Nat.zero_add]
      exact ih written keyedRest untouchedRest rest
    · have kept : graph.boundRows (c :: rows) = c :: graph.boundRows rows :=
        List.filter_cons_of_pos (by simpa using bound)
      obtain ⟨written', atMost⟩ := written.mergeRelationship bound
        (fun d member => keyed c List.mem_cons_self complete d (Or.inl member))
        (untouched c List.mem_cons_self)
      have one : max 1 (graph.relationships.countP c.matched) = 1 := Nat.max_eq_left atMost
      have keyedRest : ∀ d ∈ rows, d.Complete → ∀ e, e ∈ table.upsert RelMerge.key c ∨ e ∈ rows →
          d.Keyed e := by
        intro d member completeD e place
        refine keyed d (later d member) completeD e ?_
        rcases place with inTable | inRows
        · rcases List.mem_of_mem_upsert RelMerge.key inTable with rfl | inTable
          · exact Or.inr List.mem_cons_self
          · exact Or.inl inTable
        · exact Or.inr (later e inRows)
      obtain ⟨completeRest, counted, tableWritten⟩ := ih written' keyedRest untouchedRest rest
      rw [sameRows] at completeRest counted tableWritten
      rw [kept]
      refine ⟨List.forall_mem_cons.mpr ⟨complete, completeRest⟩, ?_, tableWritten⟩
      rw [one, counted, List.length_cons, Nat.add_comm]

end Statements

end RelMerge

end Cypher
