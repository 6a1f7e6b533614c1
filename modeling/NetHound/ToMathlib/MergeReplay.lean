import NetHound.ToMathlib.KeyedTable

/-! # Repeating merges

A run of merges over a store is settled when every write matches something and writing everything
once more would change no entity. Under the laws of `Repeatable` a run settles what it writes to,
whatever the store held before, and merging the same writes into a settled store is the identity.
How many entities a write matches does not change after it either.
-/

namespace List

variable {α E : Type*} {matched : α → E → Bool} {assign : α → E → E} {create : α → E}

/-- What one merge does to an entity that exists. -/
def touch (matched : α → E → Bool) (assign : α → E → E) (e : E) (a : α) : E :=
  if matched a e then assign a e else e

/-- What a run of merges does to an entity that exists. -/
def replay (matched : α → E → Bool) (assign : α → E → E) (writes : List α) (e : E) : E :=
  writes.foldl (touch matched assign) e

def mergeAll (matched : α → E → Bool) (assign : α → E → E) (create : α → E) (writes : List α)
    (entities : List E) : List E :=
  writes.foldl (fun entities a => mergeInto matched assign create a entities) entities

theorem mergeAll_append (writes more : List α) (entities : List E) :
    mergeAll matched assign create (writes ++ more) entities =
      mergeAll matched assign create more (mergeAll matched assign create writes entities) :=
  foldl_append

/-- The laws that make a repeated run of writes satisfying `p` harmless. -/
structure Repeatable (matched : α → E → Bool) (assign : α → E → E) (create : α → E) (p : α → Prop) :
    Prop where
  /-- Assigning changes no match. -/
  stable : ∀ {a b : α} {e : E}, p a → p b → matched b e = true → matched a (assign b e) = matched a e
  /-- A write matches what it creates, and would assign it the same again. -/
  owned : ∀ {a : α}, p a → matched a (create a) = true ∧ assign a (create a) = create a
  /-- Two writes that match what one of them creates match the same entities. -/
  shared : ∀ {a b : α}, p a → p b → matched a (create b) = true → ∀ e, matched a e = matched b e
  idem : ∀ {a : α} {e : E}, p a → matched a e = true → assign a (assign a e) = assign a e
  /-- An earlier assignment is lost on a later repetition. -/
  absorbs : ∀ {a b : α} {e : E}, p a → p b → matched a e = true → matched b e = true →
    assign a (assign b (assign a e)) = assign a (assign b e)

/-- Every write matches something, and writing everything again changes no entity. -/
structure Settled (matched : α → E → Bool) (assign : α → E → E) (writes : List α) (entities : List E) :
    Prop where
  present : ∀ a ∈ writes, entities.any (matched a) = true
  fixed : ∀ e ∈ entities, replay matched assign writes e = e

section Replay

variable {p : α → Prop} (laws : Repeatable matched assign create p) {a b : α} {writes : List α} {e : E}
  {entities : List E}

theorem replay_append (writes more : List α) (e : E) :
    replay matched assign (writes ++ more) e =
      replay matched assign more (replay matched assign writes e) :=
  foldl_append

/-- Writes that match an entity nowhere leave it alone. -/
theorem replay_of_missed (missed : ∀ a ∈ writes, matched a e = false) :
    replay matched assign writes e = e := by
  induction writes with
  | nil => rfl
  | cons a writes ih =>
    obtain ⟨miss, missed⟩ := forall_mem_cons.mp missed
    change replay matched assign writes (touch matched assign e a) = e
    rw [touch, miss]
    exact ih missed

include laws in
theorem Repeatable.matched_touch (ofA : p a) (ofB : p b) :
    matched a (touch matched assign e b) = matched a e := by
  rw [touch]
  split
  · next hit => exact laws.stable ofA ofB hit
  · rfl

include laws in
private theorem touch_touch (ofA : p a) :
    touch matched assign (touch matched assign e a) a = touch matched assign e a := by
  rcases hit : matched a e with _ | _
  · simp [touch, hit]
  · have again : matched a (assign a e) = true := (laws.stable ofA ofA hit).trans hit
    simp [touch, hit, again, laws.idem ofA hit]

include laws in
private theorem touch_absorbs (ofA : p a) (ofB : p b) :
    touch matched assign (touch matched assign (touch matched assign e a) b) a =
      touch matched assign (touch matched assign e b) a := by
  rcases hitA : matched a e with _ | _
  · have untouched : touch matched assign e a = e := by simp [touch, hitA]
    rw [untouched]
  · rcases hitB : matched b e with _ | _
    · have untouched : touch matched assign e b = e := by simp [touch, hitB]
      have untouched' : touch matched assign (touch matched assign e a) b = touch matched assign e a := by
        have miss : matched b (touch matched assign e a) = false := (laws.matched_touch ofB ofA).trans hitB
        rw [touch, miss]
        rfl
      rw [untouched, untouched', touch_touch laws ofA]
    · have hitB' : matched b (assign a e) = true := (laws.stable ofB ofA hitA).trans hitB
      have hitA' : matched a (assign b (assign a e)) = true :=
        (laws.stable ofA ofB hitB').trans ((laws.stable ofA ofA hitA).trans hitA)
      have hitA'' : matched a (assign b e) = true := (laws.stable ofA ofB hitB).trans hitA
      simp only [touch, hitA, hitB, hitB', hitA', hitA'', if_true]
      exact laws.absorbs ofA ofB hitA hitB

include laws in
private theorem touch_replay_touch (ofA : p a) (all : ∀ b ∈ writes, p b) :
    touch matched assign (replay matched assign writes (touch matched assign e a)) a =
      touch matched assign (replay matched assign writes e) a := by
  induction writes generalizing e with
  | nil => exact touch_touch laws ofA
  | cons b writes ih =>
    obtain ⟨ofB, all⟩ := forall_mem_cons.mp all
    calc touch matched assign (replay matched assign writes
            (touch matched assign (touch matched assign e a) b)) a
        = touch matched assign (replay matched assign writes
            (touch matched assign (touch matched assign (touch matched assign e a) b) a)) a := (ih all).symm
      _ = touch matched assign (replay matched assign writes
            (touch matched assign (touch matched assign e b) a)) a := by rw [touch_absorbs laws ofA ofB]
      _ = touch matched assign (replay matched assign writes (touch matched assign e b)) a := ih all

include laws in
/-- Whatever is written in between, only the last of two equal runs counts. -/
theorem Repeatable.replay_absorbs (between : List α) (all : ∀ a ∈ writes, p a)
    (allBetween : ∀ a ∈ between, p a) :
    replay matched assign writes (replay matched assign between (replay matched assign writes e)) =
      replay matched assign writes (replay matched assign between e) := by
  induction writes generalizing between e with
  | nil => rfl
  | cons b writes ih =>
    obtain ⟨ofB, all⟩ := forall_mem_cons.mp all
    have extended : ∀ a ∈ between ++ [b], p a := by
      intro a member
      rcases mem_append.mp member with inBetween | last
      · exact allBetween a inBetween
      · exact mem_singleton.mp last ▸ ofB
    have step := ih (e := touch matched assign e b) (between ++ [b]) all extended
    rw [replay_append, replay_append] at step
    have absorbed := touch_replay_touch laws (e := e) ofB allBetween
    change replay matched assign writes
        (touch matched assign (replay matched assign between
          (replay matched assign writes (touch matched assign e b))) b) =
      replay matched assign writes (touch matched assign (replay matched assign between e) b)
    rw [← absorbed]
    exact step

include laws in
theorem Repeatable.replay_replay (all : ∀ a ∈ writes, p a) :
    replay matched assign writes (replay matched assign writes e) = replay matched assign writes e :=
  laws.replay_absorbs [] all (by simp)

end Replay

section MergeAll

variable {p : α → Prop} (laws : Repeatable matched assign create p) {a b : α} {writes : List α}
  {entities : List E}

private theorem mergeInto_of_any (hit : entities.any (matched a) = true) :
    mergeInto matched assign create a entities = entities.map (touch matched assign · a) :=
  if_pos hit

private theorem mergeInto_of_not_any (miss : entities.any (matched a) = false) :
    mergeInto matched assign create a entities = entities ++ [create a] :=
  if_neg (by rw [miss]; exact Bool.false_ne_true)

include laws in
theorem Repeatable.countP_map_touch (ofA : p a) (ofB : p b) (entities : List E) :
    (entities.map (touch matched assign · a)).countP (matched b) = entities.countP (matched b) := by
  rw [countP_map]
  congr 1
  funext e
  exact laws.matched_touch ofB ofA

include laws in
/-- A merge leaves exactly its own matches, or the one it creates. -/
theorem Repeatable.countP_mergeInto_self (ofA : p a) (entities : List E) :
    (mergeInto matched assign create a entities).countP (matched a) = max 1 (entities.countP (matched a)) := by
  rcases found : entities.any (matched a) with _ | _
  · have none : entities.countP (matched a) = 0 :=
      countP_eq_zero.mpr fun e member hit => by
        rw [any_eq_false] at found
        exact found e member hit
    rw [mergeInto_of_not_any found, countP_append, none, countP_singleton, if_pos (laws.owned ofA).1]
    rfl
  · have some : 0 < entities.countP (matched a) := countP_pos_iff.mpr (any_eq_true.mp found)
    rw [mergeInto_of_any found, laws.countP_map_touch ofA ofA]
    omega

include laws in
/-- A merge changes no count of a write that already matches something. -/
theorem Repeatable.countP_mergeInto (ofA : p a) (ofB : p b) (present : entities.any (matched b) = true) :
    (mergeInto matched assign create a entities).countP (matched b) = entities.countP (matched b) := by
  rcases found : entities.any (matched a) with _ | _
  · have miss : matched b (create a) = false := by
      by_contra hit
      have same := laws.shared ofB ofA (Bool.not_eq_false _ |>.mp hit)
      rw [show matched b = matched a from funext same, found] at present
      cases present
    rw [mergeInto_of_not_any found, countP_append, countP_singleton, miss]
    rfl
  · rw [mergeInto_of_any found, laws.countP_map_touch ofA ofB]

include laws in
theorem Repeatable.any_mergeInto (ofA : p a) (ofB : p b) (present : entities.any (matched b) = true) :
    (mergeInto matched assign create a entities).any (matched b) = true := by
  rw [any_eq_true, ← countP_pos_iff] at present ⊢
  rwa [laws.countP_mergeInto ofA ofB (any_eq_true.mpr (countP_pos_iff.mp present))]

include laws in
theorem Repeatable.any_mergeInto_self (ofA : p a) (entities : List E) :
    (mergeInto matched assign create a entities).any (matched a) = true := by
  rw [any_eq_true, ← countP_pos_iff, laws.countP_mergeInto_self ofA]
  omega

include laws in
/-- One more write keeps a store settled. -/
theorem Settled.mergeInto (ofA : p a) (all : ∀ b ∈ writes, p b)
    (settled : Settled matched assign writes entities) :
    Settled matched assign (writes ++ [a]) (mergeInto matched assign create a entities) where
  present := by
    intro b member
    rcases mem_append.mp member with earlier | last
    · exact laws.any_mergeInto ofA (all b earlier) (settled.present b earlier)
    · obtain rfl := mem_singleton.mp last
      exact laws.any_mergeInto_self ofA entities
  fixed := by
    have allA : ∀ b ∈ writes ++ [a], p b := by
      intro b member
      rcases mem_append.mp member with earlier | last
      · exact all b earlier
      · exact mem_singleton.mp last ▸ ofA
    have touched : ∀ e ∈ entities,
        replay matched assign (writes ++ [a]) (touch matched assign e a) = touch matched assign e a := by
      intro e member
      have whole : touch matched assign e a = replay matched assign (writes ++ [a]) e := by
        rw [replay_append, settled.fixed e member]
        rfl
      rw [whole, laws.replay_replay allA]
    intro e member
    rcases found : entities.any (matched a) with _ | _
    · rw [mergeInto_of_not_any found, mem_append] at member
      rcases member with old | created
      · have untouched : touch matched assign e a = e := by
          have miss : matched a e = false := by simpa using any_eq_false.mp found e old
          rw [touch, miss]
          rfl
        rw [← untouched]
        exact touched e old
      · obtain rfl := mem_singleton.mp created
        have missed : ∀ b ∈ writes, matched b (create a) = false := by
          intro b earlier
          by_contra hit
          have same := laws.shared (all b earlier) ofA (Bool.not_eq_false _ |>.mp hit)
          have present := settled.present b earlier
          rw [show matched b = matched a from funext same, found] at present
          cases present
        rw [replay_append, replay_of_missed missed]
        change touch matched assign (create a) a = create a
        rw [touch, if_pos (laws.owned ofA).1, (laws.owned ofA).2]
    · rw [mergeInto_of_any found, mem_map] at member
      obtain ⟨before, old, rfl⟩ := member
      exact touched before old

include laws in
private theorem settled_foldl {done : List α} (all : ∀ a ∈ writes, p a) (allDone : ∀ a ∈ done, p a)
    (settled : Settled matched assign done entities) :
    Settled matched assign (done ++ writes) (mergeAll matched assign create writes entities) := by
  induction writes generalizing done entities with
  | nil => rwa [append_nil]
  | cons a writes ih =>
    obtain ⟨ofA, all⟩ := forall_mem_cons.mp all
    rw [append_cons]
    apply ih all
    · intro b member
      rcases mem_append.mp member with earlier | last
      · exact allDone b earlier
      · exact mem_singleton.mp last ▸ ofA
    · exact settled.mergeInto laws ofA allDone

theorem Settled.nil (entities : List E) : Settled matched assign ([] : List α) entities where
  present := by simp
  fixed := fun _ _ => rfl

include laws in
/-- A run of merges settles whatever store it starts from. -/
theorem Repeatable.settled (all : ∀ a ∈ writes, p a) (entities : List E) :
    Settled matched assign writes (mergeAll matched assign create writes entities) :=
  settled_foldl laws all (by simp) (.nil entities)

include laws in
/-- Merges change no count of a write that already matches something. -/
theorem Repeatable.countP_mergeAll (ofB : p b) (all : ∀ a ∈ writes, p a)
    (present : entities.any (matched b) = true) :
    (mergeAll matched assign create writes entities).countP (matched b) = entities.countP (matched b) := by
  induction writes generalizing entities with
  | nil => rfl
  | cons a writes ih =>
    obtain ⟨ofA, all⟩ := forall_mem_cons.mp all
    exact (ih all (laws.any_mergeInto ofA ofB present)).trans (laws.countP_mergeInto ofA ofB present)

include laws in
/-- Writes that all match something only reassign. -/
theorem Repeatable.mergeAll_eq_map (all : ∀ a ∈ writes, p a)
    (present : ∀ a ∈ writes, entities.any (matched a) = true) :
    mergeAll matched assign create writes entities = entities.map (replay matched assign writes) := by
  induction writes generalizing entities with
  | nil => exact (map_id entities).symm
  | cons a writes ih =>
    obtain ⟨ofA, all⟩ := forall_mem_cons.mp all
    obtain ⟨first, rest⟩ := forall_mem_cons.mp present
    change mergeAll matched assign create writes (mergeInto matched assign create a entities) = _
    rw [ih all fun b member => laws.any_mergeInto ofA (all b member) (rest b member),
      mergeInto_of_any first, map_map]
    rfl

include laws in
/-- Merging into a settled store is the identity. -/
theorem Repeatable.mergeAll_of_settled (all : ∀ a ∈ writes, p a)
    (settled : Settled matched assign writes entities) :
    mergeAll matched assign create writes entities = entities := by
  rw [laws.mergeAll_eq_map all settled.present]
  exact (map_congr_left settled.fixed).trans (map_id entities)

include laws in
/-- Merging twice is merging once. -/
theorem Repeatable.mergeAll_mergeAll (all : ∀ a ∈ writes, p a) (entities : List E) :
    mergeAll matched assign create writes (mergeAll matched assign create writes entities) =
      mergeAll matched assign create writes entities :=
  laws.mergeAll_of_settled all (laws.settled all entities)

include laws in
/-- Writes of which some had been merged before leave what they would have left anyway. -/
theorem Repeatable.mergeAll_resumed (all : ∀ a ∈ writes, p a) (later : List α) (entities : List E) :
    mergeAll matched assign create (writes ++ later) (mergeAll matched assign create writes entities) =
      mergeAll matched assign create (writes ++ later) entities := by
  rw [mergeAll_append, laws.mergeAll_mergeAll all, ← mergeAll_append]

end MergeAll

end List
