import Mathlib.Data.List.Forall2

/-! # Lists taken apart

What is inserted into a list, what is read off the items that have a value, and the pieces between
separators. A list that is cut at one separator, gets pieces inserted, and is cut at a second separator
has the pieces inserted into the parts that the second separator cuts.
-/

namespace List

variable {α β γ δ : Type*}

/-- Reading off what was made of the present values gives one reading for each item that has one. -/
theorem map_filterMap_map {value : α → Option β} {make : α → β → γ} {read : γ → δ} {own : α → δ}
    (same : ∀ a b, value a = some b → read (make a b) = own a) (l : List α) :
    (l.filterMap fun a => (value a).map (make a)).map read =
      (l.filter fun a => (value a).isSome).map own := by
  induction l with
  | nil => rfl
  | cons a l ih =>
    rcases present : value a with _ | b
    · simp only [filterMap_cons, filter_cons, present, Option.map_none, Option.isSome_none]
      exact ih
    · simp only [filterMap_cons, filter_cons, present, Option.map_some, Option.isSome_some, if_true,
        map_cons, same a b present, ih]

/-! ## Insertions -/

/-- The second list is the first with elements that satisfy `p` inserted anywhere. -/
inductive Inserted (p : α → Prop) : List α → List α → Prop
  | nil : Inserted p [] []
  | keep (a : α) {l l' : List α} : Inserted p l l' → Inserted p (a :: l) (a :: l')
  | insert {a : α} {l l' : List α} : p a → Inserted p l l' → Inserted p l (a :: l')

theorem Inserted.filter_eq {p : α → Prop} {q : α → Bool} {l l' : List α} (inserted : Inserted p l l')
    (excluded : ∀ a, p a → q a = false) : l'.filter q = l.filter q := by
  induction inserted with
  | nil => rfl
  | keep a _ ih => rw [filter_cons, filter_cons, ih]
  | insert irrelevant _ ih =>
    rw [filter_cons_of_neg (by rw [excluded _ irrelevant]; exact Bool.false_ne_true), ih]

theorem Inserted.refl (p : α → Prop) (l : List α) : Inserted p l l := by
  induction l with
  | nil => exact .nil
  | cons a l ih => exact .keep a ih

theorem Inserted.append {p : α → Prop} {l l' m m' : List α} (first : Inserted p l l')
    (second : Inserted p m m') : Inserted p (l ++ m) (l' ++ m') := by
  induction first with
  | nil => exact second
  | keep a _ ih => exact .keep a ih
  | insert inserted _ ih => exact .insert inserted ih

theorem Inserted.reverse {p : α → Prop} {l l' : List α} (inserted : Inserted p l l') :
    Inserted p l.reverse l'.reverse := by
  induction inserted with
  | nil => exact .nil
  | keep a _ ih =>
    rw [reverse_cons, reverse_cons]
    exact ih.append (.refl p [a])
  | @insert a l l' satisfies _ ih =>
    rw [reverse_cons, ← append_nil l.reverse]
    exact ih.append (.insert satisfies .nil)

theorem Inserted.map {p : α → Prop} {q : β → Prop} {f : α → β} (satisfies : ∀ a, p a → q (f a))
    {l l' : List α} (inserted : Inserted p l l') : Inserted q (l.map f) (l'.map f) := by
  induction inserted with
  | nil => exact .nil
  | keep a _ ih => exact .keep (f a) ih
  | insert inserted _ ih => exact .insert (satisfies _ inserted) ih

/-- A filter that keeps the list keeps what it leaves of the insertions. -/
theorem Inserted.filter {p q : α → Prop} {keep : α → Bool} {l l' : List α} (inserted : Inserted p l l')
    (kept : ∀ a ∈ l, keep a = true) (left : ∀ a, p a → keep a = true → q a) :
    Inserted q l (l'.filter keep) := by
  induction inserted with
  | nil => exact .nil
  | keep a _ ih =>
    obtain ⟨first, rest⟩ := forall_mem_cons.mp kept
    rw [filter_cons_of_pos first]
    exact .keep a (ih rest)
  | @insert a _ _ satisfies _ ih =>
    cases chosen : keep a with
    | true =>
      rw [filter_cons_of_pos chosen]
      exact .insert (left a satisfies chosen) (ih kept)
    | false =>
      rw [filter_cons_of_neg (by rw [chosen]; exact Bool.false_ne_true)]
      exact ih kept

/-- Everything in the longer list was there or was inserted. -/
theorem Inserted.mem {p : α → Prop} {l l' : List α} (inserted : Inserted p l l') {a : α} (member : a ∈ l') :
    a ∈ l ∨ p a := by
  induction inserted with
  | nil => cases member
  | keep b _ ih =>
    rcases mem_cons.mp member with rfl | later
    · exact Or.inl mem_cons_self
    · exact (ih later).imp_left (mem_cons_of_mem b)
  | insert satisfies _ ih =>
    rcases mem_cons.mp member with rfl | later
    · exact Or.inr satisfies
    · exact ih later

theorem Inserted.subset {p : α → Prop} {l l' : List α} (inserted : Inserted p l l') : l ⊆ l' := by
  induction inserted with
  | nil => exact nil_subset _
  | keep a _ ih => exact cons_subset_cons a ih
  | insert _ _ ih => exact List.Subset.trans ih (subset_cons_self _ _)

/-! ## Joining -/

theorem intercalate_concat_append (b : α) (lines : List (List α)) (line more : List α) :
    [b].intercalate (lines ++ [line ++ more]) = [b].intercalate (lines ++ [line]) ++ more := by
  induction lines with
  | nil => simp
  | cons first lines ih =>
    rw [cons_append, cons_append, intercalate_cons_of_ne_nil (by simp), intercalate_cons_of_ne_nil (by simp),
      ih]
    simp only [append_assoc]

theorem intercalate_concat_nil (b : α) {lines : List (List α)} (nonempty : lines ≠ []) :
    [b].intercalate (lines ++ [[]]) = [b].intercalate lines ++ [b] := by
  induction lines with
  | nil => exact absurd rfl nonempty
  | cons first lines ih =>
    rcases lines with _ | ⟨next, lines⟩
    · simp
    · rw [cons_append, intercalate_cons_of_ne_nil (by simp), intercalate_cons_cons,
        ih (cons_ne_nil next lines)]
      simp only [append_assoc]

/-! ## Pieces side by side -/

/-- The pieces of two lists put side by side: the last one of the first joins the first of the second. -/
def joinPieces : List (List α) → List (List α) → List (List α)
  | [], vs => vs
  | [u], [] => [u]
  | [u], v :: vs => (u ++ v) :: vs
  | u :: u' :: us, vs => u :: joinPieces (u' :: us) vs

theorem joinPieces_cons {u : List α} {us : List (List α)} (nonempty : us ≠ []) (vs : List (List α)) :
    joinPieces (u :: us) vs = u :: joinPieces us vs := by
  obtain ⟨u', us, rfl⟩ := exists_cons_of_ne_nil nonempty
  rfl

theorem joinPieces_concat (us : List (List α)) (u v : List α) (vs : List (List α)) :
    joinPieces (us ++ [u]) (v :: vs) = us ++ (u ++ v) :: vs := by
  induction us with
  | nil => rfl
  | cons u' us ih => rw [cons_append, joinPieces_cons (by simp), ih, cons_append]

theorem joinPieces_modifyHead {us : List (List α)} (nonempty : us ≠ []) (a : α) (vs : List (List α)) :
    joinPieces (us.modifyHead (cons a)) vs = (joinPieces us vs).modifyHead (cons a) := by
  rcases us with _ | ⟨u, _ | ⟨u', us⟩⟩
  · exact absurd rfl nonempty
  · cases vs <;> rfl
  · rfl

/-- A joined piece is a piece of one side, or the two that met. -/
theorem mem_joinPieces {us vs : List (List α)} (nonempty : us ≠ []) {x : List α}
    (member : x ∈ joinPieces us vs) : x ∈ us ∨ x ∈ vs.tail ∨ ∃ u ∈ us, ∃ v ∈ vs.head?, x = u ++ v := by
  induction us with
  | nil => exact absurd rfl nonempty
  | cons u us ih =>
    rcases us with _ | ⟨u', us⟩
    · rcases vs with _ | ⟨v, vs⟩
      · exact Or.inl member
      · rcases mem_cons.mp member with rfl | later
        · exact Or.inr (Or.inr ⟨u, mem_cons_self, v, rfl, rfl⟩)
        · exact Or.inr (Or.inl later)
    · rw [joinPieces_cons (cons_ne_nil u' us)] at member
      rcases mem_cons.mp member with rfl | later
      · exact Or.inl mem_cons_self
      · rcases ih (cons_ne_nil u' us) later with first | second | ⟨w, inFirst, v, inSecond, rfl⟩
        · exact Or.inl (mem_cons_of_mem u first)
        · exact Or.inr (Or.inl second)
        · exact Or.inr (Or.inr ⟨w, mem_cons_of_mem u inFirst, v, inSecond, rfl⟩)

private theorem map_intercalate_joinPieces (b : α) {pieces : List (List α)} (nonempty : pieces ≠ [])
    {part : List (List α)} (lines : part ≠ []) (parts : List (List (List α))) :
    (joinPieces (pieces.map fun piece => [piece]) (part :: parts)).map [b].intercalate =
      joinPieces pieces ((b :: [b].intercalate part) :: parts.map [b].intercalate) := by
  induction pieces with
  | nil => exact absurd rfl nonempty
  | cons piece pieces ih =>
    rcases pieces with _ | ⟨next, pieces⟩
    · change [b].intercalate (piece :: part) :: _ = _
      rw [intercalate_cons_of_ne_nil lines, append_assoc, singleton_append]
      rfl
    · rw [map_cons, joinPieces_cons (by simp), joinPieces_cons (cons_ne_nil next pieces), map_cons,
        ih (cons_ne_nil next pieces), intercalate_singleton]

section Split

variable [BEq α]

theorem splitOn_append (a : α) (l l' : List α) :
    (l ++ l').splitOn a = joinPieces (l.splitOn a) (l'.splitOn a) := by
  induction l with
  | nil =>
    obtain ⟨v, vs, pieces⟩ := exists_cons_of_ne_nil (splitOn_ne_nil a l')
    rw [nil_append, splitOn_nil, pieces]
    rfl
  | cons x l ih =>
    rw [cons_append, splitOn_cons_eq_if_modifyHead, splitOn_cons_eq_if_modifyHead, ih]
    split
    · rw [joinPieces_cons (splitOn_ne_nil a l)]
    · rw [joinPieces_modifyHead (splitOn_ne_nil a l)]

theorem splitOn_reverse (a : α) (l : List α) :
    l.reverse.splitOn a = ((l.splitOn a).map reverse).reverse := by
  induction l with
  | nil => rw [reverse_nil, splitOn_nil]; rfl
  | cons x l ih =>
    rw [reverse_cons, splitOn_append, ih, splitOn_cons_eq_if_modifyHead]
    obtain ⟨u, us, pieces⟩ := exists_cons_of_ne_nil (splitOn_ne_nil a l)
    rw [splitOn_cons_eq_if_modifyHead, splitOn_nil, pieces, map_cons, reverse_cons]
    split
    · rw [joinPieces_concat, append_nil, map_cons, map_cons, reverse_cons, reverse_cons]
      simp
    · rw [modifyHead_cons, joinPieces_concat, modifyHead_cons, map_cons, reverse_cons, reverse_cons]

variable [LawfulBEq α]

/-- A piece holds no separator and nothing from outside the list. -/
theorem mem_of_mem_splitOn {a : α} {l u : List α} (piece : u ∈ l.splitOn a) : a ∉ u ∧ u ⊆ l := by
  induction l generalizing u with
  | nil =>
    rw [splitOn_nil, mem_singleton] at piece
    subst piece
    exact ⟨not_mem_nil, nil_subset _⟩
  | cons x l ih =>
    rw [splitOn_cons_eq_if_modifyHead] at piece
    split at piece
    · rcases mem_cons.mp piece with rfl | later
      · exact ⟨not_mem_nil, nil_subset _⟩
      · exact (ih later).imp_right fun within => List.Subset.trans within (subset_cons_self x l)
    · next differs =>
      obtain ⟨v, vs, pieces⟩ := exists_cons_of_ne_nil (splitOn_ne_nil a l)
      rw [pieces, modifyHead_cons] at piece
      rcases mem_cons.mp piece with rfl | later
      · obtain ⟨absent, within⟩ := ih (pieces ▸ mem_cons_self : v ∈ l.splitOn a)
        refine ⟨fun member => ?_, cons_subset_cons x within⟩
        rcases mem_cons.mp member with rfl | later
        · exact differs (beq_self_eq_true a)
        · exact absent later
      · have piece' : u ∈ l.splitOn a := pieces ▸ mem_cons_of_mem v later
        exact (ih piece').imp_right fun within => List.Subset.trans within (subset_cons_self x l)

/-- Everything else is in some piece. -/
theorem exists_piece_of_mem {a : α} {l : List α} {x : α} (member : x ∈ l) (differs : x ≠ a) :
    ∃ u ∈ l.splitOn a, x ∈ u := by
  induction l with
  | nil => cases member
  | cons y l ih =>
    rw [splitOn_cons_eq_if_modifyHead]
    split
    · next separator =>
      rcases mem_cons.mp member with rfl | later
      · exact absurd (eq_of_beq separator) differs
      · obtain ⟨u, piece, inPiece⟩ := ih later
        exact ⟨u, mem_cons_of_mem [] piece, inPiece⟩
    · obtain ⟨v, vs, pieces⟩ := exists_cons_of_ne_nil (splitOn_ne_nil a l)
      rw [pieces, modifyHead_cons]
      rcases mem_cons.mp member with rfl | later
      · exact ⟨_, mem_cons_self, mem_cons_self⟩
      · obtain ⟨u, piece, inPiece⟩ := ih later
        rw [pieces] at piece
        rcases mem_cons.mp piece with rfl | further
        · exact ⟨_, mem_cons_self, mem_cons_of_mem y inPiece⟩
        · exact ⟨u, mem_cons_of_mem _ further, inPiece⟩

/-! ## Two separators -/

/-- Lines cut at a separator within them: the parts, each by its lines. -/
def lineParts (a : α) : List (List α) → List (List (List α))
  | [] => [[]]
  | line :: lines => joinPieces ((line.splitOn a).map fun piece => [piece]) (lineParts a lines)

omit [LawfulBEq α] in
theorem lineParts_ne_nil (a : α) (lines : List (List α)) : lineParts a lines ≠ [] := by
  induction lines with
  | nil => exact cons_ne_nil _ _
  | cons line lines ih =>
    obtain ⟨part, parts, shape⟩ := exists_cons_of_ne_nil ih
    obtain ⟨pieces, piece, cut⟩ := (eq_nil_or_concat (line.splitOn a)).resolve_left (splitOn_ne_nil a line)
    rw [lineParts, shape, cut, concat_eq_append, map_append, map_singleton, joinPieces_concat]
    simp

/-- The parts are made of pieces of the lines, and none is empty unless there are no lines. -/
theorem mem_lineParts {a : α} {lines part : List (List α)} (member : part ∈ lineParts a lines) :
    (∀ piece ∈ part, ∃ line ∈ lines, piece ⊆ line) ∧ (lines ≠ [] → part ≠ []) := by
  induction lines generalizing part with
  | nil =>
    rw [lineParts, mem_singleton] at member
    subst member
    exact ⟨forall_mem_nil _, fun nonempty => absurd rfl nonempty⟩
  | cons line lines ih =>
    have within {piece : List α} (inLine : piece ∈ line.splitOn a) : ∃ line' ∈ line :: lines, piece ⊆ line' :=
      ⟨line, mem_cons_self, (mem_of_mem_splitOn inLine).2⟩
    have further {part : List (List α)} (later : part ∈ lineParts a lines) :
        ∀ piece ∈ part, ∃ line' ∈ line :: lines, piece ⊆ line' := by
      intro piece inPart
      obtain ⟨line', inLines, subset⟩ := (ih later).1 piece inPart
      exact ⟨line', mem_cons_of_mem line inLines, subset⟩
    have pieces_ne_nil : ((line.splitOn a).map fun piece => [piece]) ≠ [] :=
      map_eq_nil_iff.not.mpr (splitOn_ne_nil a line)
    rcases mem_joinPieces pieces_ne_nil member with first | second | ⟨u, first, v, second, rfl⟩
    · obtain ⟨piece, inLine, rfl⟩ := mem_map.mp first
      exact ⟨forall_mem_singleton.mpr (within inLine), fun _ => cons_ne_nil _ _⟩
    · rcases lines with _ | ⟨next, lines⟩
      · cases second
      · have later := mem_of_mem_tail second
        exact ⟨further later, fun _ => (ih later).2 (cons_ne_nil next lines)⟩
    · obtain ⟨piece, inLine, rfl⟩ := mem_map.mp first
      exact ⟨forall_mem_cons.mpr ⟨within inLine, further (mem_of_mem_head? second)⟩,
        fun _ => cons_ne_nil _ _⟩

/-- Cutting joined lines is joining each of their parts. -/
theorem splitOn_intercalate_lines {a b : α} (differ : b ≠ a) (lines : List (List α)) :
    ([b].intercalate lines).splitOn a = (lineParts a lines).map [b].intercalate := by
  induction lines with
  | nil => rw [intercalate_nil, splitOn_nil, lineParts, map_singleton, intercalate_nil]
  | cons line lines ih =>
    rcases lines with _ | ⟨next, lines⟩
    · obtain ⟨pieces, piece, cut⟩ :=
        (eq_nil_or_concat (line.splitOn a)).resolve_left (splitOn_ne_nil a line)
      rw [intercalate_singleton, lineParts, lineParts, cut, concat_eq_append, map_append, map_singleton,
        joinPieces_concat, append_nil, map_append, map_map, map_singleton, intercalate_singleton]
      exact congrArg (· ++ [piece]) (map_id'' (fun _ => intercalate_singleton) pieces).symm
    · obtain ⟨part, parts, shape⟩ := exists_cons_of_ne_nil (lineParts_ne_nil a (next :: lines))
      have inParts : part ∈ lineParts a (next :: lines) := shape ▸ mem_cons_self
      rw [intercalate_cons_cons, append_assoc, singleton_append, splitOn_append,
        splitOn_cons_eq_if_modifyHead, if_neg (by simpa using differ), ih]
      change _ = (joinPieces _ (lineParts a (next :: lines))).map _
      rw [shape, map_cons, modifyHead_cons, map_intercalate_joinPieces b (splitOn_ne_nil a line)
        ((mem_lineParts inParts).2 (cons_ne_nil next lines))]

/-- Inserting lines without the separator inserts them into the parts. -/
theorem Inserted.lineParts {a : α} {p : List α → Prop} (free : ∀ line, p line → a ∉ line)
    {lines lines' : List (List α)} (inserted : Inserted p lines lines') :
    Forall₂ (Inserted p) (lineParts a lines) (lineParts a lines') := by
  induction inserted with
  | nil => exact .cons .nil .nil
  | @keep line lines lines' _ ih =>
    rw [List.lineParts, List.lineParts]
    generalize List.lineParts a lines = parts, List.lineParts a lines' = parts' at ih ⊢
    induction line.splitOn a with
    | nil => exact ih
    | cons piece pieces extend =>
      rcases pieces with _ | ⟨next, pieces⟩
      · cases ih with
        | nil => exact .cons (.refl p _) .nil
        | cons head rest => exact .cons (.keep piece head) rest
      · rw [map_cons, joinPieces_cons (by simp), joinPieces_cons (by simp)]
        exact .cons (.refl p _) extend
  | @insert line lines lines' satisfies _ ih =>
    obtain ⟨part, parts, shape⟩ := exists_cons_of_ne_nil (lineParts_ne_nil a lines')
    have extended : List.lineParts a (line :: lines') =
        joinPieces ((line.splitOn a).map fun piece => [piece]) (List.lineParts a lines') := rfl
    rw [extended, splitOn_eq_singleton (free line satisfies), shape]
    rw [shape] at ih
    generalize List.lineParts a lines = parts at ih ⊢
    cases ih with
    | cons head rest => exact .cons (.insert satisfies head) rest

/-- Inserting pieces between one separator inserts pieces into what another separator cuts. -/
theorem forall₂_splitOn_of_inserted {a b : α} (differ : b ≠ a) {p : List α → Prop}
    (free : ∀ piece, p piece → a ∉ piece) {l l' : List α}
    (inserted : Inserted p (l.splitOn b) (l'.splitOn b)) :
    Forall₂ (fun u u' => Inserted p (u.splitOn b) (u'.splitOn b)) (l.splitOn a) (l'.splitOn a) := by
  have cut (l : List α) : ∀ part ∈ lineParts a (l.splitOn b), ([b].intercalate part).splitOn b = part := by
    intro part member
    obtain ⟨within, nonempty⟩ := mem_lineParts member
    refine splitOn_intercalate b (fun piece inPart inPiece => ?_) (nonempty (splitOn_ne_nil b l))
    obtain ⟨line, inLines, subset⟩ := within piece inPart
    exact (mem_of_mem_splitOn inLines).1 (subset inPiece)
  have parts (l : List α) : l.splitOn a = (lineParts a (l.splitOn b)).map [b].intercalate := by
    rw [← splitOn_intercalate_lines differ, intercalate_splitOn]
  have back (l : List α) : (lineParts a (l.splitOn b)).map (fun part => ([b].intercalate part).splitOn b) =
      lineParts a (l.splitOn b) := (map_congr_left (cut l)).trans (map_id _)
  have pieces := inserted.lineParts free
  rw [← back l, ← back l', forall₂_map_left_iff, forall₂_map_right_iff] at pieces
  rw [parts l, parts l', forall₂_map_left_iff, forall₂_map_right_iff]
  exact pieces

end Split

end List
