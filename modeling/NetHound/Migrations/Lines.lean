import NetHound.Migrations.Script
import NetHound.ToMathlib.ListPieces

/-! # Lines, blanks and line ends

How trimming, splitting into lines and splitting at semicolons act on one another. Blank lines in a text
stay blank lines of the parts between its semicolons, trimming takes away only blank lines at the ends,
and reading line ends as line feeds changes a part by no more than white space at its end.
-/

namespace NetHound.Migrations

open List

/-- Nothing but white space. -/
def Blank (text : List Char) : Prop := ∀ c ∈ text, isWhitespace c = true

theorem Blank.append {text text' : List Char} (first : Blank text) (second : Blank text') :
    Blank (text ++ text') := forall_mem_append.mpr ⟨first, second⟩

theorem Blank.reverse {text : List Char} (blank : Blank text) : Blank text.reverse :=
  fun c member => blank c (mem_reverse.mp member)

theorem semicolon_notMem_of_blank {text : List Char} (blank : Blank text) : ';' ∉ text :=
  fun member => absurd (blank ';' member) (by decide)

/-! ## Trimming -/

theorem trimStart_eq_nil_iff {text : List Char} : trimStart text = [] ↔ Blank text := dropWhile_eq_nil_iff

theorem trimStart_blank_append {blank : List Char} (isBlank : Blank blank) (text : List Char) :
    trimStart (blank ++ text) = trimStart text := dropWhile_append_of_pos isBlank

theorem trim_eq (text : List Char) : trim text = (trimStart (trimStart text).reverse).reverse := rfl

/-- Trimming takes white space off both ends. -/
theorem exists_trim (text : List Char) :
    ∃ before after, Blank before ∧ Blank after ∧ text = before ++ trim text ++ after := by
  refine ⟨text.takeWhile isWhitespace, ((trimStart text).reverse.takeWhile isWhitespace).reverse,
    fun c => mem_takeWhile_imp, Blank.reverse fun c => mem_takeWhile_imp, ?_⟩
  have front (text : List Char) : text.takeWhile isWhitespace ++ trimStart text = text :=
    takeWhile_append_dropWhile
  rw [trim_eq, append_assoc, ← reverse_append, front, reverse_reverse, front]

theorem trim_blank_append {blank : List Char} (isBlank : Blank blank) (text : List Char) :
    trim (blank ++ text) = trim text := by
  rw [trim_eq, trim_eq, trimStart_blank_append isBlank]

theorem trimStart_append {text : List Char} (nonempty : trimStart text ≠ []) (more : List Char) :
    trimStart (text ++ more) = trimStart text ++ more := by
  have kept : (text.dropWhile isWhitespace).isEmpty = false := isEmpty_eq_false_iff.mpr nonempty
  rw [trimStart, dropWhile_append, kept]
  rfl

theorem trim_append_blank (text : List Char) {blank : List Char} (isBlank : Blank blank) :
    trim (text ++ blank) = trim text := by
  rcases eq_or_ne (trimStart text) [] with empty | nonempty
  · have whole := trimStart_eq_nil_iff.mpr ((trimStart_eq_nil_iff.mp empty).append isBlank)
    rw [trim_eq, trim_eq, empty, whole]
  · rw [trim_eq, trim_eq, trimStart_append nonempty, reverse_append, trimStart_blank_append isBlank.reverse]

theorem trim_trim (text : List Char) : trim (trim text) = trim text := by
  obtain ⟨before, after, blankBefore, blankAfter, whole⟩ := exists_trim text
  calc trim (trim text) = trim (before ++ trim text ++ after) := by
        rw [trim_append_blank _ blankAfter, trim_blank_append blankBefore]
    _ = trim text := by rw [← whole]

theorem trim_eq_nil_iff {text : List Char} : trim text = [] ↔ Blank text := by
  constructor
  · intro empty
    obtain ⟨before, after, blankBefore, blankAfter, whole⟩ := exists_trim text
    rw [whole, empty, append_nil]
    exact blankBefore.append blankAfter
  · intro blank
    rw [trim_eq, trimStart_eq_nil_iff.mpr blank]
    rfl

/-! ## Blank lines -/

/-- The second text has blank lines inserted. -/
def Spaced (text text' : List Char) : Prop := Inserted Blank (text.splitOn '\n') (text'.splitOn '\n')

/-- The lines from the first one that is not blank. -/
def fromText : List (List Char) → List (List Char)
  | [] => [[]]
  | line :: lines => if trimStart line = [] then fromText lines else trimStart line :: lines

theorem splitOn_trimStart (text : List Char) :
    (trimStart text).splitOn '\n' = fromText (text.splitOn '\n') := by
  induction text with
  | nil => rfl
  | cons c text ih =>
    obtain ⟨line, lines, pieces⟩ := exists_cons_of_ne_nil (splitOn_ne_nil '\n' text)
    rw [splitOn_cons_eq_if_modifyHead]
    rw [pieces] at ih ⊢
    cases space : isWhitespace c with
    | true =>
      rw [trimStart, dropWhile_cons_of_pos space, ← trimStart, ih]
      split
      · exact (if_pos rfl).symm
      · rw [modifyHead_cons, fromText, fromText, trimStart.eq_def (c :: line),
          dropWhile_cons_of_pos space, ← trimStart]
    | false =>
      have kept (rest : List Char) : trimStart (c :: rest) = c :: rest :=
        dropWhile_cons_of_neg (by rw [space]; exact Bool.false_ne_true)
      have notFeed : ¬(c == '\n') = true := by
        intro feed
        rw [eq_of_beq feed] at space
        cases space
      rw [kept, splitOn_cons_eq_if_modifyHead, if_neg notFeed, if_neg notFeed, pieces, modifyHead_cons,
        fromText, kept, if_neg (cons_ne_nil c line)]

private theorem inserted_fromText {lines lines' : List (List Char)} (inserted : Inserted Blank lines lines') :
    Inserted Blank (fromText lines) (fromText lines') := by
  induction inserted with
  | nil => exact .refl _ _
  | keep line inserted ih =>
    rw [fromText, fromText]
    split
    · exact ih
    · exact .keep _ inserted
  | insert blank _ ih =>
    rw [fromText.eq_def (_ :: _)]
    dsimp only
    rw [if_pos (trimStart_eq_nil_iff.mpr blank)]
    exact ih

theorem Spaced.trimStart {text text' : List Char} (spaced : Spaced text text') :
    Spaced (trimStart text) (Migrations.trimStart text') := by
  rw [Spaced, splitOn_trimStart, splitOn_trimStart]
  exact inserted_fromText spaced

theorem Spaced.reverse {text text' : List Char} (spaced : Spaced text text') :
    Spaced text.reverse text'.reverse := by
  rw [Spaced, splitOn_reverse, splitOn_reverse]
  exact (Inserted.map (fun _ blank => Blank.reverse blank) spaced).reverse

theorem Spaced.trim {text text' : List Char} (spaced : Spaced text text') :
    Spaced (trim text) (Migrations.trim text') := by
  rw [trim_eq, trim_eq]
  exact spaced.trimStart.reverse.trimStart.reverse

private theorem blank_iff_lines {text : List Char} :
    Blank text ↔ ∀ line ∈ text.splitOn '\n', Blank line := by
  constructor
  · exact fun blank line piece c member => blank c ((mem_of_mem_splitOn piece).2 member)
  · intro lines c member
    rcases eq_or_ne c '\n' with rfl | differs
    · rfl
    · obtain ⟨line, piece, inLine⟩ := exists_piece_of_mem member differs
      exact lines line piece c inLine

/-- Inserting blank lines leaves a text blank or not. -/
theorem Spaced.trim_eq_nil_iff {text text' : List Char} (spaced : Spaced text text') :
    Migrations.trim text = [] ↔ Migrations.trim text' = [] := by
  rw [Migrations.trim_eq_nil_iff, Migrations.trim_eq_nil_iff, blank_iff_lines, blank_iff_lines]
  constructor
  · intro lines line member
    rcases Inserted.mem spaced member with kept | blank
    · exact lines line kept
    · exact blank
  · exact fun lines line member => lines line (Inserted.subset spaced member)

/-- The parts between semicolons get the blank lines of the text. -/
theorem Spaced.parts {text text' : List Char} (spaced : Spaced text text') :
    Forall₂ Spaced (text.splitOn ';') (text'.splitOn ';') :=
  forall₂_splitOn_of_inserted (by decide) (fun _ => semicolon_notMem_of_blank) spaced

/-! ## Line ends -/

/-- The text with every line's carriage return stripped. -/
def lineFeeds (text : List Char) : List Char :=
  ['\n'].intercalate ((text.splitOn '\n').map stripCarriageReturn)

/-- The text stops here or its line does. -/
def endsLine (rest : List Char) : Bool := rest.head?.all (· == '\n')

theorem stripCarriageReturn_subset (line : List Char) : stripCarriageReturn line ⊆ line := by
  unfold stripCarriageReturn
  split
  · exact dropLast_subset line
  · exact Subset.refl line

theorem exists_stripCarriageReturn (line : List Char) :
    ∃ tail, Blank tail ∧ line = stripCarriageReturn line ++ tail := by
  unfold stripCarriageReturn
  split
  · next ret =>
    obtain ⟨front, rfl⟩ := getLast?_eq_some_iff.mp ret
    exact ⟨['\r'], forall_mem_singleton.mpr rfl, by rw [dropLast_concat]⟩
  · exact ⟨[], forall_mem_nil _, (append_nil line).symm⟩

theorem splitOn_lineFeeds (text : List Char) :
    (lineFeeds text).splitOn '\n' = (text.splitOn '\n').map stripCarriageReturn := by
  refine splitOn_intercalate '\n' (forall_mem_map.mpr fun line piece feed => ?_)
    (map_eq_nil_iff.not.mpr (splitOn_ne_nil '\n' text))
  exact (mem_of_mem_splitOn piece).1 (stripCarriageReturn_subset line feed)

private theorem stripCarriageReturn_cons (c : Char) (line : List Char) :
    stripCarriageReturn (c :: line) =
      if c = '\r' ∧ line = [] then [] else c :: stripCarriageReturn line := by
  rcases line with _ | ⟨d, line⟩
  · by_cases ret : c = '\r' <;> simp [stripCarriageReturn, ret]
  · have more : ¬(c = '\r' ∧ d :: line = []) := fun both => cons_ne_nil d line both.2
    rw [if_neg more, stripCarriageReturn, stripCarriageReturn, getLast?_cons_cons,
      dropLast_cons_of_ne_nil (cons_ne_nil d line)]
    split <;> rfl

private theorem endsLine_iff {rest line : List Char} {lines : List (List Char)}
    (pieces : rest.splitOn '\n' = line :: lines) : endsLine rest = true ↔ line = [] := by
  rcases rest with _ | ⟨d, rest⟩
  · rw [splitOn_nil] at pieces
    cases pieces
    exact iff_of_true rfl rfl
  · rw [splitOn_cons_eq_if_modifyHead] at pieces
    split at pieces
    · next feed =>
      cases pieces
      exact iff_of_true feed rfl
    · next feed =>
      obtain ⟨first, later, pieces'⟩ := exists_cons_of_ne_nil (splitOn_ne_nil '\n' rest)
      rw [pieces', modifyHead_cons] at pieces
      cases pieces
      exact iff_of_false feed (cons_ne_nil d first)

/-- Only a carriage return at the end of a line goes. -/
theorem lineFeeds_cons (c : Char) (rest : List Char) :
    lineFeeds (c :: rest) = if c = '\r' ∧ endsLine rest = true then lineFeeds rest else c :: lineFeeds rest := by
  obtain ⟨line, lines, pieces⟩ := exists_cons_of_ne_nil (splitOn_ne_nil '\n' rest)
  simp only [lineFeeds, splitOn_cons_eq_if_modifyHead, pieces, endsLine_iff pieces]
  rcases eq_or_ne c '\n' with rfl | feed
  · rw [if_pos (beq_self_eq_true '\n'), if_neg (fun both => absurd both.1 (by decide)), map_cons, map_cons,
      intercalate_cons_cons]
    rfl
  · rw [if_neg (by simpa using feed), modifyHead_cons, map_cons, map_cons, stripCarriageReturn_cons]
    split
    · next both =>
      rw [both.2]
      rfl
    · rw [intercalate_cons_cons_left]

theorem lineFeeds_nil : lineFeeds [] = [] := rfl

/-- Nothing but white space in front stays nothing but white space. -/
theorem lineFeeds_blank_append {before : List Char} (blank : Blank before) (text : List Char) :
    ∃ before', Blank before' ∧ lineFeeds (before ++ text) = before' ++ lineFeeds text := by
  induction before with
  | nil => exact ⟨[], forall_mem_nil _, rfl⟩
  | cons c before ih =>
    obtain ⟨before', blank', same⟩ := ih fun d member => blank d (mem_cons_of_mem c member)
    rw [cons_append, lineFeeds_cons, same]
    split
    · exact ⟨before', blank', rfl⟩
    · exact ⟨c :: before', forall_mem_cons.mpr ⟨blank c mem_cons_self, blank'⟩, rfl⟩

theorem Blank.lineFeeds {text : List Char} (blank : Blank text) : Blank (lineFeeds text) := by
  obtain ⟨text', blank', same⟩ := lineFeeds_blank_append blank []
  rw [append_nil, lineFeeds_nil, append_nil] at same
  rw [same]
  exact blank'

/-- White space behind a text only changes the white space behind it. -/
theorem lineFeeds_append_blank (text : List Char) {after : List Char} (blank : Blank after) :
    ∃ kept tail tail', Blank tail ∧ Blank tail' ∧ lineFeeds text = kept ++ tail ∧
      lineFeeds (text ++ after) = kept ++ tail' := by
  induction text with
  | nil => exact ⟨[], [], lineFeeds after, forall_mem_nil _, blank.lineFeeds, rfl, rfl⟩
  | cons c text ih =>
    rcases text with _ | ⟨d, text⟩
    · rcases eq_or_ne c '\r' with rfl | differs
      · have all : Blank ('\r' :: after) := forall_mem_cons.mpr ⟨rfl, blank⟩
        exact ⟨[], [], lineFeeds ('\r' :: after), forall_mem_nil _, all.lineFeeds, rfl, rfl⟩
      · refine ⟨[c], [], lineFeeds after, forall_mem_nil _, blank.lineFeeds, ?_, ?_⟩
        · rw [lineFeeds_cons, if_neg fun both => differs both.1]
          rfl
        · rw [singleton_append, lineFeeds_cons, if_neg fun both => differs both.1]
          rfl
    · obtain ⟨kept, tail, tail', blankTail, blankTail', same, same'⟩ := ih
      have sameEnd : endsLine (d :: text ++ after) = endsLine (d :: text) := rfl
      rw [cons_append, lineFeeds_cons c (d :: text), lineFeeds_cons c (d :: text ++ after), same, same', sameEnd]
      split
      · exact ⟨kept, tail, tail', blankTail, blankTail', rfl, rfl⟩
      · exact ⟨c :: kept, tail, tail', blankTail, blankTail', rfl, rfl⟩

/-- White space around a text is trimmed away whatever its line ends. -/
theorem trim_lineFeeds_surrounded {before after : List Char} (blankBefore : Blank before)
    (blankAfter : Blank after) (text : List Char) :
    trim (lineFeeds (before ++ text ++ after)) = trim (lineFeeds text) := by
  obtain ⟨before', blank', same⟩ := lineFeeds_blank_append blankBefore (text ++ after)
  obtain ⟨kept, tail, tail', blankTail, blankTail', sameText, sameWhole⟩ :=
    lineFeeds_append_blank text blankAfter
  rw [append_assoc, same, trim_blank_append blank', sameText, sameWhole, trim_append_blank _ blankTail,
    trim_append_blank _ blankTail']

private theorem endsLine_of_splitOn {text part : List Char} {parts : List (List Char)}
    (cut : text.splitOn ';' = part :: parts) :
    (endsLine text = true → endsLine part = true) ∧ (endsLine text = false → endsLine part = true → part = []) := by
  rcases text with _ | ⟨d, text⟩
  · rw [splitOn_nil] at cut
    cases cut
    exact ⟨fun _ => rfl, fun _ _ => rfl⟩
  · rw [splitOn_cons_eq_if_modifyHead] at cut
    split at cut
    · cases cut
      exact ⟨fun _ => rfl, fun _ _ => rfl⟩
    · obtain ⟨first, later, cut'⟩ := exists_cons_of_ne_nil (splitOn_ne_nil ';' text)
      rw [cut', modifyHead_cons] at cut
      cases cut
      exact ⟨id, fun stays ends => absurd (stays.symm.trans ends) (by decide)⟩

/-- The parts of a text with line feeds are the parts with line feeds, but for white space at their
ends. -/
theorem forall₂_parts_lineFeeds (text : List Char) :
    Forall₂ (fun part part' => ∃ tail, Blank tail ∧ part' = lineFeeds part ++ tail) (text.splitOn ';')
      ((lineFeeds text).splitOn ';') := by
  induction text with
  | nil => exact .cons ⟨[], forall_mem_nil _, rfl⟩ .nil
  | cons c text ih =>
    obtain ⟨part, parts, cut⟩ := exists_cons_of_ne_nil (splitOn_ne_nil ';' text)
    obtain ⟨part', parts', cut'⟩ := exists_cons_of_ne_nil (splitOn_ne_nil ';' (lineFeeds text))
    rw [cut, cut'] at ih
    cases ih with
    | cons head rest =>
      obtain ⟨tail, blank, rfl⟩ := head
      rw [splitOn_cons_eq_if_modifyHead, cut, lineFeeds_cons]
      rcases eq_or_ne c ';' with rfl | differs
      · rw [if_pos (beq_self_eq_true ';'), if_neg fun both => absurd both.1 (by decide),
          splitOn_cons_eq_if_modifyHead, if_pos (beq_self_eq_true ';'), cut']
        exact .cons ⟨[], forall_mem_nil _, rfl⟩ (.cons ⟨tail, blank, rfl⟩ rest)
      · rw [if_neg (by simpa using differs), modifyHead_cons]
        split
        · next both =>
          have sameHead : endsLine part = true := (endsLine_of_splitOn cut).1 both.2
          rw [cut']
          refine .cons ⟨tail, blank, ?_⟩ rest
          rw [lineFeeds_cons, if_pos ⟨both.1, sameHead⟩]
        · next kept =>
          rw [splitOn_cons_eq_if_modifyHead, if_neg (by simpa using differs), cut', modifyHead_cons]
          refine .cons ?_ rest
          rw [lineFeeds_cons]
          split
          · next both =>
            -- The part stops right behind the carriage return, which the whole text keeps.
            have stays : endsLine text = false :=
              Bool.eq_false_iff.mpr fun ends => kept ⟨both.1, ends⟩
            have empty : part = [] := (endsLine_of_splitOn cut).2 stays both.2
            subst empty
            exact ⟨c :: tail, forall_mem_cons.mpr ⟨both.1 ▸ rfl, blank⟩, rfl⟩
          · exact ⟨tail, blank, rfl⟩

/-- A text is blank when it is without its carriage returns. -/
theorem blank_of_lineFeeds {text : List Char} (blank : Blank (lineFeeds text)) : Blank text := by
  induction text with
  | nil => exact forall_mem_nil _
  | cons c text ih =>
    rw [lineFeeds_cons] at blank
    split at blank
    · next both => exact forall_mem_cons.mpr ⟨both.1 ▸ rfl, ih blank⟩
    · exact forall_mem_cons.mpr ⟨blank c mem_cons_self, ih fun d member => blank d (mem_cons_of_mem c member)⟩

/-- White space behind a text leaves its trimmed parts alone. -/
theorem map_trim_parts_append_blank (text : List Char) {blank : List Char} (isBlank : Blank blank) :
    ((text ++ blank).splitOn ';').map trim = (text.splitOn ';').map trim := by
  obtain ⟨parts, part, cut⟩ := (eq_nil_or_concat (text.splitOn ';')).resolve_left (splitOn_ne_nil ';' text)
  rw [splitOn_append, splitOn_eq_singleton (semicolon_notMem_of_blank isBlank), cut, concat_eq_append,
    joinPieces_concat, map_append, map_append, map_singleton, map_singleton, trim_append_blank part isBlank]

/-! ## Comment lines -/

theorem isComment_blank_append {before : List Char} (blank : Blank before) (line : List Char) :
    isComment (before ++ line) = isComment line := by
  rw [isComment, isComment, trimStart_blank_append blank]

theorem not_isComment_of_blank {line : List Char} (blank : Blank line) : isComment line = false := by
  rw [isComment, trimStart_eq_nil_iff.mpr blank]
  rfl

/-- Only two slashes at its start make a line a comment. -/
theorem not_isComment_append {line more : List Char} (notComment : isComment line = false)
    (notMore : isComment more = false) (noSlash : more.head? ≠ some '/') :
    isComment (line ++ more) = false := by
  rcases eq_or_ne (trimStart line) [] with empty | nonempty
  · rw [isComment_blank_append (trimStart_eq_nil_iff.mp empty), notMore]
  · rw [isComment] at notComment ⊢
    rw [trimStart_append nonempty]
    generalize trimStart line = start at notComment nonempty ⊢
    rcases start with _ | ⟨c, _ | ⟨d, rest⟩⟩
    · exact absurd rfl nonempty
    · rcases more with _ | ⟨e, more⟩
      · exact notComment
      · have differs : ('/' == e) = false := by
          refine beq_eq_false_iff_ne.mpr fun same => noSlash ?_
          rw [head?_cons, same]
        simp [isPrefixOf, differs]
    · exact notComment

theorem isComment_append {line : List Char} (comment : isComment line = true) (more : List Char) :
    isComment (line ++ more) = true := by
  have slashes := isPrefixOf_iff_prefix.mp comment
  have nonempty : trimStart line ≠ [] := fun empty => by
    rw [empty] at slashes
    exact absurd slashes (by decide)
  rw [isComment, trimStart_append nonempty]
  exact isPrefixOf_iff_prefix.mpr (slashes.trans (prefix_append _ more))

theorem isComment_stripCarriageReturn (line : List Char) :
    isComment (stripCarriageReturn line) = isComment line := by
  unfold stripCarriageReturn
  split
  · next ret =>
    obtain ⟨front, rfl⟩ := getLast?_eq_some_iff.mp ret
    rw [dropLast_concat]
    cases comment : isComment front with
    | false => exact (not_isComment_append comment (by decide) (by decide)).symm
    | true => exact (isComment_append comment ['\r']).symm
  · rfl

/-- No line of the text is a comment. -/
def CommentFree (text : List Char) : Prop := ∀ line ∈ text.splitOn '\n', isComment line = false

private theorem head?_of_head?_splitOn {text line : List Char} (first : line ∈ (text.splitOn '\n').head?) :
    line = [] ∨ line.head? = text.head? := by
  rcases text with _ | ⟨c, text⟩
  · rw [splitOn_nil] at first
    cases first
    exact Or.inl rfl
  · rw [splitOn_cons_eq_if_modifyHead] at first
    split at first
    · cases first
      exact Or.inl rfl
    · obtain ⟨next, lines, pieces⟩ := exists_cons_of_ne_nil (splitOn_ne_nil '\n' text)
      rw [pieces, modifyHead_cons] at first
      cases first
      exact Or.inr rfl

theorem CommentFree.of_blank {text : List Char} (blank : Blank text) : CommentFree text :=
  fun _ piece => not_isComment_of_blank fun c member => blank c ((mem_of_mem_splitOn piece).2 member)

theorem CommentFree.append {text text' : List Char} (free : CommentFree text) (free' : CommentFree text')
    (noSlash : text'.head? ≠ some '/') : CommentFree (text ++ text') := by
  intro line member
  rw [splitOn_append] at member
  rcases mem_joinPieces (splitOn_ne_nil '\n' text) member with first | later | ⟨u, inFirst, v, isHead, rfl⟩
  · exact free line first
  · exact free' line (mem_of_mem_tail later)
  · refine not_isComment_append (free u inFirst) (free' v (mem_of_mem_head? isHead)) ?_
    rcases head?_of_head?_splitOn isHead with rfl | same
    · exact fun slash => nomatch slash
    · rw [same]
      exact noSlash

theorem CommentFree.blank_append {before text : List Char} (blank : Blank before) (free : CommentFree text) :
    CommentFree (before ++ text) := by
  intro line member
  rw [splitOn_append] at member
  rcases mem_joinPieces (splitOn_ne_nil '\n' before) member with first | later | ⟨u, inFirst, v, isHead, rfl⟩
  · exact CommentFree.of_blank blank line first
  · exact free line (mem_of_mem_tail later)
  · rw [isComment_blank_append fun c member => blank c ((mem_of_mem_splitOn inFirst).2 member)]
    exact free v (mem_of_mem_head? isHead)

end NetHound.Migrations
