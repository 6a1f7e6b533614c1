import NetHound.Migrations.Lines

/-! # Splitting inverts the migration format

A migration is its statements in order, each closed by a semicolon that the last may lack, with comment
lines and blank lines put between any two lines. Splitting gives the statements back, each with its own
lines, whatever the comments say and whichever line ends the file uses.
-/

namespace NetHound.Soundness

open Migrations List

/-- A statement that a migration may hold. -/
structure Writable (statement : List Char) : Prop where
  nonempty : trim statement ≠ []
  noSemicolon : ';' ∉ statement
  commentFree : CommentFree statement

/-- Statements written in order with white space around them; the last semicolon may be missing. -/
inductive Written : List (List Char) → List Char → Prop
  | nil {tail : List Char} : Blank tail → Written [] tail
  | unterminated {before after : List Char} (statement : List Char) : Blank before → Blank after →
      Written [statement] (before ++ statement ++ after)
  | cons {before after text : List Char} {rest : List (List Char)} (statement : List Char) :
      Blank before → Blank after → Written rest text →
        Written (statement :: rest) (before ++ statement ++ after ++ ';' :: text)

/-- A line that may be inserted anywhere. -/
def CommentOrBlank (line : List Char) : Prop := isComment line = true ∨ Blank line

/-- A file with the lines of the text, and comment lines and blank lines between them. -/
def Commented (text file : List Char) : Prop :=
  Inserted CommentOrBlank (text.splitOn '\n') (file.splitOn '\n')

/-- A statement without the white space around it, its lines ended by line feeds. -/
def ownText (statement : List Char) : List Char := trim (lineFeeds statement)

/-- The result has the statement's own lines, blank lines possibly among them, and is trimmed. -/
structure Recovers (statement result : String) : Prop where
  lines : Inserted Blank ((ownText statement.toList).splitOn '\n') (result.toList.splitOn '\n')
  trimmed : trim result.toList = result.toList

/-! ## The text as written -/

/-- No statement leaves a comment line, on a line of its own or behind another one. -/
theorem commentFree_of_written {statements : List (List Char)} {text : List Char}
    (written : Written statements text) (writable : ∀ statement ∈ statements, Writable statement) :
    CommentFree text := by
  induction written with
  | nil blank => exact .of_blank blank
  | @unterminated before after statement blankBefore blankAfter =>
    have own := (writable statement mem_cons_self).commentFree
    refine (CommentFree.blank_append blankBefore own).append (.of_blank blankAfter) fun slash => ?_
    exact absurd (blankAfter '/' (mem_of_mem_head? slash)) (by decide)
  | @cons before after text rest statement blankBefore blankAfter _ ih =>
    have own := (writable statement mem_cons_self).commentFree
    have later := ih fun other member => writable other (mem_cons_of_mem statement member)
    have separated : CommentFree (';' :: text) := by
      intro line member
      obtain ⟨first, lines, pieces⟩ := exists_cons_of_ne_nil (splitOn_ne_nil '\n' text)
      rw [splitOn_cons_eq_if_modifyHead, if_neg (by decide), pieces, modifyHead_cons] at member
      rcases mem_cons.mp member with rfl | further
      · rfl
      · exact later line (pieces ▸ mem_cons_of_mem first further)
    rw [append_assoc]
    refine (CommentFree.blank_append blankBefore own).append (.blank_append blankAfter separated) fun slash => ?_
    rcases after with _ | ⟨c, after⟩
    · cases slash
    · cases slash
      exact absurd (blankAfter '/' mem_cons_self) (by decide)

/-- The parts of the text as written are the statements, and a blank rest. -/
theorem parts_of_written {statements : List (List Char)} {text : List Char}
    (written : Written statements text) (writable : ∀ statement ∈ statements, Writable statement) :
    ((text.splitOn ';').map fun part => trim (lineFeeds part)).filter (· ≠ []) =
      statements.map ownText := by
  have kept {before after statement : List Char} (blankBefore : Blank before) (blankAfter : Blank after)
      (own : Writable statement) :
      ';' ∉ before ++ statement ++ after ∧ trim (lineFeeds (before ++ statement ++ after)) = ownText statement ∧
        ownText statement ≠ [] := by
    refine ⟨?_, trim_lineFeeds_surrounded blankBefore blankAfter statement, fun empty => ?_⟩
    · simp only [mem_append, not_or]
      exact ⟨⟨semicolon_notMem_of_blank blankBefore, own.noSemicolon⟩, semicolon_notMem_of_blank blankAfter⟩
    · exact own.nonempty (trim_eq_nil_iff.mpr (blank_of_lineFeeds (trim_eq_nil_iff.mp empty)))
  induction written with
  | @nil tail blank =>
    have empty : trim (lineFeeds tail) = [] := trim_eq_nil_iff.mpr blank.lineFeeds
    rw [splitOn_eq_singleton (semicolon_notMem_of_blank blank), map_singleton, empty]
    rfl
  | unterminated statement blankBefore blankAfter =>
    obtain ⟨noSemicolon, same, nonempty⟩ := kept blankBefore blankAfter (writable statement mem_cons_self)
    rw [splitOn_eq_singleton noSemicolon, map_singleton, same, filter_cons_of_pos (by simpa using nonempty)]
    rfl
  | cons statement blankBefore blankAfter _ ih =>
    obtain ⟨noSemicolon, same, nonempty⟩ := kept blankBefore blankAfter (writable statement mem_cons_self)
    rw [splitOn_append_cons_self_of_not_mem noSemicolon, map_cons, same,
      filter_cons_of_pos (by simpa using nonempty), map_cons,
      ih fun other member => writable other (mem_cons_of_mem statement member)]

/-- The trimmed parts of a text do not depend on its line ends. -/
theorem map_trim_parts_lineFeeds (text : List Char) :
    ((lineFeeds text).splitOn ';').map trim = (text.splitOn ';').map fun part => trim (lineFeeds part) := by
  rw [eq_comm, ← forall₂_eq_eq_eq, forall₂_map_left_iff, forall₂_map_right_iff]
  refine (forall₂_parts_lineFeeds text).imp fun part part' => ?_
  rintro ⟨tail, blank, rfl⟩
  rw [trim_append_blank _ blank]

/-! ## The file as read -/

/-- The lines that are not comments, without their carriage returns. -/
def keptLines (file : List Char) : List (List Char) :=
  ((file.splitOn '\n').map stripCarriageReturn).filter fun line => !isComment line

/-- What the reader joins is the kept lines, but for white space at the end. -/
theorem map_trim_parts_keptLines (file : List Char) :
    ((['\n'].intercalate ((lines file).filter fun line => !isComment line)).splitOn ';').map trim =
      ((['\n'].intercalate (keptLines file)).splitOn ';').map trim := by
  obtain ⟨front, last, pieces⟩ := (eq_nil_or_concat (file.splitOn '\n')).resolve_left (splitOn_ne_nil '\n' file)
  rw [concat_eq_append] at pieces
  simp only [lines, keptLines, pieces, dropLast_concat, getLast?_append, getLast?_singleton, Option.some_or,
    map_append, map_singleton, filter_append]
  generalize (front.map stripCarriageReturn).filter (fun line => !isComment line) = kept
  rcases eq_or_ne last [] with rfl | nonempty
  · change ((['\n'].intercalate (kept ++ [])).splitOn ';').map trim =
      ((['\n'].intercalate (kept ++ [[]])).splitOn ';').map trim
    rw [append_nil]
    rcases eq_or_ne kept [] with rfl | nonempty
    · rfl
    · have feed : Blank ['\n'] := forall_mem_singleton.mpr rfl
      rw [intercalate_concat_nil '\n' nonempty, map_trim_parts_append_blank _ feed]
  · have present : (Option.some last).filter (· ≠ []) = some last := by simpa using nonempty
    rw [present, Option.toList_some, filter_singleton, filter_singleton, isComment_stripCarriageReturn]
    cases isComment last with
    | true => rfl
    | false =>
      obtain ⟨tail, blank, same⟩ := exists_stripCarriageReturn last
      change ((['\n'].intercalate (kept ++ [last])).splitOn ';').map trim =
        ((['\n'].intercalate (kept ++ [stripCarriageReturn last])).splitOn ';').map trim
      nth_rewrite 1 [same]
      rw [intercalate_concat_append, map_trim_parts_append_blank _ blank]

/-- Leaving the comment lines out leaves the blank ones among the lines as written. -/
theorem spaced_keptLines {text file : List Char} (commented : Commented text file) (free : CommentFree text) :
    Spaced (lineFeeds text) (['\n'].intercalate (keptLines file)) := by
  have stripped : Inserted CommentOrBlank ((text.splitOn '\n').map stripCarriageReturn)
      ((file.splitOn '\n').map stripCarriageReturn) := by
    refine Inserted.map (fun line insertable => ?_) commented
    rcases insertable with comment | blank
    · exact Or.inl ((isComment_stripCarriageReturn line).trans comment)
    · exact Or.inr fun c member => blank c (stripCarriageReturn_subset line member)
  have filtered : Inserted Blank ((text.splitOn '\n').map stripCarriageReturn) (keptLines file) := by
    refine stripped.filter (forall_mem_map.mpr fun line piece => ?_) fun line insertable notComment => ?_
    · rw [isComment_stripCarriageReturn, free line piece]
      rfl
    · refine insertable.resolve_left fun comment => ?_
      rw [comment] at notComment
      cases notComment
  have noFeed : ∀ line ∈ keptLines file, '\n' ∉ line := by
    intro line member
    obtain ⟨line', piece, rfl⟩ := mem_map.mp (mem_of_mem_filter member)
    exact fun feed => (mem_of_mem_splitOn piece).1 (stripCarriageReturn_subset line' feed)
  have nonempty : keptLines file ≠ [] := by
    obtain ⟨line, inText⟩ := exists_mem_of_ne_nil _ (splitOn_ne_nil '\n' text)
    exact ne_nil_of_mem (filtered.subset (mem_map_of_mem inText))
  rw [Spaced, splitOn_lineFeeds, splitOn_intercalate '\n' noFeed nonempty]
  exact filtered

/-- Every migration written in the format is split into its own statements, in order. -/
theorem splitStatements_written {statements : List String} {text : List Char} {file : String}
    (writable : ∀ statement ∈ statements, Writable statement.toList)
    (written : Written (statements.map String.toList) text) (commented : Commented text file.toList) :
    Forall₂ Recovers statements (splitStatements file) := by
  have writable' : ∀ statement ∈ statements.map String.toList, Writable statement := forall_mem_map.mpr writable
  have spaced := (spaced_keptLines commented (commentFree_of_written written writable')).parts
  have trimmed : Forall₂ (fun part part' => Spaced part part' ∧ trim part' = part' ∧ (part = [] ↔ part' = []))
      (((lineFeeds text).splitOn ';').map trim)
      (((['\n'].intercalate (keptLines file.toList)).splitOn ';').map trim) := by
    rw [forall₂_map_left_iff, forall₂_map_right_iff]
    exact spaced.imp fun _ part' parts => ⟨parts.trim, trim_trim part', parts.trim_eq_nil_iff⟩
  have nonempty : Forall₂
      (fun part part' => Spaced part part' ∧ trim part' = part' ∧ (part = [] ↔ part' = []))
      ((((lineFeeds text).splitOn ';').map trim).filter (· ≠ []))
      ((((['\n'].intercalate (keptLines file.toList)).splitOn ';').map trim).filter (· ≠ [])) :=
    rel_filter (fun _ _ parts => by simp [parts.2.2]) trimmed
  rw [map_trim_parts_lineFeeds, parts_of_written written writable', ← map_trim_parts_keptLines, map_map,
    forall₂_map_left_iff] at nonempty
  rw [splitStatements, forall₂_map_right_iff]
  refine nonempty.imp fun statement part parts => ⟨?_, ?_⟩
  · rw [String.toList_ofList]
    exact parts.1
  · rw [String.toList_ofList]
    exact parts.2.1

theorem splitStatements_written_commented :
    Forall₂ Recovers ["CREATE a\r\n  FOR b", "CREATE c"]
      (splitStatements "// a; b\nCREATE a\r\n  // c;\n\r\n  FOR b ;\nCREATE c") := by
  apply @splitStatements_written _ "CREATE a\r\n  FOR b ;\nCREATE c".toList
  · have writable : ∀ statement ∈ ["CREATE a\r\n  FOR b", "CREATE c"],
        trim statement.toList ≠ [] ∧ ';' ∉ statement.toList ∧
          ∀ line ∈ statement.toList.splitOn '\n', isComment line = false := by decide
    exact fun statement member =>
      ⟨(writable statement member).1, (writable statement member).2.1, (writable statement member).2.2⟩
  · have space : isWhitespace ' ' = true := by decide
    have feed : isWhitespace '\n' = true := by decide
    have unterminated := @Written.unterminated ['\n'] [] "CREATE c".toList
      (forall_mem_singleton.mpr feed) (forall_mem_nil _)
    exact @Written.cons [] [' '] _ _ "CREATE a\r\n  FOR b".toList (forall_mem_nil _)
      (forall_mem_singleton.mpr space) unterminated
  · have comment : ∀ line ∈ ["// a; b".toList, "  // c;".toList], isComment line = true := by decide
    have carriageReturn : isWhitespace '\r' = true := by decide
    refine .insert (.inl (comment _ mem_cons_self)) (.keep _ ?_)
    refine .insert (.inl (comment _ (.tail _ mem_cons_self))) ?_
    exact .insert (.inr (forall_mem_singleton.mpr carriageReturn)) (.keep _ (.keep _ .nil))

end NetHound.Soundness
