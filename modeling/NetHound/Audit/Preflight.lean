import NetHound.Migrations.Lines

/-! # Preflight

`audit-local/preflight.rs`: the health of the `neo4j` service as `docker compose ps` prints it, and the loop
that waits for it. What the commands answer is an argument; a poll has the time at which its answer was
looked at, and the process may be stopped after any of them. Durations are nanoseconds.
-/

namespace NetHound.Audit.Preflight

open Migrations

/-- Whole seconds as a duration. -/
def secs (count : ℕ) : ℕ := count * 1000000000

def pollInterval : ℕ := secs 2

def pollTimeout : ℕ := secs 180

inductive ServiceHealth where
  | healthy
  | starting
  | unhealthy
  | absent
deriving DecidableEq, Repr

inductive PreflightError where
  | dockerUnavailable (reason : String)
  | composePsFailed (stderr : String)
  | unexpectedOutput (line : String)
  | serviceAbsent
  | notHealthy (waited : ℕ) (lastState : ServiceHealth)
deriving DecidableEq, Repr

/-! ## The service table -/

/-- `to_ascii_lowercase`. -/
def toAsciiLowercase (text : List Char) : String := String.ofList (text.map Char.toLower)

/-- What the health column of the service's line says. -/
def healthFromColumn (line health : List Char) : Except PreflightError ServiceHealth :=
  match toAsciiLowercase health with
  | "healthy" => .ok .healthy
  | "starting" => .ok .starting
  | "unhealthy" => .ok .unhealthy
  | _ => .error (.unexpectedOutput (String.ofList line))

def healthFromLines : List (List Char) → Except PreflightError ServiceHealth
  | [] => .ok .absent
  | line :: lines =>
      let line := trim line
      if line.isEmpty then healthFromLines lines
      else
        match line.splitOn '|' with
        | service :: health :: _ =>
            if service ≠ "neo4j".toList then healthFromLines lines else healthFromColumn line health
        | _ => .error (.unexpectedOutput (String.ofList line))

def healthFromComposePs (stdout : String) : Except PreflightError ServiceHealth :=
  healthFromLines (lines stdout.toList)

example : healthFromComposePs "neo4j|healthy|running\n" = .ok .healthy := by decide

/-- A line of a service, as `PS_FORMAT` prints it. -/
structure Row where
  service : String
  health : String
  state : String
  named : ∀ c ∈ service.toList, isWhitespace c = false ∧ c ≠ '|'
  column : '\n' ∉ health.toList ∧ '|' ∉ health.toList
  oneLine : '\n' ∉ state.toList

def Row.line (row : Row) : List Char :=
  row.service.toList ++ '|' :: (row.health.toList ++ '|' :: row.state.toList)

/-- What `docker compose ps` prints for these services. -/
def composeTable (rows : List Row) : String := String.ofList (rows.flatMap fun row => row.line ++ ['\n'])

/-- What is read off a service's line. -/
def Row.reading (row : Row) : Except PreflightError ServiceHealth :=
  healthFromColumn (trim (stripCarriageReturn row.line)) row.health.toList

theorem lines_composeTable (rows : List Row) :
    lines (composeTable rows).toList = rows.map fun row => stripCarriageReturn row.line := by
  have pieces : (composeTable rows).toList.splitOn '\n' = rows.map Row.line ++ [[]] := by
    rw [composeTable, String.toList_ofList]
    induction rows with
    | nil => rfl
    | cons row rows ih =>
      have oneLine : '\n' ∉ row.line := by
        intro member
        rcases List.mem_append.mp member with inService | inRest
        · exact nomatch (row.named _ inService).1
        · rcases List.mem_append.mp (List.mem_of_ne_of_mem (by decide) inRest) with inHealth | inState
          · exact row.column.1 inHealth
          · exact row.oneLine (List.mem_of_ne_of_mem (by decide) inState)
      rw [List.flatMap_cons, List.append_assoc, List.singleton_append,
        List.splitOn_append_cons_self_of_not_mem oneLine, ih]
      rfl
  rw [lines]
  simp only [pieces, List.dropLast_concat, List.getLast?_concat, List.map_map]
  exact List.append_nil _

/-- Neither a carriage return nor white space is taken from in front of a bar. -/
private theorem exists_stripped (front back : List Char) :
    ∃ back', stripCarriageReturn (front ++ '|' :: back) = front ++ '|' :: back' := by
  rw [stripCarriageReturn]
  split_ifs with ends
  · rcases back with _ | ⟨c, back⟩
    · rw [List.getLast?_concat] at ends
      cases ends
    · exact ⟨(c :: back).dropLast, by rw [List.dropLast_append_cons]; rfl⟩
  · exact ⟨back, rfl⟩

private theorem exists_trimmed {front : List Char} (tight : ∀ c ∈ front.head?, isWhitespace c = false)
    (back : List Char) : ∃ back', trim (front ++ '|' :: back) = front ++ '|' :: back' := by
  have start : trimStart (front ++ '|' :: back) = front ++ '|' :: back := by
    rcases front with _ | ⟨c, front⟩
    · rfl
    · exact List.dropWhile_cons_of_neg (Bool.eq_false_iff.mp (tight c rfl))
  have bar : trimStart ('|' :: front.reverse) = '|' :: front.reverse := rfl
  have behind : trimStart (back.reverse ++ '|' :: front.reverse) =
      trimStart back.reverse ++ '|' :: front.reverse := by
    rcases eq_or_ne (trimStart back.reverse) [] with empty | nonempty
    · rw [trimStart_blank_append (trimStart_eq_nil_iff.mp empty), empty, bar]
      rfl
    · exact trimStart_append nonempty _
  refine ⟨(trimStart back.reverse).reverse, ?_⟩
  rw [trim_eq, start, List.reverse_append, List.reverse_cons, List.append_assoc, List.singleton_append, behind,
    List.reverse_append, List.reverse_cons, List.reverse_reverse, List.append_assoc]
  rfl

/-- A service's line is read by its first two columns. -/
theorem healthFromLines_row (row : Row) (lines : List (List Char)) :
    healthFromLines (stripCarriageReturn row.line :: lines) =
      if row.service = "neo4j" then row.reading else healthFromLines lines := by
  have columns : row.line = (row.service.toList ++ '|' :: row.health.toList) ++ '|' :: row.state.toList := by
    rw [Row.line, List.append_assoc]
    rfl
  obtain ⟨state, stripped⟩ := exists_stripped (row.service.toList ++ '|' :: row.health.toList) row.state.toList
  rw [← columns] at stripped
  have tight : ∀ c ∈ (row.service.toList ++ '|' :: row.health.toList).head?, isWhitespace c = false := by
    intro c first
    rcases service : row.service.toList with _ | ⟨d, rest⟩ <;> rw [service] at first <;> cases first
    · decide
    · exact (row.named _ (by rw [service]; exact List.mem_cons_self)).1
  obtain ⟨state', trimmed⟩ := exists_trimmed tight state
  have split : (trim (stripCarriageReturn row.line)).splitOn '|' =
      row.service.toList :: row.health.toList :: state'.splitOn '|' := by
    have noBar : '|' ∉ row.service.toList := fun member => (row.named _ member).2 rfl
    rw [stripped, trimmed, List.append_assoc, List.cons_append,
      List.splitOn_append_cons_self_of_not_mem noBar, List.splitOn_append_cons_self_of_not_mem row.column.2]
  have filled : (trim (stripCarriageReturn row.line)).isEmpty = false := by
    rw [stripped, trimmed]
    cases row.service.toList <;> rfl
  have named : row.service.toList ≠ "neo4j".toList ↔ ¬ row.service = "neo4j" :=
    not_congr String.toList_inj
  rw [healthFromLines]
  simp only [filled, split, named, Bool.false_eq_true, if_false, ite_not]
  rfl

/-! ## What a line says -/

/-- The health column holds the word, each letter in either case. -/
def Row.Says (row : Row) (word : String) : Prop :=
  List.Forall₂ (fun c letter => c = letter ∨ c = letter.toUpper) row.health.toList word.toList

/-- What the line of the service comes to. One that says anything else is quoted, up to the blanks at its
end. -/
inductive Row.Reads (row : Row) : Except PreflightError ServiceHealth → Prop
  | healthy (spelled : row.Says "healthy") : Reads row (.ok .healthy)
  | starting (spelled : row.Says "starting") : Reads row (.ok .starting)
  | unhealthy (spelled : row.Says "unhealthy") : Reads row (.ok .unhealthy)
  | unexpected {quoted : String} {blank : List Char}
      (other : ∀ word ∈ ["healthy", "starting", "unhealthy"], ¬ row.Says word)
      (line : row.line = quoted.toList ++ blank) (isBlank : Blank blank)
      (ends : ∀ c ∈ quoted.toList.getLast?, isWhitespace c = false) :
      Reads row (.error (.unexpectedOutput quoted))

private theorem toNat_toLower (c : Char) :
    c.toLower.toNat = if 65 ≤ c.toNat ∧ c.toNat ≤ 90 then c.toNat + 32 else c.toNat := by
  have upper : (c.val ≥ 'A'.val ∧ c.val ≤ 'Z'.val) ↔ 65 ≤ c.toNat ∧ c.toNat ≤ 90 := by
    rw [ge_iff_le, UInt32.le_iff_toNat_le, UInt32.le_iff_toNat_le]
    rfl
  delta Char.toLower
  split_ifs with inside bounds bounds
  · have below : c.val.toNat ≤ 90 := bounds.2
    change (c.val + 32).toNat = c.val.toNat + 32
    rw [UInt32.toNat_add]
    change (c.val.toNat + 32) % 2 ^ 32 = _
    omega
  · exact absurd (upper.mp inside) bounds
  · exact absurd (upper.mpr bounds) inside
  · rfl

private theorem toNat_toUpper (c : Char) :
    c.toUpper.toNat = if 97 ≤ c.toNat ∧ c.toNat ≤ 122 then c.toNat - 32 else c.toNat := by
  have lower : ('a'.val ≤ c.val ∧ c.val ≤ 'z'.val) ↔ 97 ≤ c.toNat ∧ c.toNat ≤ 122 := by
    rw [UInt32.le_iff_toNat_le, UInt32.le_iff_toNat_le]
    rfl
  delta Char.toUpper
  split_ifs with inside bounds bounds
  · obtain ⟨above, below⟩ : 97 ≤ c.val.toNat ∧ c.val.toNat ≤ 122 := bounds
    -- the difference of the cases is added, and wraps around
    change (c.val + ('A'.val - 'a'.val)).toNat = c.val.toNat - 32
    rw [UInt32.toNat_add]
    change (c.val.toNat + 4294967264) % 2 ^ 32 = _
    omega
  · exact absurd (lower.mp inside) bounds
  · exact absurd (lower.mpr bounds) inside
  · rfl

private theorem toLower_eq_iff {letter : Char} (lower : letter.isLower = true) (c : Char) :
    c.toLower = letter ↔ c = letter ∨ c = letter.toUpper := by
  have bounds : 97 ≤ letter.toNat ∧ letter.toNat ≤ 122 := by
    delta Char.isLower at lower
    simpa [UInt32.le_iff_toNat_le] using lower
  rw [← Char.toNat_inj, ← Char.toNat_inj, ← Char.toNat_inj, toNat_toLower, toNat_toUpper, if_pos bounds]
  split_ifs <;> omega

private theorem map_toLower_eq_iff {letters : List Char} (lower : ∀ letter ∈ letters, letter.isLower = true)
    (text : List Char) : text.map Char.toLower = letters ↔
      List.Forall₂ (fun c letter => c = letter ∨ c = letter.toUpper) text letters := by
  induction text generalizing letters with
  | nil => rw [List.map_nil, List.forall₂_nil_left_iff, eq_comm]
  | cons c text ih =>
    rcases letters with _ | ⟨letter, letters⟩
    · exact iff_of_false nofun nofun
    · obtain ⟨first, rest⟩ := List.forall_mem_cons.mp lower
      rw [List.map_cons, List.cons.injEq, List.forall₂_cons, toLower_eq_iff first, ih rest]

private theorem Row.says_iff (row : Row) {word : String} (lower : word.toList.all Char.isLower = true) :
    toAsciiLowercase row.health.toList = word ↔ row.Says word := by
  rw [toAsciiLowercase, ← String.toList_inj, String.toList_ofList,
    map_toLower_eq_iff (List.all_eq_true.mp lower), Row.Says]

/-- What is quoted of a line is all of it but the blanks at its end. -/
private theorem Row.exists_quoted (row : Row) : ∃ blank, Blank blank ∧
    row.line = trim (stripCarriageReturn row.line) ++ blank ∧
      ∀ c ∈ (trim (stripCarriageReturn row.line)).getLast?, isWhitespace c = false := by
  obtain ⟨tail, isBlank, whole⟩ := exists_stripCarriageReturn row.line
  have stripped : trim (stripCarriageReturn row.line) = trim row.line := by
    conv_rhs => rw [whole]
    exact (trim_append_blank _ isBlank).symm
  have start : trimStart row.line = row.line := by
    rw [Row.line]
    rcases service : row.service.toList with _ | ⟨c, rest⟩
    · rfl
    · have named := (row.named c (by rw [service]; exact List.mem_cons_self)).1
      exact List.dropWhile_cons_of_neg (Bool.eq_false_iff.mp named)
  rw [stripped, trim_eq, start]
  refine ⟨(row.line.reverse.takeWhile isWhitespace).reverse, Blank.reverse fun c => List.mem_takeWhile_imp, ?_, ?_⟩
  · rw [← List.reverse_append, trimStart, List.takeWhile_append_dropWhile, List.reverse_reverse]
  · intro c last
    rw [List.getLast?_reverse] at last
    have first := List.head?_dropWhile_not isWhitespace row.line.reverse
    rw [← trimStart, last] at first
    exact Bool.eq_false_iff.mpr (by simpa using first)

theorem Row.reads (row : Row) : row.Reads row.reading := by
  rw [reading, healthFromColumn]
  split
  · next found => exact .healthy ((row.says_iff rfl).mp found)
  · next found => exact .starting ((row.says_iff rfl).mp found)
  · next found => exact .unhealthy ((row.says_iff rfl).mp found)
  · next healthy starting unhealthy =>
    obtain ⟨blank, isBlank, line, ends⟩ := row.exists_quoted
    refine @Row.Reads.unexpected row _ blank ?_ (by rw [String.toList_ofList]; exact line) isBlank
      (by rw [String.toList_ofList]; exact ends)
    simp only [List.forall_mem_cons, List.not_mem_nil, false_implies, implies_true, and_true]
    exact ⟨mt (row.says_iff rfl).mpr healthy, mt (row.says_iff rfl).mpr starting,
      mt (row.says_iff rfl).mpr unhealthy⟩

/-! ## The commands -/

/-- What a finished command printed, decoded. -/
structure CommandOutput where
  success : Bool
  stdout : String
  stderr : String
deriving DecidableEq, Repr

def trimmed (text : String) : String := String.ofList (trim text.toList)

/-- `output` is the answer to `docker compose version`, or why it did not start. -/
def checkDockerAvailable (output : Except String CommandOutput) : Except PreflightError Unit :=
  match output with
  | .error source => .error (.dockerUnavailable source)
  | .ok output => if output.success then .ok () else .error (.dockerUnavailable (trimmed output.stderr))

def composePs (output : Except String CommandOutput) : Except PreflightError String :=
  match output with
  | .error source => .error (.dockerUnavailable source)
  | .ok output => if output.success then .ok output.stdout else .error (.composePsFailed (trimmed output.stderr))

/-- One answer to `docker compose ps`, and the time since the loop started. -/
structure Poll where
  output : Except String CommandOutput
  elapsed : ℕ

def Poll.health (poll : Poll) : Except PreflightError ServiceHealth := do
  healthFromComposePs (← composePs poll.output)

/-- `none` while the loop waits for its next poll. -/
def waitForHealthy : List Poll → Option (Except PreflightError Unit)
  | [] => none
  | poll :: polls =>
      match poll.health with
      | .error error => some (.error error)
      | .ok .healthy => some (.ok ())
      | .ok .absent => some (.error .serviceAbsent)
      | .ok health =>
          if pollTimeout ≤ poll.elapsed then some (.error (.notHealthy poll.elapsed health))
          else waitForHealthy polls

structure Docker where
  version : Except String CommandOutput
  polls : List Poll

def run (docker : Docker) : Option (Except PreflightError Unit) :=
  match checkDockerAvailable docker.version with
  | .error error => some (.error error)
  | .ok () => waitForHealthy docker.polls

/-! ## Which poll decides -/

/-- The service is up but not ready, and there is time left. -/
def Poll.Waits (poll : Poll) : Prop :=
  (poll.health = .ok .starting ∨ poll.health = .ok .unhealthy) ∧ poll.elapsed < pollTimeout

/-- How a poll ends the loop. -/
inductive Poll.Decides (poll : Poll) : Except PreflightError Unit → Prop
  | ready (found : poll.health = .ok .healthy) : Decides poll (.ok ())
  | absent (found : poll.health = .ok .absent) : Decides poll (.error .serviceAbsent)
  | gaveUp {state : ServiceHealth} (found : poll.health = .ok state)
      (unready : state = .starting ∨ state = .unhealthy) (late : pollTimeout ≤ poll.elapsed) :
      Decides poll (.error (.notHealthy poll.elapsed state))
  | failed {error : PreflightError} (found : poll.health = .error error) : Decides poll (.error error)

/-- A poll lets the loop wait or decides it. -/
private theorem waitForHealthy_cons (poll : Poll) (polls : List Poll) :
    poll.Waits ∧ waitForHealthy (poll :: polls) = waitForHealthy polls ∨
      ¬ poll.Waits ∧ ∃ result, poll.Decides result ∧ waitForHealthy (poll :: polls) = some result := by
  rw [waitForHealthy]
  rcases health : poll.health with error | state
  · refine Or.inr ⟨?_, _, .failed health, rfl⟩
    rintro ⟨found | found, _⟩ <;> rw [health] at found <;> cases found
  · have unready (isUnready : state = .starting ∨ state = .unhealthy) (late : pollTimeout ≤ poll.elapsed) :
        ¬ poll.Waits ∧ ∃ result, poll.Decides result ∧
          some (Except.error (.notHealthy poll.elapsed state)) = some result :=
      ⟨fun waits => late.not_gt waits.2, _, .gaveUp health isUnready late, rfl⟩
    cases state with
    | healthy =>
      refine Or.inr ⟨?_, _, .ready health, rfl⟩
      rintro ⟨found | found, _⟩ <;> rw [health] at found <;> cases found
    | absent =>
      refine Or.inr ⟨?_, _, .absent health, rfl⟩
      rintro ⟨found | found, _⟩ <;> rw [health] at found <;> cases found
    | starting =>
      dsimp only
      split_ifs with late
      · exact Or.inr (unready (Or.inl rfl) late)
      · exact Or.inl ⟨⟨Or.inl health, Nat.lt_of_not_le late⟩, rfl⟩
    | unhealthy =>
      dsimp only
      split_ifs with late
      · exact Or.inr (unready (Or.inr rfl) late)
      · exact Or.inl ⟨⟨Or.inr health, Nat.lt_of_not_le late⟩, rfl⟩

theorem waitForHealthy_eq_none_iff {polls : List Poll} :
    waitForHealthy polls = none ↔ ∀ poll ∈ polls, poll.Waits := by
  induction polls with
  | nil => exact iff_of_true rfl (List.forall_mem_nil _)
  | cons poll polls ih =>
    rw [List.forall_mem_cons]
    rcases waitForHealthy_cons poll polls with ⟨waits, same⟩ | ⟨decides, result, _, same⟩
    · rw [same, ih]
      exact ⟨fun rest => ⟨waits, rest⟩, fun all => all.2⟩
    · rw [same]
      exact iff_of_false nofun fun all => decides all.1

/-- The loop ends with the first poll that does not let it wait. -/
theorem exists_of_waitForHealthy {polls : List Poll} {result : Except PreflightError Unit}
    (ended : waitForHealthy polls = some result) : ∃ earlier poll later, polls = earlier ++ poll :: later ∧
      (∀ before ∈ earlier, before.Waits) ∧ poll.Decides result := by
  induction polls with
  | nil => cases ended
  | cons poll polls ih =>
    rcases waitForHealthy_cons poll polls with ⟨waits, same⟩ | ⟨_, result', decides, same⟩
    · obtain ⟨earlier, last, later, rfl, before, decides⟩ := ih (same.symm.trans ended)
      exact ⟨poll :: earlier, last, later, rfl, List.forall_mem_cons.mpr ⟨waits, before⟩, decides⟩
    · rw [same] at ended
      cases ended
      exact ⟨[], poll, polls, rfl, List.forall_mem_nil _, decides⟩

/-- Every poll is looked at an interval after the one before it, at least. -/
def Paced (polls : List Poll) : Prop :=
  polls.IsChain fun before after => before.elapsed + pollInterval ≤ after.elapsed

theorem Paced.elapsed {polls : List Poll} (paced : Paced polls) {index : ℕ} (bound : index < polls.length) :
    index * pollInterval ≤ polls[index].elapsed := by
  induction index with
  | zero => rw [Nat.zero_mul]; exact Nat.zero_le _
  | succ index ih =>
    have earlier := ih (Nat.lt_of_succ_lt bound)
    have step := List.isChain_iff_getElem.mp paced index (by omega)
    rw [Nat.succ_mul]
    omega

end NetHound.Audit.Preflight
