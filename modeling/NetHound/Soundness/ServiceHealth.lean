import NetHound.Audit.Preflight

/-! # Waiting for the database service

What `docker compose ps` prints is read as the health of the first service called `neo4j`, whatever the
other services report. The wait for it ends: with polls an interval apart the ninety-first decides at the
latest, and before that the loop gives up on nothing but an answer that is final.
-/

namespace NetHound.Soundness

open Audit.Preflight

private theorem healthFromComposePs_composeTable (rows : List Row) :
    healthFromComposePs (composeTable rows) =
      (rows.find? fun row => row.service = "neo4j").elim (.ok .absent) Row.reading := by
  rw [healthFromComposePs, lines_composeTable]
  induction rows with
  | nil => rfl
  | cons row rows ih =>
    rw [List.map_cons, healthFromLines_row, ih]
    split_ifs with named
    · rw [List.find?_cons_of_pos (by simpa using named)]
      rfl
    · rw [List.find?_cons_of_neg (by simpa using named)]

/-- Whatever services are printed before and after it, the first one called `neo4j` decides: it is read as
healthy, starting or unhealthy when its health column is that word in upper or lower case, and its line is
refused when the column is anything else. Without such a service it is read as absent. -/
theorem compose_table_read_back (rows : List Row) :
    (∀ before row after, rows = before ++ row :: after → (∀ other ∈ before, other.service ≠ "neo4j") →
      row.service = "neo4j" → row.Reads (healthFromComposePs (composeTable rows))) ∧
    ((∀ row ∈ rows, row.service ≠ "neo4j") → healthFromComposePs (composeTable rows) = .ok .absent) := by
  rw [healthFromComposePs_composeTable]
  constructor
  · rintro before row after rfl others named
    have first : (before ++ row :: after).find? (fun row => row.service = "neo4j") = some row := by
      rw [List.find?_append, List.find?_eq_none.mpr (by simpa using others), Option.none_or,
        List.find?_cons_of_pos (by simpa using named)]
    rw [first]
    exact row.reads
  · intro none
    rw [List.find?_eq_none.mpr (by simpa using none)]
    rfl

/-- A paced loop ends by its ninety-first poll. It has waited only for polls that found the service
starting or unhealthy before the timeout, and the first other poll decides: it succeeds on a healthy service
alone, and reports that it waited too long only when the timeout has passed. -/
theorem preflight_wait_bounded {polls : List Poll} (paced : Paced polls) :
    (90 < polls.length → ∃ result, waitForHealthy polls = some result) ∧
      ∀ result, waitForHealthy polls = some result → ∃ earlier poll later, polls = earlier ++ poll :: later ∧
        earlier.length ≤ 90 ∧ (∀ before ∈ earlier, before.Waits) ∧ poll.Decides result := by
  have waits (index : ℕ) (bound : index < polls.length) (waits : polls[index].Waits) : index < 90 := by
    have late := paced.elapsed bound
    have early := waits.2
    simp only [pollInterval, pollTimeout, secs] at late early
    omega
  constructor
  · intro enough
    rw [← Option.ne_none_iff_exists', ne_eq, waitForHealthy_eq_none_iff]
    intro all
    exact (waits 90 enough (all _ (List.getElem_mem _))).false
  · intro result ended
    obtain ⟨earlier, poll, later, rfl, before, decides⟩ := exists_of_waitForHealthy ended
    refine ⟨earlier, poll, later, rfl, ?_, before, decides⟩
    rcases Nat.eq_zero_or_pos earlier.length with none | some
    · exact none.le.trans (Nat.zero_le _)
    · have last := waits (earlier.length - 1) (by rw [List.length_append]; omega) (by
        rw [List.getElem_append_left (by omega)]
        exact before _ (List.getElem_mem _))
      omega

/-! ## A service that starts for two minutes -/

private def startingThenHealthy : List Poll :=
  [⟨.ok ⟨true, "web||running\nneo4j|starting|running\n", ""⟩, secs 1⟩,
    ⟨.ok ⟨true, "web||running\nneo4j|Healthy|running\n", ""⟩, secs 120⟩]

theorem preflight_wait_bounded_starting : ∃ earlier poll later,
    startingThenHealthy = earlier ++ poll :: later ∧ earlier.length ≤ 90 ∧
      (∀ before ∈ earlier, before.Waits) ∧ poll.Decides (.ok ()) := by
  have paced : Paced startingThenHealthy := .cons_cons (by decide) (.singleton _)
  exact (preflight_wait_bounded paced).2 (.ok ()) (by decide)

end NetHound.Soundness
