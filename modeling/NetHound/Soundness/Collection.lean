import NetHound.Audit.Session

/-! # Collecting an account

The five collectors run side by side, and their pages may arrive in any order. It makes no difference: they
return the whole account or nothing, and one that fails reaches the operator as a failure of its own
operation.
-/

namespace NetHound.Soundness

open Audit Audit.Session Ingest Ingest.Aws

/-- The first page of a stream that does not arrive, and why. -/
def FirstMissing (client : Ec2Client) (collector : Collector) (source : SdkError) : Prop :=
  ∃ (outputs : List (DescribeOutput collector.Item))
    (later : List (Except SdkError (DescribeOutput collector.Item))),
    client.pages collector = outputs.map .ok ++ .error source :: later

private theorem firstMissing_of_collect_error {schedule : List Collector} {client : Ec2Client}
    {error : Aws.IngestError} (failed : collect schedule client = some (.error error)) :
    ∃ collector source, FirstMissing client collector source ∧
      error = .describe collector.operation (source.boxed (.describe collector)) := by
  obtain ⟨collector, alone⟩ := exists_of_collect_error failed
  obtain ⟨outputs, source, later, pages, same⟩ := drainPages_eq_error_iff.mp alone
  exact ⟨collector, source, ⟨outputs, later, pages⟩, same⟩

/-- In whatever order the pages arrive, the collectors return all pages of every stream or fail with the first
missing page of one of them; they come to an end when each is polled for every page; and no order returns
what another does not. -/
theorem collection_is_whole (schedule : List Collector) (client : Ec2Client) :
    (∀ collections, collect schedule client = some (.ok collections) → ∀ collector : Collector,
      ∃ outputs : List (DescribeOutput collector.Item), client.pages collector = outputs.map .ok ∧
        collector.of collections = outputs.flatMap DescribeOutput.extractItems) ∧
      (∀ error, collect schedule client = some (.error error) → ∃ collector source,
        FirstMissing client collector source ∧
          error = .describe collector.operation (source.boxed (.describe collector))) ∧
      ((∀ collector, (client.pages collector).length ≤ schedule.count collector) → collect schedule client ≠ none) ∧
      ∀ schedule' result result' collections, collect schedule client = some result →
        collect schedule' client = some result' → (result = .ok collections ↔ result' = .ok collections) := by
  refine ⟨?_, fun _ => firstMissing_of_collect_error, collect_of_fair, ?_⟩
  · intro collections collected collector
    have alone := collect_of_collect collected collector
    obtain ⟨outputs, pages, items⟩ := drainPages_eq_ok_iff.mp alone
    exact ⟨outputs, pages, items⟩
  · have carried {first second : List Collector} {result : Except Aws.IngestError Sdk.Collections}
        {collections : Sdk.Collections} (collected : collect first client = some (.ok collections))
        (ended : collect second client = some result) : result = .ok collections := by
      have snapshot := collect_of_collect collected
      rcases result with error | collections'
      · obtain ⟨collector, alone⟩ := exists_of_collect_error ended
        rw [snapshot collector] at alone
        cases alone
      · rw [(collect_of_collect ended).unique snapshot]
    intro schedule' result result' collections ended ended'
    constructor
    · rintro rfl
      exact carried ended ended'
    · rintro rfl
      exact carried ended' ended

/-- When the collectors fail, in whatever order, the failure is that of the first missing page of a collector.
Its class is that of the first recognised cause behind that page, unclassified only where there is none, and
where access is denied it names this collector's operation and the permission for it. -/
theorem collection_failure_classified {schedule : List Collector} {client : Ec2Client} {error : Aws.IngestError}
    (failed : collect schedule client = some (.error error)) (environment : Environment) :
    ∃ collector source, FirstMissing client collector source ∧
        (∀ found : Audit.Class, classifyIngest environment error = found.intoFailure error ↔
          FirstRecognised collector.operation environment.awsProfile (source.boxed (.describe collector)) found) ∧
        (classifyIngest environment error = .other error ↔
          ∀ cause ∈ source.boxed (.describe collector), ∀ found,
            ¬ Recognised collector.operation environment.awsProfile cause found) ∧
        ∀ operation iamAction, classifyIngest environment error = .accessDenied operation iamAction error →
          operation = collector.operation ∧ iamAction = "ec2:" ++ collector.operation := by
  obtain ⟨collector, source, missing, rfl⟩ := firstMissing_of_collect_error failed
  refine ⟨collector, source, missing, fun found => ?_, ?_, fun operation iamAction denied => ?_⟩
  · exact classify_eq_intoFailure_iff.trans firstRecognised_unrelated_cons
  · refine classify_eq_other_iff.trans ?_
    rw [IngestError.chain, List.forall_mem_cons]
    exact and_iff_right nofun
  · have found := (@classify_eq_intoFailure_iff _ _ _ (.accessDenied operation iamAction)).mp denied
    obtain ⟨_, _, _, _, recognised, _⟩ := firstRecognised_unrelated_cons.mp found
    exact accessDenied_of_recognised recognised

/-! ## Credentials that run out on the second page -/

private def expiring : Ec2Client where
  pages
    | .networkInterfaces => [.ok ⟨some [{ networkInterfaceId := some "eni-1" }]⟩,
        .error ⟨none, [.unrelated, .sdk (.describe .routeTables) (some "Throttling"),
          .sdk .getCallerIdentity (some "ExpiredToken")]⟩]
    | _ => [.ok ⟨none⟩]

private def anyEnvironment : Environment where
  docker := ⟨.ok ⟨true, "", ""⟩, []⟩
  regions := ⟨none, none, none⟩
  awsProfile := none
  schedule := []
  neo4jPassword := none
  connection _ _ := .ok ()
  clock _ := ""

/-- The error of another collector's operation is passed over. -/
theorem collection_failure_classified_expired :
    ∃ collector source, FirstMissing expiring collector source ∧ ∃ error,
      collect [.networkInterfaces, .routeTables, .networkInterfaces] expiring = some (.error error) ∧
        classifyIngest anyEnvironment error = .expiredCredentials error ∧
        FirstRecognised collector.operation none (source.boxed (.describe collector)) .expiredCredentials := by
  have failed : collect [.networkInterfaces, .routeTables, .networkInterfaces] expiring =
      some (.error (.describe "DescribeNetworkInterfaces" [.sdk (.describe .networkInterfaces) none, .unrelated,
        .sdk (.describe .routeTables) (some "Throttling"), .sdk .getCallerIdentity (some "ExpiredToken")])) := rfl
  obtain ⟨collector, source, missing, classes, _⟩ := collection_failure_classified failed anyEnvironment
  exact ⟨collector, source, missing, _, failed, rfl, (classes .expiredCredentials).mp rfl⟩

end NetHound.Soundness
