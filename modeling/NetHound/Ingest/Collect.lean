import NetHound.Ingest.AwsClient
import NetHound.ToMathlib.TryJoin

/-! # Collecting the pages of an account

`ingest/collect.rs` and the `try_join!` around its five collectors. A stream is the list of pages that will
arrive on it; which collector receives its next page when is up to a schedule. Joined, the collectors
return what each would return alone, or the error of one that fails alone.
-/

namespace NetHound.Ingest.Aws

open Graph Graph.Session Cypher Interruptible Interruptible.Program

/-- The type a collector's stream yields. -/
def Collector.Item : Collector → Type
  | .securityGroups => Sdk.SecurityGroup
  | .networkAcls => Sdk.NetworkAcl
  | .routeTables => Sdk.RouteTable
  | .networkInterfaces => Sdk.NetworkInterface
  | .vpcPeeringConnections => Sdk.VpcPeeringConnection

def Collector.operation : Collector → String
  | .securityGroups => "DescribeSecurityGroups"
  | .networkAcls => "DescribeNetworkAcls"
  | .routeTables => "DescribeRouteTables"
  | .networkInterfaces => "DescribeNetworkInterfaces"
  | .vpcPeeringConnections => "DescribeVpcPeeringConnections"

/-- The response to one call: a page of the collection it was asked for. -/
structure DescribeOutput (Item : Type) where
  items : Option (List Item)

/-- `unwrap_or_default` of the page's collection. -/
def DescribeOutput.extractItems {Item : Type} (output : DescribeOutput Item) : List Item :=
  output.items.getD []

/-- The pages each paginator will yield. -/
structure Ec2Client where
  pages (collector : Collector) : List (Except SdkError (DescribeOutput collector.Item))

/-- The loop over a stream; `errorType` is the operation whose errors it carries. -/
def drainPages {Output Item : Type} (errorType : Operation) (operation : String)
    (extractItems : Output → List Item) : List Item → List (Except SdkError Output) → Except IngestError (List Item)
  | items, [] => .ok items
  | _, .error source :: _ => .error (.describe operation (source.boxed errorType))
  | items, .ok output :: pages => drainPages errorType operation extractItems (items ++ extractItems output) pages

def Collector.collect (collector : Collector) (client : Ec2Client) : Except IngestError (List collector.Item) :=
  drainPages (.describe collector) collector.operation DescribeOutput.extractItems [] (client.pages collector)

def collectSecurityGroups : Ec2Client → Except IngestError (List Sdk.SecurityGroup) :=
  Collector.collect .securityGroups

def collectNetworkAcls : Ec2Client → Except IngestError (List Sdk.NetworkAcl) :=
  Collector.collect .networkAcls

def collectRouteTables : Ec2Client → Except IngestError (List Sdk.RouteTable) :=
  Collector.collect .routeTables

def collectNetworkInterfaces : Ec2Client → Except IngestError (List Sdk.NetworkInterface) :=
  Collector.collect .networkInterfaces

def collectVpcPeeringConnections : Ec2Client → Except IngestError (List Sdk.VpcPeeringConnection) :=
  Collector.collect .vpcPeeringConnections

/-! ## One collector -/

section Drain

variable {Output Item : Type} {errorType : Operation} {operation : String} {extractItems : Output → List Item}
  {items result : List Item} {pages : List (Except SdkError Output)}

/-- The loop returns when every page arrived, with the items of all of them in order. -/
theorem drainPages_eq_ok_iff :
    drainPages errorType operation extractItems items pages = .ok result ↔
      ∃ outputs : List Output, pages = outputs.map .ok ∧ result = items ++ outputs.flatMap extractItems := by
  induction pages generalizing items with
  | nil =>
    constructor
    · intro done
      cases done
      exact ⟨[], rfl, (List.append_nil _).symm⟩
    · rintro ⟨outputs, none, rfl⟩
      obtain rfl := List.map_eq_nil_iff.mp none.symm
      rw [List.flatMap_nil, List.append_nil]
      rfl
  | cons page pages ih =>
    cases page with
    | error source =>
      refine iff_of_false nofun ?_
      rintro ⟨_ | ⟨output, outputs⟩, same, _⟩ <;> cases same
    | ok output =>
      rw [drainPages, ih]
      constructor
      · rintro ⟨outputs, rfl, rfl⟩
        exact ⟨output :: outputs, rfl, by rw [List.flatMap_cons, List.append_assoc]⟩
      · rintro ⟨_ | ⟨output', outputs⟩, same, rfl⟩
        · cases same
        · cases same
          exact ⟨outputs, rfl, by rw [List.flatMap_cons, List.append_assoc]⟩

/-- It fails with the first page that did not arrive. -/
theorem drainPages_eq_error_iff {error : IngestError} :
    drainPages errorType operation extractItems items pages = .error error ↔
      ∃ (outputs : List Output) (source : SdkError) (later : List (Except SdkError Output)),
        pages = outputs.map .ok ++ .error source :: later ∧
          error = .describe operation (source.boxed errorType) := by
  induction pages generalizing items with
  | nil => exact iff_of_false nofun fun ⟨outputs, _, _, same, _⟩ => by cases outputs <;> cases same
  | cons page pages ih =>
    cases page with
    | error source =>
      constructor
      · intro failed
        cases failed
        exact ⟨[], source, pages, rfl, rfl⟩
      · rintro ⟨_ | ⟨output, outputs⟩, source', later, same, rfl⟩
        · cases same
          rfl
        · cases same
    | ok output =>
      rw [drainPages, ih]
      constructor
      · rintro ⟨outputs, source, later, rfl, rfl⟩
        exact ⟨output :: outputs, source, later, rfl, rfl⟩
      · rintro ⟨_ | ⟨output', outputs⟩, source, later, same, rfl⟩
        · cases same
        · cases same
          exact ⟨outputs, source, later, rfl, rfl⟩

/-- What the loop makes of one page. -/
def receivePage (errorType : Operation) (operation : String) (extractItems : Output → List Item) :
    Except SdkError Output → Except IngestError (List Item)
  | .ok output => .ok (extractItems output)
  | .error source => .error (.describe operation (source.boxed errorType))

theorem drainPages_eq_drain :
    drainPages errorType operation extractItems items pages =
      TryJoin.Progress.drain items (pages.map (receivePage errorType operation extractItems)) := by
  induction pages generalizing items with
  | nil => rfl
  | cons page pages ih =>
    cases page with
    | error source => rfl
    | ok output => exact ih

end Drain

/-- A collector's stream as it is received. -/
def Collector.stream (collector : Collector) (client : Ec2Client) :
    List (Except IngestError (List collector.Item)) :=
  (client.pages collector).map
    (receivePage (.describe collector) collector.operation DescribeOutput.extractItems)

/-- The collectors before any page has arrived. -/
def started (client : Ec2Client) (collector : Collector) : TryJoin.Progress collector.Item IngestError :=
  .start (collector.stream client)

theorem total_started (client : Ec2Client) (collector : Collector) :
    TryJoin.total (started client) collector = collector.collect client :=
  drainPages_eq_drain.symm

/-! ## Joined -/

/-- `try_join!` of the five collectors: `none` while some of them wait for a page. -/
def collect (schedule : List Collector) (client : Ec2Client) : Option (Except IngestError Sdk.Collections) :=
  match TryJoin.run schedule (started client) with
  | .error (_, error) => some (.error error)
  | .ok state =>
      if Collector.all.all fun collector => (state collector).pending.isEmpty then
        some (.ok {
          securityGroups := (state .securityGroups).received
          networkAcls := (state .networkAcls).received
          routeTables := (state .routeTables).received
          networkInterfaces := (state .networkInterfaces).received
          vpcPeeringConnections := (state .vpcPeeringConnections).received })
      else none

/-- The part of a snapshot that a collector is for. -/
def Collector.of (collections : Sdk.Collections) : (collector : Collector) → List collector.Item
  | .securityGroups => collections.securityGroups
  | .networkAcls => collections.networkAcls
  | .routeTables => collections.routeTables
  | .networkInterfaces => collections.networkInterfaces
  | .vpcPeeringConnections => collections.vpcPeeringConnections

/-- Each collector returns its part of the snapshot. -/
def Snapshot (client : Ec2Client) (collections : Sdk.Collections) : Prop :=
  ∀ collector : Collector, collector.collect client = .ok (collector.of collections)

theorem Snapshot.unique {client : Ec2Client} {collections collections' : Sdk.Collections}
    (snapshot : Snapshot client collections) (snapshot' : Snapshot client collections') :
    collections = collections' := by
  have same (collector : Collector) : collector.of collections = collector.of collections' :=
    Except.ok.inj ((snapshot collector).symm.trans (snapshot' collector))
  rcases collections with ⟨securityGroups, networkAcls, routeTables, networkInterfaces, vpcPeeringConnections⟩
  obtain rfl : securityGroups = _ := same .securityGroups
  obtain rfl : networkAcls = _ := same .networkAcls
  obtain rfl : routeTables = _ := same .routeTables
  obtain rfl : networkInterfaces = _ := same .networkInterfaces
  obtain rfl : vpcPeeringConnections = _ := same .vpcPeeringConnections
  rfl

/-- Joined collectors return what each of them returns alone. -/
theorem collect_of_collect {schedule : List Collector} {client : Ec2Client} {collections : Sdk.Collections}
    (collected : collect schedule client = some (.ok collections)) : Snapshot client collections := by
  intro collector
  rw [collect] at collected
  split at collected
  · cases collected
  · next state ran =>
    split at collected
    · next done =>
      have finished : TryJoin.Finished state := fun collector =>
        List.isEmpty_iff.mp (List.all_eq_true.mp done collector collector.mem_all)
      have received := TryJoin.received_of_run ran finished
      rw [← total_started, received]
      cases collected
      cases collector <;> rfl
    · cases collected

/-- They fail as one of them fails alone. -/
theorem exists_of_collect_error {schedule : List Collector} {client : Ec2Client} {error : IngestError}
    (failed : collect schedule client = some (.error error)) :
    ∃ collector : Collector, collector.collect client = .error error := by
  rw [collect] at failed
  split at failed
  · next collector error' ran =>
    cases failed
    exact ⟨collector, by rw [← total_started, TryJoin.total_of_run_error ran]⟩
  · split at failed <;> cases failed

/-- With enough polls for every page of each collector, they come to an end. -/
theorem collect_of_fair {schedule : List Collector} {client : Ec2Client}
    (fair : ∀ collector, (client.pages collector).length ≤ schedule.count collector) :
    collect schedule client ≠ none := by
  have polls : ∀ collector, (started client collector).pending.length ≤ schedule.count collector :=
    fun collector => (List.length_map _).le.trans (fair collector)
  rw [collect]
  rcases TryJoin.ends_of_fair polls with ⟨⟨collector, error⟩, ran⟩ | ⟨state, ran, finished⟩
  · rw [ran]
    exact nofun
  · have done : (Collector.all.all fun collector => (state collector).pending.isEmpty) = true :=
      List.all_eq_true.mpr fun collector _ => List.isEmpty_iff.mpr (finished collector)
    simp only [ran, done]
    exact nofun

/-! ## The whole ingestion -/

def IngestError.ofWriting : Session.IngestError → IngestError
  | .mapping source => .mapping source
  | .write source => .write source

def runFullIngestWithClient (schedule : List Collector) (client : Ec2Client) (accountId : String) :
    Program Neo4jGraph IngestError IngestReport :=
  match collect schedule client with
  | none => stop
  | some (.error error) => fail error
  | some (.ok collections) => (Session.runFullIngestWithClient accountId collections).on .whole .ofWriting

/-- The account was collected as a whole, and mapped. -/
def Mapped (schedule : List Collector) (client : Ec2Client) (accountId : String) (batch : GraphBatch) : Prop :=
  ∃ collections, collect schedule client = some (.ok collections) ∧
    (Topology.buildGraphBatch accountId collections).2 = .ok batch

/-- What an ingestion may leave: the graph it was given, or that with the first steps of the whole batch. -/
def WrittenUpTo (schedule : List Collector) (client : Ec2Client) (accountId : String)
    (graph₀ graph : Neo4jGraph) : Prop :=
  graph = graph₀ ∨ ∃ batch, Mapped schedule client accountId batch ∧
    LeftAfter (Session.batchSteps batch) graph₀ graph

/-- How an ingestion fails: before its first write, or in the write of the whole batch. -/
inductive FailsIngesting (schedule : List Collector) (client : Ec2Client) (accountId : String)
    (graph₀ : Neo4jGraph) : IngestError → Neo4jGraph → Prop
  | collecting {error : IngestError} (failed : collect schedule client = some (.error error)) :
      FailsIngesting schedule client accountId graph₀ error graph₀
  | mapping {collections : Sdk.Collections} {source : MappingError}
      (collected : collect schedule client = some (.ok collections))
      (failed : (Topology.buildGraphBatch accountId collections).2 = .error source) :
      FailsIngesting schedule client accountId graph₀ (.mapping source) graph₀
  | writing {batch : GraphBatch} {source : WriteError} {graph : Neo4jGraph}
      (mapped : Mapped schedule client accountId batch)
      (failed : FailedWith (Session.batchSteps batch) graph₀ source graph) :
      FailsIngesting schedule client accountId graph₀ (.write source) graph

theorem FailsIngesting.writtenUpTo {schedule : List Collector} {client : Ec2Client} {accountId : String}
    {graph₀ graph : Neo4jGraph} {error : IngestError}
    (fails : FailsIngesting schedule client accountId graph₀ error graph) :
    WrittenUpTo schedule client accountId graph₀ graph := by
  cases fails with
  | collecting _ => exact Or.inl rfl
  | mapping _ _ => exact Or.inl rfl
  | writing mapped failed => exact Or.inr ⟨_, mapped, failed.leftAfter⟩

/-- An ingestion that finished has written all the steps of its batch. -/
theorem writtenUpTo_of_finished {schedule : List Collector} {client : Ec2Client} {accountId : String}
    {collections : Sdk.Collections} {graph₀ : Neo4jGraph} {ingested : Ingested}
    (collected : collect schedule client = some (.ok collections))
    (finished : Ingest.runFullIngestWithClient accountId collections graph₀ = .ok ingested) :
    WrittenUpTo schedule client accountId graph₀ ingested.graph := by
  obtain ⟨batch, built⟩ := Session.exists_built finished
  obtain ⟨written, _⟩ := (Session.finishes_iff built).mp finished
  exact Or.inr ⟨batch, ⟨collections, collected, built⟩,
    Session.leftAfter_of_written (buildGraphBatch_ok built).consistent written⟩

theorem leads_runFullIngestWithClient (schedule : List Collector) (client : Ec2Client) (accountId : String)
    (graph₀ : Neo4jGraph) :
    Leads (· = graph₀) (runFullIngestWithClient schedule client accountId)
      (fun report graph => ∃ collections, collect schedule client = some (.ok collections) ∧
        Ingest.runFullIngestWithClient accountId collections graph₀ = .ok ⟨report, graph⟩)
      (FailsIngesting schedule client accountId graph₀) (WrittenUpTo schedule client accountId graph₀) := by
  rw [runFullIngestWithClient]
  rcases collected : collect schedule client with _ | error | collections
  · exact leads_stop fun _ same => Or.inl same
  · refine leads_fail ?_
    rintro _ rfl
    exact .collecting collected
  · dsimp only
    rcases built : (Topology.buildGraphBatch accountId collections).2 with source | batch
    · have fails := Session.runFullIngestWithClient_of_error built
      have leads : Leads (· = graph₀) (Session.runFullIngestWithClient accountId collections)
          (fun _ _ => False) (fun error graph => error = .mapping source ∧ graph = graph₀) (· = graph₀) := by
        rw [fails]
        exact leads_fail fun _ same => ⟨rfl, same⟩
      refine (leads.on_whole IngestError.ofWriting).imp (fun _ same => same) (fun _ _ never => never.elim) ?_
        fun _ same => Or.inl same
      rintro _ _ ⟨_, rfl, rfl, rfl⟩
      exact .mapping collected built
    · have mapped : Mapped schedule client accountId batch := ⟨collections, collected, built⟩
      refine ((Session.leads_of_built built graph₀).on_whole IngestError.ofWriting).imp (fun _ same => same)
        (fun _ _ finished => ⟨collections, rfl, finished⟩) ?_ fun _ left => Or.inr ⟨batch, mapped, left⟩
      rintro _ _ ⟨_, rfl, _, rfl, failed⟩
      exact .writing mapped failed

/-- An ingestion whose account is collected, and that would finish, completes. -/
theorem completes_runFullIngestWithClient {schedule : List Collector} {client : Ec2Client} {accountId : String}
    {collections : Sdk.Collections} {graph : Neo4jGraph} {ingested : Ingested}
    (collected : collect schedule client = some (.ok collections))
    (finishes : Ingest.runFullIngestWithClient accountId collections graph = .ok ingested) :
    Completes (runFullIngestWithClient schedule client accountId) graph ingested.report ingested.graph := by
  obtain ⟨batch, built⟩ := Session.exists_built finishes
  rw [runFullIngestWithClient, collected]
  exact (Session.completes_of_built built finishes).on_whole _

end NetHound.Ingest.Aws
