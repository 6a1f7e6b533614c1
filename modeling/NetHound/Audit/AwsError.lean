import NetHound.Ingest.Collect

/-! # Classifying an AWS failure

`audit-local/aws_error.rs`. The chain of causes is searched for the first that a class is known for; a
cause carries the error type of one operation, and only that of the failing operation, of STS and of the
credentials are looked at. `profile` is what `AWS_PROFILE` holds.
-/

namespace NetHound.Audit

open Ingest.Aws

inductive AwsFailure where
  | profileNotFound (profile : String) (source : IngestError)
  | credentialsNotConfigured (source : IngestError)
  | expiredCredentials (source : IngestError)
  | accessDenied (operation iamAction : String) (source : IngestError)
  | throttled (source : IngestError)
  | other (source : IngestError)
deriving DecidableEq, Repr

/-- The `#[source]` of a failure. -/
def AwsFailure.source : AwsFailure → IngestError
  | .profileNotFound _ source | .credentialsNotConfigured source | .expiredCredentials source
  | .accessDenied _ _ source | .throttled source | .other source => source

/-- The `thiserror` message; `debug` stands for the `{:?}` of a string. -/
def AwsFailure.message (debug : String → String) : AwsFailure → String
  | .profileNotFound profile _ =>
      s!"AWS profile {debug profile} not found — check ~/.aws/config and ~/.aws/credentials"
  | .credentialsNotConfigured _ =>
      "no AWS credentials found — configure a profile, environment variables, or an instance role and retry"
  | .expiredCredentials _ =>
      "AWS credentials expired — refresh your SSO session (e.g. `aws sso login`) and retry"
  | .accessDenied operation iamAction _ =>
      s!"access denied calling {operation} — the caller's IAM identity needs the {iamAction} permission"
  | .throttled _ =>
      "AWS request throttled after retries were exhausted — retry later or reduce concurrency"
  | .other _ => "unclassified AWS ingestion failure"

def iamActionFor (operation : String) : String :=
  match operation with
  | "DescribeSecurityGroups" => "ec2:DescribeSecurityGroups"
  | "DescribeNetworkAcls" => "ec2:DescribeNetworkAcls"
  | "DescribeRouteTables" => "ec2:DescribeRouteTables"
  | "DescribeNetworkInterfaces" => "ec2:DescribeNetworkInterfaces"
  | "DescribeVpcPeeringConnections" => "ec2:DescribeVpcPeeringConnections"
  | "GetCallerIdentity" => "sts:GetCallerIdentity"
  | _ => "the required EC2 read permission"

inductive Class where
  | profileNotFound (profile : String)
  | credentialsNotConfigured
  | expiredCredentials
  | accessDenied (operation iamAction : String)
  | throttled
deriving DecidableEq, Repr

def Class.intoFailure (source : IngestError) : Class → AwsFailure
  | .profileNotFound profile => .profileNotFound profile source
  | .credentialsNotConfigured => .credentialsNotConfigured source
  | .expiredCredentials => .expiredCredentials source
  | .accessDenied operation iamAction => .accessDenied operation iamAction source
  | .throttled => .throttled source

def classifyCode (operation : String) (code : Option String) : Option Class :=
  match code with
  | none => none
  | some code =>
      match code with
      | "ExpiredToken" | "RequestExpired" | "ExpiredTokenException" => some .expiredCredentials
      | "UnauthorizedOperation" | "AccessDenied" | "AccessDeniedException" | "AuthFailure" =>
          some (.accessDenied operation (iamActionFor operation))
      | "RequestLimitExceeded" | "Throttling" | "ThrottlingException" => some .throttled
      | _ => none

def classifyCredentialsError (error : CredentialsError) (profile : Option String) : Option Class :=
  match error with
  | .credentialsNotLoaded => some .credentialsNotConfigured
  | .invalidConfiguration => some (.profileNotFound (profile.getD "default"))
  | _ => none

/-! ## Downcasts -/

def downcastCredentials : Cause → Option CredentialsError
  | .credentials error => some error
  | _ => none

/-- The code of an `SdkError` of the operation. -/
def downcastSdk (operation : Operation) : Cause → Option (Option String)
  | .sdk operation' code => if operation' = operation then some code else none
  | _ => none

def classifyDescribeError (operation : String) (cause : Cause) : Option Class :=
  match operation with
  | "DescribeSecurityGroups" => (downcastSdk (.describe .securityGroups) cause).bind (classifyCode operation)
  | "DescribeNetworkAcls" => (downcastSdk (.describe .networkAcls) cause).bind (classifyCode operation)
  | "DescribeRouteTables" => (downcastSdk (.describe .routeTables) cause).bind (classifyCode operation)
  | "DescribeNetworkInterfaces" => (downcastSdk (.describe .networkInterfaces) cause).bind (classifyCode operation)
  | "DescribeVpcPeeringConnections" =>
      (downcastSdk (.describe .vpcPeeringConnections) cause).bind (classifyCode operation)
  | _ => none

/-- The class a cause is known for: tried as a credentials error, as one of STS, as one of the operation. -/
def classifyCause (operation : String) (profile : Option String) (cause : Cause) : Option Class :=
  ((downcastCredentials cause).bind (classifyCredentialsError · profile)).or
    (((downcastSdk .getCallerIdentity cause).bind (classifyCode operation)).or
      (classifyDescribeError operation cause))

def classify (operation : String) (profile : Option String) (error : IngestError) : AwsFailure :=
  match error.chain.findSome? (classifyCause operation profile) with
  | some found => found.intoFailure error
  | none => .other error

/-- What a code means for a failing operation. -/
inductive CodeMeans (operation : String) : String → Class → Prop
  | expired {code : String} (known : code ∈ ["ExpiredToken", "RequestExpired", "ExpiredTokenException"]) :
      CodeMeans operation code .expiredCredentials
  | denied {code : String}
      (known : code ∈ ["UnauthorizedOperation", "AccessDenied", "AccessDeniedException", "AuthFailure"]) :
      CodeMeans operation code (.accessDenied operation (iamActionFor operation))
  | throttled {code : String} (known : code ∈ ["RequestLimitExceeded", "Throttling", "ThrottlingException"]) :
      CodeMeans operation code .throttled

/-- What a cause says about a failing operation. -/
inductive Recognised (operation : String) (profile : Option String) : Cause → Class → Prop
  | notLoaded : Recognised operation profile (.credentials .credentialsNotLoaded) .credentialsNotConfigured
  | misconfigured :
      Recognised operation profile (.credentials .invalidConfiguration) (.profileNotFound (profile.getD "default"))
  | identity {code : String} {found : Class} (means : CodeMeans operation code found) :
      Recognised operation profile (.sdk .getCallerIdentity (some code)) found
  | describe {collector : Collector} {code : String} {found : Class} (own : operation = collector.operation)
      (means : CodeMeans operation code found) :
      Recognised operation profile (.sdk (.describe collector) (some code)) found

theorem classifyCode_eq_some_iff {operation : String} {code : Option String} {found : Class} :
    classifyCode operation code = some found ↔ ∃ text, code = some text ∧ CodeMeans operation text found := by
  constructor
  · intro known
    unfold classifyCode at known
    split at known
    · cases known
    · next text =>
      refine ⟨text, rfl, ?_⟩
      split at known <;> cases known
      case h_1 | h_2 | h_3 => exact .expired (by decide)
      case h_4 | h_5 | h_6 | h_7 => exact .denied (by decide)
      case h_8 | h_9 | h_10 => exact .throttled (by decide)
  · rintro ⟨text, rfl, known | known | known⟩ <;> simp only [List.mem_cons, List.not_mem_nil, or_false] at known
    · rcases known with rfl | rfl | rfl <;> rfl
    · rcases known with rfl | rfl | rfl | rfl <;> rfl
    · rcases known with rfl | rfl | rfl <;> rfl

theorem bind_downcastSdk_eq_some_iff {operation : String} {errorType : Operation} {cause : Cause} {found : Class} :
    (downcastSdk errorType cause).bind (classifyCode operation) = some found ↔
      ∃ code, cause = .sdk errorType (some code) ∧ CodeMeans operation code found := by
  rw [Option.bind_eq_some_iff]
  constructor
  · rintro ⟨code, cast, known⟩
    obtain ⟨text, rfl, means⟩ := classifyCode_eq_some_iff.mp known
    refine ⟨text, ?_, means⟩
    unfold downcastSdk at cast
    split at cast
    · split_ifs at cast with own
      cases cast
      rw [own]
    · cases cast
  · rintro ⟨code, rfl, means⟩
    exact ⟨some code, if_pos rfl, classifyCode_eq_some_iff.mpr ⟨code, rfl, means⟩⟩

/-- Each collector's operation is matched with its own error type. -/
theorem classifyDescribeError_operation (collector : Collector) (cause : Cause) :
    classifyDescribeError collector.operation cause =
      (downcastSdk (.describe collector) cause).bind (classifyCode collector.operation) := by
  cases collector <;> rfl

theorem classifyDescribeError_eq_some_iff {operation : String} {cause : Cause} {found : Class} :
    classifyDescribeError operation cause = some found ↔ ∃ (collector : Collector) (code : String),
      operation = collector.operation ∧ cause = .sdk (.describe collector) (some code) ∧
        CodeMeans operation code found := by
  constructor
  · intro known
    obtain ⟨collector, own⟩ : ∃ collector : Collector, operation = collector.operation := by
      unfold classifyDescribeError at known
      split at known
      · exact ⟨.securityGroups, rfl⟩
      · exact ⟨.networkAcls, rfl⟩
      · exact ⟨.routeTables, rfl⟩
      · exact ⟨.networkInterfaces, rfl⟩
      · exact ⟨.vpcPeeringConnections, rfl⟩
      · cases known
    rw [own, classifyDescribeError_operation, bind_downcastSdk_eq_some_iff, ← own] at known
    obtain ⟨code, same, means⟩ := known
    exact ⟨collector, code, own, same, means⟩
  · rintro ⟨collector, code, rfl, same, means⟩
    rw [classifyDescribeError_operation]
    exact bind_downcastSdk_eq_some_iff.mpr ⟨code, same, means⟩

/-- Past the credentials, a cause is looked at as an error of STS and as one of the operation. -/
private theorem classifySdk_eq_some_iff {operation : String} {cause : Cause} {found : Class} :
    ((downcastSdk .getCallerIdentity cause).bind (classifyCode operation)).or
        (classifyDescribeError operation cause) = some found ↔
      ∃ errorType code, cause = .sdk errorType (some code) ∧ CodeMeans operation code found ∧
        (errorType = .getCallerIdentity ∨
          ∃ collector : Collector, errorType = .describe collector ∧ operation = collector.operation) := by
  rw [Option.or_eq_some_iff, bind_downcastSdk_eq_some_iff, classifyDescribeError_eq_some_iff]
  constructor
  · rintro (⟨code, same, means⟩ | ⟨_, collector, code, own, same, means⟩)
    · exact ⟨_, code, same, means, Or.inl rfl⟩
    · exact ⟨_, code, same, means, Or.inr ⟨collector, rfl, own⟩⟩
  · rintro ⟨errorType, code, rfl, means, rfl | ⟨collector, rfl, own⟩⟩
    · exact Or.inl ⟨code, rfl, means⟩
    · exact Or.inr ⟨rfl, collector, code, own, rfl, means⟩

/-- A cause is classified as what it says. -/
theorem classifyCause_eq_some_iff {operation : String} {profile : Option String} {cause : Cause} {found : Class} :
    classifyCause operation profile cause = some found ↔ Recognised operation profile cause found := by
  rw [classifyCause, Option.or_eq_some_iff, classifySdk_eq_some_iff]
  constructor
  · rintro (known | ⟨_, errorType, code, rfl, means, rfl | ⟨collector, rfl, own⟩⟩)
    · obtain ⟨error, cast, known⟩ := Option.bind_eq_some_iff.mp known
      cases cause <;> cases cast
      cases error <;> cases known
      · exact .notLoaded
      · exact .misconfigured
    · exact .identity means
    · exact .describe own means
  · rintro (_ | _ | means | ⟨own, means⟩)
    · exact Or.inl rfl
    · exact Or.inl rfl
    · exact Or.inr ⟨rfl, _, _, rfl, means, Or.inl rfl⟩
    · exact Or.inr ⟨rfl, _, _, rfl, means, Or.inr ⟨_, rfl, own⟩⟩

theorem classifyCause_eq_none_iff {operation : String} {profile : Option String} {cause : Cause} :
    classifyCause operation profile cause = none ↔ ∀ found, ¬ Recognised operation profile cause found := by
  rw [Option.eq_none_iff_forall_ne_some]
  exact forall_congr' fun found => not_congr classifyCause_eq_some_iff

/-- The first cause of a chain that is recognised. -/
def FirstRecognised (operation : String) (profile : Option String) (chain : List Cause) (found : Class) : Prop :=
  ∃ earlier cause later, chain = earlier ++ cause :: later ∧ Recognised operation profile cause found ∧
    ∀ before ∈ earlier, ∀ other, ¬ Recognised operation profile before other

/-- A failure is of a class when the first cause that is recognised says so. -/
theorem classify_eq_intoFailure_iff {operation : String} {profile : Option String} {error : IngestError}
    {found : Class} :
    classify operation profile error = found.intoFailure error ↔
      FirstRecognised operation profile error.chain found := by
  have first : error.chain.findSome? (classifyCause operation profile) = some found ↔
      FirstRecognised operation profile error.chain found := by
    rw [List.findSome?_eq_some_iff]
    simp only [classifyCause_eq_some_iff, classifyCause_eq_none_iff]
    rfl
  rw [← first, classify]
  rcases error.chain.findSome? (classifyCause operation profile) with _ | other
  · exact iff_of_false (by cases found <;> exact nofun) nofun
  · constructor
    · intro same
      cases other <;> cases found <;> cases same <;> rfl
    · intro same
      cases same
      rfl

/-- It is of no class when no cause is recognised. -/
theorem classify_eq_other_iff {operation : String} {profile : Option String} {error : IngestError} :
    classify operation profile error = .other error ↔
      ∀ cause ∈ error.chain, ∀ found, ¬ Recognised operation profile cause found := by
  have none : error.chain.findSome? (classifyCause operation profile) = none ↔
      ∀ cause ∈ error.chain, ∀ found, ¬ Recognised operation profile cause found := by
    rw [List.findSome?_eq_none_iff]
    simp only [classifyCause_eq_none_iff]
  rw [← none, classify]
  rcases error.chain.findSome? (classifyCause operation profile) with _ | other
  · exact iff_of_true rfl rfl
  · exact iff_of_false (by cases other <;> exact nofun) nofun

/-- A link that no class is known for hides nothing behind it. -/
theorem firstRecognised_unrelated_cons {operation : String} {profile : Option String} {chain : List Cause}
    {found : Class} : FirstRecognised operation profile (.unrelated :: chain) found ↔
      FirstRecognised operation profile chain found := by
  constructor
  · rintro ⟨_ | ⟨first, earlier⟩, cause, later, same, known, before⟩
    · cases same
      cases known
    · cases same
      exact ⟨earlier, cause, later, rfl, known, fun link member => before link (List.mem_cons_of_mem _ member)⟩
  · rintro ⟨earlier, cause, later, rfl, known, before⟩
    exact ⟨.unrelated :: earlier, cause, later, rfl, known, List.forall_mem_cons.mpr ⟨nofun, before⟩⟩

/-- Access that is denied to a collector is denied to its own operation. -/
theorem accessDenied_of_recognised {collector : Collector} {profile : Option String} {cause : Cause}
    {operation iamAction : String}
    (recognised : Recognised collector.operation profile cause (.accessDenied operation iamAction)) :
    operation = collector.operation ∧ iamAction = "ec2:" ++ collector.operation := by
  have own : iamActionFor collector.operation = "ec2:" ++ collector.operation := by cases collector <;> rfl
  cases recognised with
  | identity means =>
    cases means
    exact ⟨rfl, own⟩
  | describe _ means =>
    cases means
    exact ⟨rfl, own⟩

end NetHound.Audit
