import NetHound.Evaluate.Basic

/-! # The security group evaluator

`evaluate/sg.rs`: an unordered union of allow rules, folded over the rules of one direction with
the index each rule has in the caller's list. `ruleKind` is the truth value of one rule and
`evaluate_kind` states that a whole evaluation is the strongest rule of its direction, so
everything about outcomes reduces to `Kleene.any`. `evaluate_eq` states the whole verdict, evidence
included, by the two searches that find the rule it points at.
-/

namespace NetHound.Evaluate.Sg

open Domain Net

/-- The groups the peer interface belongs to; its address is on the traffic. -/
structure PeerIdentity where
  securityGroupIds : List String
deriving DecidableEq, Repr

/-- The union-of-rules accumulator. -/
inductive Outcome where
  | allowed (matchedBy : RuleRef)
  | indeterminate (securityGroupId : String)
  | denied
deriving DecidableEq, Repr

def Outcome.kind : Outcome → Kleene
  | .allowed _ => .yes
  | .indeterminate _ => .unknown
  | .denied => .no

def combine : Outcome → Outcome → Outcome
  | .allowed matchedBy, _ => .allowed matchedBy
  | _, .allowed matchedBy => .allowed matchedBy
  | .indeterminate securityGroupId, _ => .indeterminate securityGroupId
  | _, .indeterminate securityGroupId => .indeterminate securityGroupId
  | .denied, .denied => .denied

/-- One rule on its own; the index and owner only build the rule reference. -/
def classifyRule (rule : SgRule) (ruleIndex : ℕ) (securityGroupId : String) (traffic : Traffic)
    (peer : PeerIdentity) : Outcome :=
  if !ruleProtocolMatches rule.protocol traffic.protocol then .denied
  else if rule.protocol != "-1" && !portMatches rule.portRange traffic.port then .denied
  else
    match rule.target with
    | .cidr cidr =>
        match cidrContains cidr traffic.peerAddress with
        | some true => .allowed (.securityGroup securityGroupId ruleIndex)
        | some false | none => .denied
    | .securityGroupRef refId =>
        if !rule.resolved then .indeterminate refId
        else if peer.securityGroupIds.any (· == refId) then
          .allowed (.securityGroup securityGroupId ruleIndex)
        else .denied

def evaluate (securityGroupId : String) (rules : List SgRule) (direction : Direction)
    (traffic : Traffic) (peer : PeerIdentity) : Verdict :=
  let outcome := ((rules.zipIdx.filter (fun (rule, _) => rule.direction = direction)).map
    (fun (rule, index) => classifyRule rule index securityGroupId traffic peer)).foldl combine .denied
  match outcome with
  | .allowed matchedBy => .allowed matchedBy
  | .indeterminate securityGroupId => .indeterminate (.unresolvedReference securityGroupId)
  | .denied => .denied .noMatchingRule

def evaluateSgEgress (securityGroupId : String) (rules : List SgRule) (traffic : Traffic)
    (peer : PeerIdentity) : Verdict :=
  evaluate securityGroupId rules .egress traffic peer

def evaluateSgIngress (securityGroupId : String) (rules : List SgRule) (traffic : Traffic)
    (peer : PeerIdentity) : Verdict :=
  evaluate securityGroupId rules .ingress traffic peer

/-- The truth value of one rule against traffic and the peer's memberships. -/
def ruleKind (traffic : Traffic) (groups : List String) (rule : SgRule) : Kleene :=
  if ruleCovers rule.protocol rule.portRange traffic then
    match rule.target with
    | .cidr cidr => if cidrAdmits cidr traffic.peerAddress then .yes else .no
    | .securityGroupRef refId =>
        if rule.resolved then (if refId ∈ groups then .yes else .no) else .unknown
  else .no

/-- The rules of one direction. -/
def ofDirection (direction : Direction) (rules : List SgRule) : List SgRule :=
  rules.filter (fun rule => rule.direction = direction)

theorem classifyRule_kind (rule : SgRule) (ruleIndex : ℕ) (securityGroupId : String)
    (traffic : Traffic) (peer : PeerIdentity) :
    (classifyRule rule ruleIndex securityGroupId traffic peer).kind =
      ruleKind traffic peer.securityGroupIds rule := by
  have member (refId : String) :
      peer.securityGroupIds.any (· == refId) = decide (refId ∈ peer.securityGroupIds) := by
    rw [List.any_beq', List.contains_eq_mem]
  cases protocol : ruleProtocolMatches rule.protocol traffic.protocol with
  | false => simp [classifyRule, ruleKind, ruleCovers, protocol, Outcome.kind]
  | true =>
    by_cases ports : (rule.protocol == "-1" || portMatches rule.portRange traffic.port) = true
    · have covered : ruleCovers rule.protocol rule.portRange traffic = true := by
        rw [ruleCovers, protocol, Bool.true_and, ports]
      have passed : (rule.protocol != "-1" && !portMatches rule.portRange traffic.port) = false := by
        cases sentinel : rule.protocol == "-1" <;> simp_all [bne]
      simp only [classifyRule, protocol, passed, ruleKind, covered, Bool.not_true, Bool.false_eq_true,
        ↓reduceIte]
      cases rule.target with
      | cidr cidr =>
        cases contained : cidrContains cidr traffic.peerAddress with
        | none => simp [cidrAdmits, contained, Outcome.kind]
        | some inside => cases inside <;> simp [cidrAdmits, contained, Outcome.kind]
      | securityGroupRef refId =>
        simp only [member]
        cases rule.resolved <;> by_cases present : refId ∈ peer.securityGroupIds <;>
          simp [present, Outcome.kind]
    · have uncovered : ruleCovers rule.protocol rule.portRange traffic = false := by
        rw [ruleCovers, protocol, Bool.true_and]
        exact Bool.eq_false_iff.mpr ports
      have failed : (rule.protocol != "-1" && !portMatches rule.portRange traffic.port) = true := by
        cases sentinel : rule.protocol == "-1" <;> simp_all [bne]
      simp [classifyRule, protocol, failed, ruleKind, uncovered, Outcome.kind]

theorem combine_kind (acc next : Outcome) : (combine acc next).kind = max acc.kind next.kind := by
  cases acc <;> cases next <;> rfl

private theorem foldl_combine_kind (acc : Outcome) (outcomes : List Outcome) :
    (outcomes.foldl combine acc).kind = max acc.kind (Kleene.any (outcomes.map Outcome.kind)) := by
  induction outcomes generalizing acc with
  | nil => cases acc <;> rfl
  | cons outcome rest ih =>
    simp only [List.foldl_cons, List.map_cons, Kleene.any_cons]
    rw [ih, combine_kind, max_assoc]

private theorem zipIdx_filter_kinds (rules : List SgRule) (direction : Direction)
    (kind : SgRule → Kleene) :
    (rules.zipIdx.filter (fun (rule, _) => rule.direction = direction)).map (fun (rule, _) => kind rule) =
      (ofDirection direction rules).map kind := by
  have sublist : (rules.zipIdx.filter (fun (rule, _) => rule.direction = direction)).map Prod.fst =
      ofDirection direction rules := by
    rw [ofDirection, ← List.zipIdx_map_fst 0 rules, List.filter_map, List.zipIdx_map_fst]
    rfl
  rw [← sublist, List.map_map]
  rfl

/-- An evaluation has the strongest outcome among the rules of its direction. -/
theorem evaluate_kind (securityGroupId : String) (rules : List SgRule) (direction : Direction)
    (traffic : Traffic) (peer : PeerIdentity) :
    (evaluate securityGroupId rules direction traffic peer).kind =
      Kleene.any ((ofDirection direction rules).map (ruleKind traffic peer.securityGroupIds)) := by
  have folded := foldl_combine_kind .denied
    ((rules.zipIdx.filter (fun (rule, _) => rule.direction = direction)).map
      (fun (rule, index) => classifyRule rule index securityGroupId traffic peer))
  simp only [List.map_map, Function.comp_def, classifyRule_kind] at folded
  rw [zipIdx_filter_kinds rules direction (ruleKind traffic peer.securityGroupIds)] at folded
  have verdict : (evaluate securityGroupId rules direction traffic peer).kind =
      (((rules.zipIdx.filter (fun (rule, _) => rule.direction = direction)).map
        (fun (rule, index) => classifyRule rule index securityGroupId traffic peer)).foldl
          combine .denied).kind := by
    unfold evaluate
    dsimp only
    split <;> next outcome => rw [outcome]; rfl
  rw [verdict, folded]
  cases Kleene.any ((ofDirection direction rules).map (ruleKind traffic peer.securityGroupIds)) <;> rfl

/-- Some rule of the direction admits the traffic. -/
def admits (rules : List SgRule) (direction : Direction) (traffic : Traffic) (groups : List String) :
    Prop :=
  ∃ rule ∈ rules, rule.direction = direction ∧ ruleKind traffic groups rule = .yes

/-- No rule of the direction admits the traffic, but an unresolved reference might. -/
def undecided (rules : List SgRule) (direction : Direction) (traffic : Traffic)
    (groups : List String) : Prop :=
  ¬ admits rules direction traffic groups ∧
    ∃ rule ∈ rules, rule.direction = direction ∧ ruleKind traffic groups rule = .unknown

private theorem mem_kinds_iff {rules : List SgRule} {direction : Direction} {traffic : Traffic}
    {groups : List String} {kind : Kleene} :
    kind ∈ (ofDirection direction rules).map (ruleKind traffic groups) ↔
      ∃ rule ∈ rules, rule.direction = direction ∧ ruleKind traffic groups rule = kind := by
  simp [ofDirection, and_assoc]

theorem evaluate_kind_yes_iff (securityGroupId : String) (rules : List SgRule) (direction : Direction)
    (traffic : Traffic) (peer : PeerIdentity) :
    (evaluate securityGroupId rules direction traffic peer).kind = .yes ↔
      admits rules direction traffic peer.securityGroupIds := by
  rw [evaluate_kind, Kleene.any_eq_yes_iff, mem_kinds_iff, admits]

theorem evaluate_kind_unknown_iff (securityGroupId : String) (rules : List SgRule)
    (direction : Direction) (traffic : Traffic) (peer : PeerIdentity) :
    (evaluate securityGroupId rules direction traffic peer).kind = .unknown ↔
      undecided rules direction traffic peer.securityGroupIds := by
  rw [evaluate_kind, Kleene.any_eq_unknown_iff, mem_kinds_iff, mem_kinds_iff, undecided, admits]

/-! ## The rule a verdict points at -/

/-- A rule of the direction that admits the traffic. -/
def admitsIn (direction : Direction) (traffic : Traffic) (groups : List String) (rule : SgRule) : Bool :=
  decide (rule.direction = direction) && decide (ruleKind traffic groups rule = .yes)

/-- The unresolved group a rule of the direction leaves the traffic to. -/
def awaitedIn (direction : Direction) (traffic : Traffic) (rule : SgRule) : Option String :=
  match rule.target with
  | .cidr _ => none
  | .securityGroupRef refId =>
      if rule.direction = direction ∧ ruleCovers rule.protocol rule.portRange traffic = true ∧
        rule.resolved = false then some refId else none

/-- The outcome for the index of the first admitting rule and the first awaited group. -/
def outcomeOf (securityGroupId : String) : Option ℕ → Option String → Outcome
  | some ruleIndex, _ => .allowed (.securityGroup securityGroupId ruleIndex)
  | none, some refId => .indeterminate refId
  | none, none => .denied

def verdictOf (securityGroupId : String) : Option ℕ → Option String → Verdict
  | some ruleIndex, _ => .allowed (.securityGroup securityGroupId ruleIndex)
  | none, some refId => .indeterminate (.unresolvedReference refId)
  | none, none => .denied .noMatchingRule

theorem ruleKind_eq_unknown_iff {traffic : Traffic} {groups : List String} {rule : SgRule} :
    ruleKind traffic groups rule = .unknown ↔ ∃ refId, awaitedIn rule.direction traffic rule = some refId := by
  unfold ruleKind awaitedIn
  cases ruleCovers rule.protocol rule.portRange traffic with
  | false => cases rule.target <;> simp
  | true =>
    cases rule.target with
    | cidr cidr => cases cidrAdmits cidr traffic.peerAddress <;> simp
    | securityGroupRef refId => cases rule.resolved <;> by_cases refId ∈ groups <;> simp [*]

private theorem classifyRule_allowed {rule : SgRule} {ruleIndex : ℕ} {securityGroupId : String}
    {traffic : Traffic} {peer : PeerIdentity} {matchedBy : RuleRef}
    (allowed : classifyRule rule ruleIndex securityGroupId traffic peer = .allowed matchedBy) :
    matchedBy = .securityGroup securityGroupId ruleIndex := by
  rw [classifyRule] at allowed
  cases target : rule.target with
  | cidr cidr =>
    simp only [target] at allowed
    split_ifs at allowed
    split at allowed <;> cases allowed
    rfl
  | securityGroupRef refId =>
    simp only [target] at allowed
    split_ifs at allowed
    cases allowed
    rfl

private theorem classifyRule_indeterminate {rule : SgRule} {ruleIndex : ℕ} {securityGroupId : String}
    {traffic : Traffic} {peer : PeerIdentity} {direction : Direction} {refId awaited : String}
    (undecided : classifyRule rule ruleIndex securityGroupId traffic peer = .indeterminate refId)
    (found : awaitedIn direction traffic rule = some awaited) : refId = awaited := by
  rw [classifyRule] at undecided
  rw [awaitedIn] at found
  cases target : rule.target with
  | cidr cidr =>
    simp only [target] at found
    cases found
  | securityGroupRef named =>
    simp only [target] at undecided found
    split_ifs at undecided
    split_ifs at found
    cases undecided
    exact Option.some.inj found

private theorem classifyRule_of_direction {rule : SgRule} {direction : Direction}
    (ofDirection : rule.direction = direction) (ruleIndex : ℕ) (securityGroupId : String)
    (traffic : Traffic) (peer : PeerIdentity) :
    classifyRule rule ruleIndex securityGroupId traffic peer =
      outcomeOf securityGroupId
        (if admitsIn direction traffic peer.securityGroupIds rule then some ruleIndex else none)
        (awaitedIn direction traffic rule) := by
  have kind := classifyRule_kind rule ruleIndex securityGroupId traffic peer
  have undecided := @ruleKind_eq_unknown_iff traffic peer.securityGroupIds rule
  rw [ofDirection] at undecided
  rw [admitsIn, decide_eq_true ofDirection, Bool.true_and]
  cases outcome : classifyRule rule ruleIndex securityGroupId traffic peer with
  | allowed matchedBy =>
    rw [outcome] at kind
    rw [← kind, Outcome.kind, decide_eq_true rfl, if_pos rfl]
    exact congrArg Outcome.allowed (classifyRule_allowed outcome)
  | indeterminate refId =>
    rw [outcome] at kind
    obtain ⟨awaited, found⟩ := undecided.mp kind.symm
    have same := classifyRule_indeterminate outcome found
    rw [← kind, found, same]
    rfl
  | denied =>
    rw [outcome] at kind
    have settled : awaitedIn direction traffic rule = none := by
      refine Option.eq_none_iff_forall_ne_some.mpr fun refId found => ?_
      have unknown := undecided.mpr ⟨refId, found⟩
      rw [← kind] at unknown
      cases unknown
    rw [← kind, settled]
    rfl

private theorem combine_assoc (a b c : Outcome) : combine (combine a b) c = combine a (combine b c) := by
  cases a <;> cases b <;> cases c <;> rfl

private theorem combine_outcomeOf (securityGroupId : String) (first later : Option ℕ)
    (awaited awaited' : Option String) :
    combine (outcomeOf securityGroupId first awaited) (outcomeOf securityGroupId later awaited') =
      outcomeOf securityGroupId (first.or later) (awaited.or awaited') := by
  cases first <;> cases later <;> cases awaited <;> cases awaited' <;> rfl

private theorem foldl_classifyRule (securityGroupId : String) (rules : List SgRule)
    (direction : Direction) (traffic : Traffic) (peer : PeerIdentity) (start : ℕ) (acc : Outcome) :
    (((rules.zipIdx start).filter (fun (rule, _) => rule.direction = direction)).map
        (fun (rule, index) => classifyRule rule index securityGroupId traffic peer)).foldl combine acc =
      combine acc (outcomeOf securityGroupId
        ((rules.findIdx? (admitsIn direction traffic peer.securityGroupIds)).map (· + start))
        (rules.findSome? (awaitedIn direction traffic))) := by
  induction rules generalizing start acc with
  | nil => cases acc <;> rfl
  | cons rule rules ih =>
    rw [List.zipIdx_cons, List.filter_cons, List.findIdx?_cons]
    have shifted : (rules.findIdx? (admitsIn direction traffic peer.securityGroupIds)).map
          (· + (start + 1)) =
        ((rules.findIdx? (admitsIn direction traffic peer.securityGroupIds)).map (· + 1)).map
          (· + start) := by
      rw [Option.map_map]
      congr 1
      funext index
      simp only [Function.comp_apply]
      omega
    by_cases ofDirection : rule.direction = direction
    · rw [if_pos (decide_eq_true ofDirection), List.map_cons, List.foldl_cons, ih, combine_assoc]
      dsimp only
      rw [classifyRule_of_direction ofDirection, combine_outcomeOf, shifted, List.findSome?_cons]
      congr 2
      · cases admitsIn direction traffic peer.securityGroupIds rule <;> simp
      · cases awaitedIn direction traffic rule <;> rfl
    · have unmatched : admitsIn direction traffic peer.securityGroupIds rule = false := by
        rw [admitsIn, decide_eq_false ofDirection, Bool.false_and]
      have unawaited : awaitedIn direction traffic rule = none := by
        rw [awaitedIn]
        cases rule.target with
        | cidr cidr => rfl
        | securityGroupRef refId => exact if_neg fun holds => ofDirection holds.1
      rw [if_neg (by simpa using ofDirection), ih, shifted, List.findSome?_cons, unmatched, unawaited]
      simp

/-- An evaluation points at the first rule of its direction that admits the traffic, and failing
one at the first group a covering rule waits for. -/
theorem evaluate_eq (securityGroupId : String) (rules : List SgRule) (direction : Direction)
    (traffic : Traffic) (peer : PeerIdentity) :
    evaluate securityGroupId rules direction traffic peer =
      verdictOf securityGroupId (rules.findIdx? (admitsIn direction traffic peer.securityGroupIds))
        (rules.findSome? (awaitedIn direction traffic)) := by
  have folded := foldl_classifyRule securityGroupId rules direction traffic peer 0 .denied
  have shifted (index : Option ℕ) : index.map (· + 0) = index := by cases index <;> rfl
  rw [shifted] at folded
  rw [evaluate]
  simp only [folded]
  cases rules.findIdx? (admitsIn direction traffic peer.securityGroupIds) <;>
    cases rules.findSome? (awaitedIn direction traffic) <;> rfl

end NetHound.Evaluate.Sg
