import NetHound.Evaluate.Candidates
import NetHound.Evaluate.Engine

/-! # The fixed worst-case traffic

Every assembled candidate carries all-protocol traffic without a port, meant as the broadest check.
Only rules with the `-1` sentinel match it, so a candidate is judged as if the other rules were not
there: the worst case over-approximates a concrete flow exactly when the sentinel rules alone
already leave the path open to it.
-/

namespace NetHound.Soundness

open Domain Net Evaluate

/-- The endpoint with its sentinel rules only. -/
def sentinelEndpoint (endpoint : EndpointCandidate) : EndpointCandidate :=
  { endpoint with
    securityGroupRules := endpoint.securityGroupRules.filter fun rule => rule.protocol == "-1"
    naclRules := endpoint.naclRules.filter fun rule => rule.protocol == "-1" }

/-- The candidate with its sentinel rules only, judged on `traffic`. -/
def sentinelCandidate (candidate : PathCandidate) (traffic : Traffic) : PathCandidate :=
  { candidate with
    source := sentinelEndpoint candidate.source
    destination := sentinelEndpoint candidate.destination
    traffic }

private theorem ruleKind_worstCase (rule : SgRule) (groups : List String) (traffic : Traffic) :
    Sg.ruleKind (worstCaseTraffic traffic.peerAddress) groups rule =
      if rule.protocol == "-1" then Sg.ruleKind traffic groups rule else .no := by
  cases sentinel : rule.protocol == "-1" with
  | false => simp [Sg.ruleKind, worstCaseTraffic, ruleCovers_all, sentinel]
  | true =>
    have protocol : rule.protocol = "-1" := by simpa using sentinel
    simp only [Sg.ruleKind, worstCaseTraffic, protocol, ruleCovers_sentinel, ↓reduceIte]
    rfl

private theorem exists_kind_worstCase {kind : Kleene} (decided : kind ≠ .no) (rules : List SgRule)
    (direction : Direction) (groups : List String) (traffic : Traffic) :
    (∃ rule ∈ rules, rule.direction = direction ∧
        Sg.ruleKind (worstCaseTraffic traffic.peerAddress) groups rule = kind) ↔
      ∃ rule ∈ rules.filter (fun rule => rule.protocol == "-1"), rule.direction = direction ∧
        Sg.ruleKind traffic groups rule = kind := by
  simp only [List.mem_filter, and_assoc]
  refine exists_congr fun rule => and_congr_right fun _ => ?_
  rw [ruleKind_worstCase]
  cases rule.protocol == "-1" with
  | true => simp
  | false => simp [decided.symm]

theorem sgAdmits_worstCase (rules : List SgRule) (direction : Direction) (groups : List String)
    (traffic : Traffic) :
    Sg.admits rules direction (worstCaseTraffic traffic.peerAddress) groups ↔
      Sg.admits (rules.filter fun rule => rule.protocol == "-1") direction traffic groups :=
  exists_kind_worstCase (by decide) rules direction groups traffic

theorem sgUndecided_worstCase (rules : List SgRule) (direction : Direction) (groups : List String)
    (traffic : Traffic) :
    Sg.undecided rules direction (worstCaseTraffic traffic.peerAddress) groups ↔
      Sg.undecided (rules.filter fun rule => rule.protocol == "-1") direction traffic groups :=
  and_congr (not_congr (sgAdmits_worstCase rules direction groups traffic))
    (exists_kind_worstCase (by decide) rules direction groups traffic)

theorem naclAdmits_worstCase (rules : List NaclRule) (direction : Direction) (traffic : Traffic) :
    Nacl.admits rules direction (worstCaseTraffic traffic.peerAddress) ↔
      Nacl.admits (rules.filter fun rule => rule.protocol == "-1") direction traffic := by
  have same : Nacl.deciding rules direction (worstCaseTraffic traffic.peerAddress) =
      Nacl.deciding (rules.filter fun rule => rule.protocol == "-1") direction traffic := by
    rw [Nacl.deciding, Nacl.deciding, List.leastMatch_filter]
    refine List.leastMatch_congr fun rule _ => ?_
    rw [Nacl.ruleMatches_eq, Nacl.ruleMatches_eq, worstCaseTraffic, ruleCovers_all]
    cases sentinel : rule.protocol == "-1" with
    | false => simp
    | true =>
      have protocol : rule.protocol = "-1" := by simpa using sentinel
      simp [protocol]
  rw [Nacl.admits, same, Nacl.admits]

/-- A candidate judged on the worst case is open exactly when its sentinel rules leave it open. -/
theorem open_worstCase_iff (candidate : PathCandidate) (traffic : Traffic) :
    Open { candidate with traffic := worstCaseTraffic traffic.peerAddress } ↔
      Open (sentinelCandidate candidate traffic) := by
  simp only [Open, layerAdmits, layerUndecided, sentinelCandidate, sentinelEndpoint,
    sgAdmits_worstCase, sgUndecided_worstCase, naclAdmits_worstCase]

/-- The worst case over-approximates a concrete flow exactly when some layer blocks the flow or the
sentinel rules alone leave the path open to it. -/
theorem worstCase_overApproximates_iff (computedAt : String) (candidate : PathCandidate)
    (traffic : Traffic) :
    ((evaluateCandidate computedAt { candidate with traffic }).reachability = .reachable →
        (evaluateCandidate computedAt
          { candidate with traffic := worstCaseTraffic traffic.peerAddress }).reachability ≠
            .notReachable) ↔
      candidate.routeExists = false ∨
        (∃ layer ∈ layerOrder, ¬ layerAdmits { candidate with traffic } layer) ∨
        Open (sentinelCandidate candidate traffic) := by
  rw [reachable_iff, ne_notReachable_iff, open_worstCase_iff]
  dsimp only
  cases candidate.routeExists with
  | false => simp
  | true => simp [imp_iff_not_or]

/-- A path whose rules all name tcp port 443. -/
def httpsOnly : PathCandidate where
  source := ⟨"eni-a", ["sg-a"],
    [⟨.egress, "tcp", some (.single 443), .cidr "0.0.0.0/0", true⟩], "subnet-a",
    [⟨100, .egress, "tcp", some (.single 443), "0.0.0.0/0", .allow⟩]⟩
  destination := ⟨"eni-b", ["sg-b"],
    [⟨.ingress, "tcp", some (.single 443), .cidr "0.0.0.0/0", true⟩], "subnet-b",
    [⟨100, .ingress, "tcp", some (.single 443), "0.0.0.0/0", .allow⟩]⟩
  routeExists := true
  traffic := worstCaseTraffic (.v4 0x0A00000A)
  destinationBoundary := "boundary"

theorem worstCase_httpsOnly :
    (evaluateCandidate "" { httpsOnly with traffic := ⟨.tcp, some 443, .v4 0x0A00000A⟩ }).reachability =
        .reachable ∧
      (evaluateCandidate "" httpsOnly).reachability = .notReachable := by
  decide

end NetHound.Soundness
