import NetHound.Evaluate.Engine

/-! # The rules that govern a flow

A verdict is a function of four rule lists, one for each layer, and of the memberships the two
security group layers look up. `SameGoverning` is agreement on those alone: the other direction's
rules, the resource ids, the boundary and an endpoint's own memberships at its own layer are free.
-/

namespace NetHound.Soundness

open Domain Net Evaluate

/-- The candidates agree on the rules each layer takes its direction from, and on the memberships of
both endpoints. -/
structure SameGoverning (candidate candidate' : PathCandidate) : Prop where
  routeExists : candidate.routeExists = candidate'.routeExists
  traffic : candidate.traffic = candidate'.traffic
  sgEgress : candidate.source.securityGroupRules.filter (fun rule => rule.direction = .egress) =
    candidate'.source.securityGroupRules.filter (fun rule => rule.direction = .egress)
  naclEgress : candidate.source.naclRules.filter (fun rule => rule.direction = .egress) =
    candidate'.source.naclRules.filter (fun rule => rule.direction = .egress)
  naclIngress : candidate.destination.naclRules.filter (fun rule => rule.direction = .ingress) =
    candidate'.destination.naclRules.filter (fun rule => rule.direction = .ingress)
  sgIngress : candidate.destination.securityGroupRules.filter (fun rule => rule.direction = .ingress) =
    candidate'.destination.securityGroupRules.filter (fun rule => rule.direction = .ingress)
  sourceGroups : candidate.source.peerSecurityGroupIds = candidate'.source.peerSecurityGroupIds
  destinationGroups :
    candidate.destination.peerSecurityGroupIds = candidate'.destination.peerSecurityGroupIds

/-- A security group layer's truth value comes from one direction's rules and the peer's groups. -/
private theorem sg_kind_congr (owner owner' : String) {rules rules' : List SgRule}
    {direction : Direction} (traffic : Traffic) (peer : Sg.PeerIdentity)
    (same : rules.filter (fun rule => rule.direction = direction) =
      rules'.filter fun rule => rule.direction = direction) :
    (Sg.evaluate owner rules direction traffic peer).kind =
      (Sg.evaluate owner' rules' direction traffic peer).kind := by
  rw [Sg.evaluate_kind, Sg.evaluate_kind, Sg.ofDirection, Sg.ofDirection, same]

/-- So does a network ACL layer's. -/
private theorem nacl_kind_congr (owner owner' : String) {rules rules' : List NaclRule}
    {direction : Direction} (traffic : Traffic)
    (same : rules.filter (fun rule => rule.direction = direction) =
      rules'.filter fun rule => rule.direction = direction) :
    (Nacl.evaluate owner rules direction traffic).kind =
      (Nacl.evaluate owner' rules' direction traffic).kind := by
  rw [Nacl.evaluate_kind_congr owner owner', Nacl.evaluate, Nacl.evaluate, same]

private theorem SameGoverning.kind {candidate candidate' : PathCandidate}
    (same : SameGoverning candidate candidate') (layer : EvaluationLayer) :
    (layerVerdict candidate layer).kind = (layerVerdict candidate' layer).kind := by
  cases layer with
  | sgEgress =>
    rw [layerVerdict, layerVerdict, same.traffic, same.destinationGroups]
    exact sg_kind_congr _ _ _ _ same.sgEgress
  | naclEgress =>
    rw [layerVerdict, layerVerdict, same.traffic]
    exact nacl_kind_congr _ _ _ same.naclEgress
  | naclIngress =>
    rw [layerVerdict, layerVerdict, same.traffic]
    exact nacl_kind_congr _ _ _ same.naclIngress
  | sgIngress =>
    rw [layerVerdict, layerVerdict, same.traffic, same.sourceGroups]
    exact sg_kind_congr _ _ _ _ same.sgIngress

private theorem SameGoverning.reachability (computedAt computedAt' : String)
    {candidate candidate' : PathCandidate} (same : SameGoverning candidate candidate') :
    (evaluateCandidate computedAt candidate).reachability =
      (evaluateCandidate computedAt' candidate').reachability := by
  cases routed : candidate.routeExists with
  | false =>
    rw [reachability_no_route computedAt candidate routed,
      reachability_no_route computedAt' candidate' (same.routeExists.symm.trans routed)]
  | true =>
    rw [reachability_eq computedAt candidate routed,
      reachability_eq computedAt' candidate' (same.routeExists.symm.trans routed)]
    simp only [same.kind]

private theorem severity_eq (computedAt : String) (candidate : PathCandidate) :
    (evaluateCandidate computedAt candidate).severity =
      severityFor (evaluateCandidate computedAt candidate).reachability := by
  cases routed : candidate.routeExists with
  | false =>
    rw [evaluateCandidate_no_route computedAt candidate routed]
    rfl
  | true =>
    rw [evaluateCandidate_eq computedAt candidate routed]
    rfl

/-- Candidates that agree on what governs the flow get the same verdict and severity. A security
group layer never looks at its own endpoint's memberships. -/
theorem verdict_of_sameGoverning {candidate candidate' : PathCandidate}
    (same : SameGoverning candidate candidate') (computedAt computedAt' : String) :
    (evaluateCandidate computedAt candidate).reachability =
        (evaluateCandidate computedAt' candidate').reachability ∧
      (evaluateCandidate computedAt candidate).severity =
        (evaluateCandidate computedAt' candidate').severity ∧
      ∀ own : List String,
        layerVerdict { candidate with source.peerSecurityGroupIds := own } .sgEgress =
            layerVerdict candidate .sgEgress ∧
          layerVerdict { candidate with destination.peerSecurityGroupIds := own } .sgIngress =
            layerVerdict candidate .sgIngress := by
  have outcome := same.reachability computedAt computedAt'
  refine ⟨outcome, ?_, fun own => ⟨rfl, rfl⟩⟩
  rw [severity_eq, severity_eq, outcome]

/-- A routed path on which every rule that governs it allows everything. -/
def openPath (sourceExtra : List SgRule) (sourceId boundary : String) : PathCandidate where
  source := ⟨sourceId, ["sg-a"], sourceExtra ++ [⟨.egress, "-1", none, .cidr "0.0.0.0/0", true⟩],
    "subnet-" ++ sourceId, [⟨100, .egress, "-1", none, "0.0.0.0/0", .allow⟩]⟩
  destination := ⟨"eni-b", ["sg-b"], [⟨.ingress, "-1", none, .securityGroupRef "sg-a", true⟩],
    "subnet-b", [⟨100, .ingress, "-1", none, "0.0.0.0/0", .allow⟩]⟩
  routeExists := true
  traffic := ⟨.all, none, .v4 0x0A00000A⟩
  destinationBoundary := boundary

/-- Ingress rules of the source, its ids and the boundary do not matter. -/
theorem verdict_openPath :
    (evaluateCandidate "" (openPath [] "eni-a" "boundary-1")).reachability =
        (evaluateCandidate "" (openPath [⟨.ingress, "-1", none, .securityGroupRef "sg-x", false⟩] "eni-c"
          "boundary-2")).reachability ∧
      (evaluateCandidate "" (openPath [] "eni-a" "boundary-1")).severity =
        (evaluateCandidate "" (openPath [⟨.ingress, "-1", none, .securityGroupRef "sg-x", false⟩] "eni-c"
          "boundary-2")).severity := by
  have same : SameGoverning (openPath [] "eni-a" "boundary-1")
      (openPath [⟨.ingress, "-1", none, .securityGroupRef "sg-x", false⟩] "eni-c" "boundary-2") :=
    ⟨rfl, rfl, rfl, rfl, rfl, rfl, rfl, rfl⟩
  obtain ⟨reachability, severity, _⟩ := verdict_of_sameGoverning same "" ""
  exact ⟨reachability, severity⟩

end NetHound.Soundness
