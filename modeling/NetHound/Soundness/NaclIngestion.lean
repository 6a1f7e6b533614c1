import NetHound.Evaluate.Nacl
import NetHound.Ingest.Nacl

/-! # First match over ingested network ACL entries

EC2 numbers a network ACL entry's protocol. `lowestEntry` is the entry EC2 lets decide a flow, with
the numbers `Protocol::try_from` knows. The mapper passes the number through as text and the
evaluator knows names only, so an entry coded `"6"` or `"17"` never matches: ingestion is right
about a flow exactly when no such entry decides it, or what is left without them says the same.
-/

namespace NetHound.Soundness

open Domain Net Ingest Evaluate

/-! ## The entry that decides a flow -/

def coversProtocol (entry : Sdk.NetworkAclEntry) (protocol : Protocol) : Bool :=
  match entry.protocol.getD "-1" with
  | "-1" => true
  | "6" | "tcp" => protocol == .tcp
  | "17" | "udp" => protocol == .udp
  | _ => false

def coversPort (entry : Sdk.NetworkAclEntry) (port : UInt16) : Bool :=
  if entry.protocol.getD "-1" = "-1" then true
  else
    match entry.portRange.bind (·.fromPort), entry.portRange.bind (·.toPort) with
    | some low, some high => decide (low ≤ port.toNat ∧ (port.toNat : ℤ) ≤ high)
    | _, _ => false

def coversAddress (entry : Sdk.NetworkAclEntry) (address : IpAddr) : Bool :=
  (entry.cidrBlock.or entry.ipv6CidrBlock).any fun cidr => cidrAdmits cidr address

/-- An entry of the direction whose protocol, ports and CIDR cover the flow. -/
def covers (direction : Direction) (protocol : Protocol) (port : UInt16) (peerAddress : IpAddr)
    (entry : Sdk.NetworkAclEntry) : Bool :=
  entry.egress == some (decide (direction = .egress)) && coversProtocol entry protocol &&
    coversPort entry port && coversAddress entry peerAddress

/-- The covering entry of lowest number, earliest on ties. -/
def lowestEntry (entries : List Sdk.NetworkAclEntry) (direction : Direction) (protocol : Protocol)
    (port : UInt16) (peerAddress : IpAddr) : Option Sdk.NetworkAclEntry :=
  entries.leastMatch (fun entry => (entry.ruleNumber.getD 0).toNat)
    (covers direction protocol port peerAddress)

/-- A transport protocol given by number. -/
def numberCoded (entry : Sdk.NetworkAclEntry) : Bool :=
  entry.protocol == some "6" || entry.protocol == some "17"

/-- A tcp or udp entry has a port range within `u16`. -/
def PortsGiven (entry : Sdk.NetworkAclEntry) : Prop :=
  entry.protocol.getD "-1" ∈ ["6", "tcp", "17", "udp"] → ∃ range : PortRange,
    entry.portRange = some ⟨some (range.fromPort.toNat : ℤ), some (range.toPort.toNat : ℤ)⟩

def entryAction (entry : Sdk.NetworkAclEntry) : Option Action :=
  match entry.ruleAction with
  | some .allow => some .allow
  | some .deny => some .deny
  | _ => none

/-- The action a verdict carries out; none for an implicit deny. -/
def verdictAction : Verdict → Option Action
  | .allowed _ => some .allow
  | .denied (.explicitDeny _) => some .deny
  | .denied .noMatchingRule => none
  | .indeterminate _ => none

def evaluateNacl : Direction → String → List NaclRule → Traffic → Verdict
  | .egress => Nacl.evaluateNaclEgress
  | .ingress => Nacl.evaluateNaclIngress

/-! ## What the mapped rules decide -/

theorem verdictAction_evaluateNacl (direction : Direction) (networkAclId : String)
    (rules : List NaclRule) (traffic : Traffic) :
    verdictAction (evaluateNacl direction networkAclId rules traffic) =
      (Nacl.deciding rules direction traffic).map NaclRule.action := by
  have evaluated : evaluateNacl direction networkAclId rules traffic =
      Nacl.verdictOf networkAclId (Nacl.deciding rules direction traffic) := by
    rw [← Nacl.evaluate_eq]
    cases direction <;> rfl
  rw [evaluated]
  rcases Nacl.deciding rules direction traffic with _ | rule
  · rfl
  · rcases action : rule.action with _ | _ <;> simp [Nacl.verdictOf, verdictAction, action]

section Mapped

variable {networkAclId : String} {entry : Sdk.NetworkAclEntry} {rule : NaclRule}
  {direction : Direction} {protocol : Protocol} {port : UInt16} {peerAddress : IpAddr}

private theorem numberCoded_eq (entry : Sdk.NetworkAclEntry) :
    numberCoded entry = (entry.protocol.getD "-1" == "6" || entry.protocol.getD "-1" == "17") := by
  rcases protocol : entry.protocol with _ | protocol' <;> simp [numberCoded, protocol]

private theorem coversPort_of_range {range : PortRange} (named : entry.protocol.getD "-1" ≠ "-1")
    (given : entry.portRange = some ⟨some (range.fromPort.toNat : ℤ), some (range.toPort.toNat : ℤ)⟩) :
    coversPort entry port = portMatches (some range) (some port) := by
  rw [coversPort, if_neg named, given]
  change decide ((range.fromPort.toNat : ℤ) ≤ port.toNat ∧ (port.toNat : ℤ) ≤ range.toPort.toNat) = _
  rw [portMatches, decide_eq_decide, UInt16.le_iff_toNat_le, UInt16.le_iff_toNat_le]
  omega

/-- Coverage of a mapped entry by what its protocol text is. -/
private theorem ruleCovers_of_mapEntry (mapped : Ingest.Nacl.mapEntry networkAclId entry = .ok rule)
    (portsGiven : PortsGiven entry) (transport : protocol = .tcp ∨ protocol = .udp) :
    ruleCovers rule.protocol rule.portRange ⟨protocol, some port, peerAddress⟩ =
      (!numberCoded entry && (coversProtocol entry protocol && coversPort entry port)) := by
  obtain ⟨_, sameProtocol, built, _⟩ := Ingest.Nacl.mapEntry_eq_ok_iff.mp mapped
  have ranged (coded : entry.protocol.getD "-1" ∈ ["6", "tcp", "17", "udp"]) :
      coversPort entry port = portMatches rule.portRange (some port) := by
    have named : entry.protocol.getD "-1" ≠ "-1" := fun sentinel => by
      rw [sentinel] at coded
      exact absurd coded (by decide)
    obtain ⟨range, given⟩ := portsGiven coded
    have stored := buildPortRange_of_ordered networkAclId "port_range" named range
    rw [given] at built
    change buildPortRange _ _ _ (some _) (some _) = _ at built
    rw [stored] at built
    rw [coversPort_of_range named given, Except.ok.inj built]
  rw [numberCoded_eq, ruleCovers, sameProtocol]
  by_cases sentinel : entry.protocol.getD "-1" = "-1"
  · have free : coversPort entry port = true := by rw [coversPort, if_pos sentinel]
    rw [coversProtocol, sentinel, free]
    rfl
  · by_cases coded : entry.protocol.getD "-1" ∈ ["6", "tcp", "17", "udp"]
    · rw [ranged coded, coversProtocol]
      simp only [List.mem_cons, List.not_mem_nil, or_false] at coded
      rcases coded with text | text | text | text <;> rw [text] <;>
        rcases transport with rfl | rfl <;> rfl
    · have protocolMissed : coversProtocol entry protocol = false := by
        unfold coversProtocol
        split <;> simp_all
      have ruleMissed : ruleProtocolMatches (entry.protocol.getD "-1") protocol = false := by
        unfold ruleProtocolMatches
        rcases transport with rfl | rfl <;> split <;> simp_all
      rw [protocolMissed, ruleMissed, Bool.false_and, Bool.false_and, Bool.and_false]

private theorem matches_of_mapEntry (mapped : Ingest.Nacl.mapEntry networkAclId entry = .ok rule)
    (portsGiven : PortsGiven entry) (transport : protocol = .tcp ∨ protocol = .udp) :
    (decide (rule.direction = direction) && Nacl.ruleMatches rule ⟨protocol, some port, peerAddress⟩) =
      (!numberCoded entry && covers direction protocol port peerAddress entry) := by
  obtain ⟨_, _, _, cidr, egress, _⟩ := Ingest.Nacl.mapEntry_eq_ok_iff.mp mapped
  have sameDirection : (entry.egress == some (decide (direction = .egress))) =
      decide (rule.direction = direction) := by
    rw [Ingest.Nacl.mapEntryDirection_eq_ok_iff.mp egress]
    cases rule.direction <;> cases direction <;> decide
  have address : coversAddress entry peerAddress = cidrAdmits rule.cidr peerAddress := by
    rw [coversAddress, cidr]
    rfl
  rw [Nacl.ruleMatches_eq, ruleCovers_of_mapEntry mapped portsGiven transport, covers, sameDirection, address]
  cases decide (rule.direction = direction) <;> cases numberCoded entry <;>
    cases coversProtocol entry protocol <;> simp

private theorem action_of_mapEntry (mapped : Ingest.Nacl.mapEntry networkAclId entry = .ok rule) :
    entryAction entry = some rule.action := by
  obtain ⟨_, _, _, _, _, action⟩ := Ingest.Nacl.mapEntry_eq_ok_iff.mp mapped
  rw [entryAction, Ingest.Nacl.mapEntryAction_eq_ok_iff.mp action]
  cases rule.action <;> rfl

private theorem number_of_mapEntry (mapped : Ingest.Nacl.mapEntry networkAclId entry = .ok rule) :
    (entry.ruleNumber.getD 0).toNat = Nacl.sortKey rule := by
  obtain ⟨number, _⟩ := Ingest.Nacl.mapEntry_eq_ok_iff.mp mapped
  rw [Ingest.Nacl.mapRuleNumber_eq_ok_iff.mp number]
  rfl

private theorem map_eq_bind_of_rel {α β γ : Type} {R : α → β → Prop} {x : Option α} {y : Option β}
    {f : α → Option γ} {g : β → γ} (related : Option.Rel R x y) (agree : ∀ a b, R a b → f a = some (g b)) :
    y.map g = x.bind f := by
  cases related with
  | none => rfl
  | some each => exact (agree _ _ each).symm

/-- The mapped rules decide as the entries not coded by number do. -/
private theorem deciding_mapped {acl : Sdk.NetworkAcl} {rules : List NaclRule}
    (mapped : Ingest.Nacl.mapNetworkAclRules acl = .ok rules)
    (portsGiven : ∀ entry ∈ acl.entries, PortsGiven entry) (transport : protocol = .tcp ∨ protocol = .udp) :
    (Nacl.deciding rules direction ⟨protocol, some port, peerAddress⟩).map NaclRule.action =
      (lowestEntry (acl.entries.filter fun entry => !numberCoded entry) direction protocol port
        peerAddress).bind entryAction := by
  obtain ⟨networkAclId, entryRules, _, entriesRun, rfl⟩ := Ingest.Nacl.mapNetworkAclRules_eq_ok_iff.mp mapped
  have related : List.Forall₂ (fun entry rule =>
      entry ∈ acl.entries ∧ Ingest.Nacl.mapEntry networkAclId entry = .ok rule) acl.entries entryRules :=
    (List.forall₂_and_left acl.entries entryRules).mpr
      ⟨fun _ member => member, List.mapM_eq_ok_iff.mp entriesRun⟩
  have selected := List.leastMatch_forall₂ (fun entry => (entry.ruleNumber.getD 0).toNat) Nacl.sortKey
    (fun entry => !numberCoded entry && covers direction protocol port peerAddress entry)
    (fun rule => decide (rule.direction = direction) &&
      Nacl.ruleMatches rule ⟨protocol, some port, peerAddress⟩) related
    fun entry rule each => ⟨number_of_mapEntry each.2,
      (matches_of_mapEntry each.2 (portsGiven entry each.1) transport).symm⟩
  rw [Nacl.deciding, List.leastMatch_insertionSort, lowestEntry, List.leastMatch_filter]
  exact map_eq_bind_of_rel selected fun entry rule each => action_of_mapEntry each.2

end Mapped

/-- Ingested rules give a flow the action of its lowest covering entry exactly when that entry is
not coded by number, or the lowest covering one that is not has the same action. -/
theorem evaluateNacl_mapped_iff {acl : Sdk.NetworkAcl} {rules : List NaclRule}
    (mapped : Ingest.Nacl.mapNetworkAclRules acl = .ok rules)
    (portsGiven : ∀ entry ∈ acl.entries, PortsGiven entry) (networkAclId : String) (direction : Direction)
    {protocol : Protocol} (transport : protocol = .tcp ∨ protocol = .udp) (port : UInt16)
    (peerAddress : IpAddr) :
    verdictAction (evaluateNacl direction networkAclId rules ⟨protocol, some port, peerAddress⟩) =
        (lowestEntry acl.entries direction protocol port peerAddress).bind entryAction ↔
      ∀ entry, lowestEntry acl.entries direction protocol port peerAddress = some entry →
        numberCoded entry = true →
          ∃ entry', lowestEntry (acl.entries.filter fun entry => !numberCoded entry) direction protocol
              port peerAddress = some entry' ∧ entryAction entry' = entryAction entry := by
  rw [verdictAction_evaluateNacl, deciding_mapped mapped portsGiven transport]
  have acts {entry : Sdk.NetworkAclEntry} (member : entry ∈ acl.entries) : entryAction entry ≠ none := by
    obtain ⟨_, _, _, toRule⟩ := Ingest.Nacl.mem_mapNetworkAclRules mapped
    obtain ⟨rule, _, each⟩ := toRule entry member
    rw [action_of_mapEntry each]
    exact Option.some_ne_none _
  have filtered : lowestEntry (acl.entries.filter fun entry => !numberCoded entry) direction protocol
      port peerAddress = acl.entries.leastMatch (fun entry => (entry.ruleNumber.getD 0).toNat)
        fun entry => !numberCoded entry && covers direction protocol port peerAddress entry :=
    List.leastMatch_filter _ _ _ _
  rw [filtered]
  rcases lowest : lowestEntry acl.entries direction protocol port peerAddress with _ | entry
  · have uncovered := List.leastMatch_eq_none_iff.mp lowest
    rw [List.leastMatch_eq_none_iff.mpr fun entry member => by rw [uncovered entry member, Bool.and_false]]
    exact iff_of_true rfl fun _ found => nomatch found
  · by_cases coded : numberCoded entry = true
    · have member := (List.leastMatch_some lowest).1
      constructor
      · rintro same _ found _
        cases found
        rcases rest : acl.entries.leastMatch (fun entry => (entry.ruleNumber.getD 0).toNat)
          (fun entry => !numberCoded entry && covers direction protocol port peerAddress entry)
            with _ | entry'
        · rw [rest] at same
          exact absurd same.symm (acts member)
        · rw [rest] at same
          exact ⟨entry', rest, same⟩
      · intro decided
        obtain ⟨entry', found, same⟩ := decided entry rfl coded
        rw [found]
        exact same
    · have kept : (!numberCoded entry) = true := by simpa using coded
      rw [List.leastMatch_and_of_some lowest kept]
      refine iff_of_true rfl fun _ found isCoded => ?_
      cases found
      exact absurd isCoded coded

private def blockSsh (protocol : String) : Sdk.NetworkAclEntry :=
  { cidrBlock := some "0.0.0.0/0"
    egress := some false
    portRange := some ⟨some 22, some 22⟩
    protocol := some protocol
    ruleAction := some .deny
    ruleNumber := some 100 }

private def allowAll : Sdk.NetworkAclEntry :=
  { cidrBlock := some "0.0.0.0/0"
    egress := some false
    protocol := some "-1"
    ruleAction := some .allow
    ruleNumber := some 200 }

private def blockSshRule (protocol : String) : NaclRule :=
  ⟨100, .ingress, protocol, some (.single 22), "0.0.0.0/0", .deny⟩

private def allowAllRule : NaclRule := ⟨200, .ingress, "-1", none, "0.0.0.0/0", .allow⟩

private def aclWith (protocol : String) : Sdk.NetworkAcl :=
  { networkAclId := some "acl-1", entries := [blockSsh protocol, allowAll] }

private theorem portsGiven_aclWith (protocol : String) :
    ∀ entry ∈ (aclWith protocol).entries, PortsGiven entry := by
  intro entry member
  rcases List.mem_cons.mp member with rfl | member
  · exact fun _ => ⟨.single 22, rfl⟩
  · obtain rfl := List.mem_singleton.mp member
    exact fun coded => absurd coded (by decide)

private def loopback : IpAddr := .v4 0x7f000001

theorem evaluateNacl_blockSsh_byName :
    verdictAction (evaluateNacl .ingress "acl-1" [blockSshRule "tcp", allowAllRule]
      ⟨.tcp, some 22, loopback⟩) =
      some .deny := by
  have mapped : Ingest.Nacl.mapNetworkAclRules (aclWith "tcp") = .ok [blockSshRule "tcp", allowAllRule] := by
    decide
  refine (evaluateNacl_mapped_iff mapped (portsGiven_aclWith "tcp") "acl-1" .ingress (Or.inl rfl) 22
    loopback).mpr fun entry lowest coded => ?_
  cases lowest
  exact absurd coded (by decide)

/-- A numbered deny is skipped and the later allow decides. -/
theorem evaluateNacl_blockSsh_byNumber :
    ¬ ∀ (acl : Sdk.NetworkAcl) (rules : List NaclRule), Ingest.Nacl.mapNetworkAclRules acl = .ok rules →
      (∀ entry ∈ acl.entries, PortsGiven entry) →
        ∀ (networkAclId : String) (direction : Direction) (protocol : Protocol),
          protocol = .tcp ∨ protocol = .udp → ∀ (port : UInt16) (peerAddress : IpAddr),
            verdictAction (evaluateNacl direction networkAclId rules ⟨protocol, some port, peerAddress⟩) =
              (lowestEntry acl.entries direction protocol port peerAddress).bind entryAction := by
  intro faithful
  have allowed := faithful (aclWith "6") [blockSshRule "6", allowAllRule] (by decide)
    (portsGiven_aclWith "6") "acl-1" .ingress .tcp (Or.inl rfl) 22 loopback
  exact absurd allowed (by decide)

end NetHound.Soundness
