import NetHound.Domain.Rule
import NetHound.Net.IpAddr
import NetHound.ToMathlib.Kleene

/-! # Traffic, verdicts and the shared rule matchers

The types and matchers of `evaluate/mod.rs` that both rule evaluators use. `ruleCovers` is the
protocol and port half of a match, which the two evaluators each write out; under all-protocol
traffic only the `-1` sentinel covers, and the sentinel covers every traffic.
-/

namespace NetHound.Evaluate

open Domain Net

/-- Protocol a traffic value carries; ICMP carries its own type and code. -/
inductive Protocol where
  | tcp
  | udp
  | icmp (icmpType code : UInt8)
  | all
deriving DecidableEq, Repr

inductive EvaluationError where
  | unsupportedProtocol (value : ℤ)
deriving DecidableEq, Repr

/-- `TryFrom<i32>`: protocol numbers that carry no payload. -/
def Protocol.tryFrom (value : ℤ) : Except EvaluationError Protocol :=
  match value with
  | -1 => .ok .all
  | 6 => .ok .tcp
  | 17 => .ok .udp
  | other => .error (.unsupportedProtocol other)

/-- One concrete flow. -/
structure Traffic where
  protocol : Protocol
  port : Option UInt16
  peerAddress : IpAddr
deriving DecidableEq, Repr

/-- Identifies the rule behind a verdict. -/
inductive RuleRef where
  | securityGroup (securityGroupId : String) (ruleIndex : ℕ)
  | networkAcl (networkAclId : String) (ruleNumber : UInt16)
deriving DecidableEq, Repr

inductive DenyReason where
  | noMatchingRule
  | explicitDeny (matchedBy : RuleRef)
deriving DecidableEq, Repr

inductive IndeterminateReason where
  | unresolvedReference (securityGroupId : String)
deriving DecidableEq, Repr

/-- The three-state result of a layer. -/
inductive Verdict where
  | allowed (matchedBy : RuleRef)
  | denied (reason : DenyReason)
  | indeterminate (reason : IndeterminateReason)
deriving DecidableEq, Repr

/-- The truth value a verdict carries, without its evidence. -/
def Verdict.kind : Verdict → Kleene
  | .allowed _ => .yes
  | .denied _ => .no
  | .indeterminate _ => .unknown

def Verdict.isAllowed : Verdict → Bool
  | .allowed _ => true
  | _ => false

theorem Verdict.kind_eq_yes_iff {verdict : Verdict} :
    verdict.kind = .yes ↔ ∃ matchedBy, verdict = .allowed matchedBy := by
  cases verdict <;> simp [Verdict.kind]

theorem Verdict.kind_eq_no_iff {verdict : Verdict} :
    verdict.kind = .no ↔ ∃ reason, verdict = .denied reason := by
  cases verdict <;> simp [Verdict.kind]

theorem Verdict.kind_eq_unknown_iff {verdict : Verdict} :
    verdict.kind = .unknown ↔ ∃ reason, verdict = .indeterminate reason := by
  cases verdict <;> simp [Verdict.kind]

/-- Whether a rule's raw protocol string matches traffic. -/
def ruleProtocolMatches (ruleProtocol : String) (trafficProtocol : Protocol) : Bool :=
  match ruleProtocol with
  | "-1" => true
  | "tcp" => match trafficProtocol with
    | .tcp => true
    | _ => false
  | "udp" => match trafficProtocol with
    | .udp => true
    | _ => false
  | "icmp" | "icmpv6" => match trafficProtocol with
    | .icmp _ _ => true
    | _ => false
  | _ => false

def portMatches (rulePortRange : Option PortRange) (trafficPort : Option UInt16) : Bool :=
  match rulePortRange, trafficPort with
  | none, _ => true
  | some range, some port => decide (range.fromPort ≤ port ∧ port ≤ range.toPort)
  | some _, none => false

/-- The mask test for one address width; a zero prefix length never shifts. -/
def maskedEq (width prefixLen : ℕ) (network address : BitVec width) : Bool :=
  let mask := if prefixLen = 0 then 0 else BitVec.allOnes width <<< (width - prefixLen)
  network &&& mask == address &&& mask

/-- Whether `cidr` contains `address`; `none` when it does not parse. -/
def cidrContains (cidr : String) (address : IpAddr) : Option Bool := do
  let (networkStr, prefixStr) ← splitOnce '/' cidr
  let network ← parseIpAddr networkStr
  let prefixLen ← parseU32 prefixStr
  match network, address with
  | .v4 network, .v4 address =>
      if prefixLen > 32 then none else some (maskedEq 32 prefixLen network address)
  | .v6 network, .v6 address =>
      if prefixLen > 128 then none else some (maskedEq 128 prefixLen network address)
  | _, _ => some false

/-- A parsed CIDR that contains the address. -/
def cidrAdmits (cidr : String) (address : IpAddr) : Bool := cidrContains cidr address == some true

/-- The protocol and port half of a rule's match. -/
def ruleCovers (protocol : String) (portRange : Option PortRange) (traffic : Traffic) : Bool :=
  ruleProtocolMatches protocol traffic.protocol &&
    (protocol == "-1" || portMatches portRange traffic.port)

/-- Under all-protocol traffic only the sentinel matches. -/
theorem ruleProtocolMatches_all (ruleProtocol : String) :
    ruleProtocolMatches ruleProtocol .all = (ruleProtocol == "-1") := by
  unfold ruleProtocolMatches
  split <;> simp_all

/-- The sentinel covers every traffic, whatever range the rule carries. -/
@[simp] theorem ruleCovers_sentinel (portRange : Option PortRange) (traffic : Traffic) :
    ruleCovers "-1" portRange traffic = true := by
  simp [ruleCovers, ruleProtocolMatches]

/-- Without a protocol and a port to check, coverage is carrying the sentinel. -/
theorem ruleCovers_all (protocol : String) (portRange : Option PortRange) (peerAddress : IpAddr)
    (port : Option UInt16) :
    ruleCovers protocol portRange ⟨.all, port, peerAddress⟩ = (protocol == "-1") := by
  unfold ruleCovers
  rw [ruleProtocolMatches_all]
  cases protocol == "-1" <;> rfl

private theorem maskedEq_full {width : ℕ} (positive : 0 < width) (network address : BitVec width) :
    maskedEq width width network address = decide (network = address) := by
  have nonzero : width ≠ 0 := by omega
  simp only [maskedEq, nonzero, ↓reduceIte, Nat.sub_self, BitVec.shiftLeft_zero, BitVec.and_allOnes]
  exact Bool.beq_eq_decide_eq network address

/-- The single-address CIDR suffix of a family. -/
def hostSuffix : IpAddr → String
  | .v4 _ => "32"
  | .v6 _ => "128"

/-- A host CIDR written from an address's own text contains that address and no other. -/
theorem cidrAdmits_host {text : String} {host : IpAddr} (parsed : parseIpAddr text = some host)
    (address : IpAddr) :
    cidrAdmits (text ++ "/" ++ hostSuffix host) address = decide (host = address) := by
  have split : splitOnce '/' (text ++ "/" ++ hostSuffix host) = some (text, hostSuffix host) :=
    splitOnce_append (slash_notMem_of_parseIpAddr parsed) _
  have v4Length : parseU32 "32" = some 32 := by decide
  have v6Length : parseU32 "128" = some 128 := by decide
  simp only [cidrAdmits, cidrContains, split, bind, Option.bind_some, parsed]
  cases host <;> cases address <;> simp [hostSuffix, v4Length, v6Length, maskedEq_full]

end NetHound.Evaluate
