import NetHound.Evaluate.Nacl
import NetHound.Evaluate.Sg
import NetHound.Ingest.Nacl
import NetHound.Ingest.Sg

/-! # ICMP types and codes

EC2 restricts an ICMP permission by a type and a code, handed out in the two port fields, and a network
ACL entry by fields of its own. The mapper keeps the first pair as a port range and does not read the
second; ICMP traffic carries its type and code apart from the port, and has no port. No comparison of types
takes place: a restricted permission matches no ICMP traffic, and an entry matches all of it or none. So
both mean what they say of every message only where nothing is restricted.
-/

namespace NetHound.Soundness

open Domain Net Ingest Evaluate

/-- A restriction names a message: each half is the sentinel or the message's own. -/
def NamesMessage (icmpType code : ℤ) (traffic : UInt8 × UInt8) : Prop :=
  (icmpType = -1 ∨ icmpType = traffic.1.toNat) ∧ (code = -1 ∨ code = traffic.2.toNat)

instance (icmpType code : ℤ) (traffic : UInt8 × UInt8) : Decidable (NamesMessage icmpType code traffic) :=
  inferInstanceAs (Decidable (_ ∧ _))

/-- One half of a restriction as EC2 hands it out. -/
def IcmpHalf (half : ℤ) : Prop := half = -1 ∨ (0 ≤ half ∧ half ≤ 255)

instance (half : ℤ) : Decidable (IcmpHalf half) := inferInstanceAs (Decidable (_ ∨ _))

/-- Where two bounds survive the sentinel, the port is given and lies between them. -/
def PortsOpen (fromPort toPort : Option ℤ) (port : Option UInt16) : Prop :=
  ∀ fromBound toBound low high, fromPort = some fromBound → toPort = some toBound →
    effectiveBounds fromBound toBound = some (low, high) →
      ∃ own, port = some own ∧ low ≤ own.toNat ∧ own.toNat ≤ high

/-- Traffic without a port passes two bounds only if both are the sentinel. -/
theorem portsOpen_portless_iff (fromBound toBound : ℤ) :
    PortsOpen (some fromBound) (some toBound) none ↔ fromBound < 0 ∧ toBound < 0 := by
  rw [← effectiveBounds_eq_none_iff]
  constructor
  · intro isOpen
    cases effective : effectiveBounds fromBound toBound with
    | none => rfl
    | some bounds =>
      obtain ⟨own, absent, -⟩ := isOpen _ _ bounds.1 bounds.2 rfl rfl effective
      cases absent
  · intro free fromBound' toBound' low high fromSame toSame effective
    cases fromSame
    cases toSame
    rw [free] at effective
    cases effective

/-- A built port range lets a port through exactly as its bounds do. -/
theorem portMatches_of_buildPortRange {resourceId field protocol : String} {fromPort toPort : Option ℤ}
    {portRange : Option PortRange} (named : protocol ≠ "-1")
    (built : buildPortRange resourceId field protocol fromPort toPort = .ok portRange)
    (port : Option UInt16) :
    portMatches portRange port = true ↔ PortsOpen fromPort toPort port := by
  by_cases bounded : Bounded fromPort toPort
  · obtain ⟨fromBound, toBound, ⟨low, high⟩, rfl, rfl, effective⟩ := bounded_iff.mp bounded
    obtain ⟨range, rfl, rfl, rfl⟩ :=
      (buildPortRange_of_effective resourceId field named effective).mp built
    constructor
    · intro passed fromBound' toBound' low high fromSame toSame effective'
      cases fromSame
      cases toSame
      rw [effective] at effective'
      cases effective'
      cases port with
      | none => cases passed
      | some own =>
        have between := of_decide_eq_true passed
        refine ⟨own, rfl, ?_, ?_⟩
        · exact_mod_cast UInt16.le_iff_toNat_le.mp between.1
        · exact_mod_cast UInt16.le_iff_toNat_le.mp between.2
    · intro isOpen
      obtain ⟨own, rfl, above, below⟩ := isOpen _ _ _ _ rfl rfl effective
      apply decide_eq_true
      constructor
      · apply UInt16.le_iff_toNat_le.mpr
        omega
      · apply UInt16.le_iff_toNat_le.mpr
        omega
  · rw [buildPortRange_of_unbounded resourceId field (.inr bounded)] at built
    cases built
    refine iff_of_true rfl ?_
    intro fromBound toBound low high fromSome toSome effective
    exact absurd (bounded_iff.mpr ⟨fromBound, toBound, _, fromSome, toSome, effective⟩) bounded

/-- A mapped rule covers ICMP traffic exactly where its bounds let the port through. -/
private theorem ruleCovers_icmp {resourceId field protocol : String} {fromPort toPort : Option ℤ}
    {portRange : Option PortRange} (icmp : protocol = "icmp" ∨ protocol = "icmpv6")
    (built : buildPortRange resourceId field protocol fromPort toPort = .ok portRange)
    (icmpType code : UInt8) (port : Option UInt16) (address : IpAddr) :
    ruleCovers protocol portRange ⟨.icmp icmpType code, port, address⟩ = true ↔
      PortsOpen fromPort toPort port := by
  have named : protocol ≠ "-1" := by
    rcases icmp with rfl | rfl <;> decide
  rw [← portMatches_of_buildPortRange named built]
  rcases icmp with rfl | rfl <;> simp [ruleCovers, ruleProtocolMatches]

/-! ## The two kinds of rule -/

/-- A CIDR rule mapped from a permission that restricts ICMP to a type and a code. -/
structure PermissionRule (icmpType code : ℤ) (permission : Sdk.IpPermission) (cidr : String)
    (rule : SgRule) : Prop where
  protocol : permission.ipProtocol = some "icmp" ∨ permission.ipProtocol = some "icmpv6"
  fromPort : permission.fromPort = some icmpType
  toPort : permission.toPort = some code
  mapped : ∃ groupId direction currentAccountId rules,
    Sg.mapPermission groupId permission direction currentAccountId = .ok rules ∧ rule ∈ rules
  target : rule.target = .cidr cidr

/-- A rule mapped from a network ACL entry that restricts ICMP, named or numbered, to a type and a
code. -/
structure EntryRule (icmpType code : ℤ) (entry : Sdk.NetworkAclEntry) (rule : NaclRule) : Prop where
  protocol : ∃ text ∈ ["icmp", "icmpv6", "1", "58"], entry.protocol = some text
  icmpTypeCode : entry.icmpTypeCode = some ⟨some code, some icmpType⟩
  mapped : ∃ networkAclId, Nacl.mapEntry networkAclId entry = .ok rule

/-- The entry names ICMP in words and gives no two ports, or two that are both negative. -/
def EntryOpen (entry : Sdk.NetworkAclEntry) : Prop :=
  (entry.protocol = some "icmp" ∨ entry.protocol = some "icmpv6") ∧
    ∀ range fromBound toBound, entry.portRange = some range → range.fromPort = some fromBound →
      range.toPort = some toBound → fromBound < 0 ∧ toBound < 0

/-- ICMP traffic has no port. -/
def icmpTraffic (message : UInt8 × UInt8) (address : IpAddr) : Traffic :=
  ⟨.icmp message.1 message.2, none, address⟩

/-! ## Messages -/

section Messages

variable {icmpType code : ℤ}

private theorem exists_half {half : ℤ} (known : IcmpHalf half) :
    ∃ value : UInt8, half = -1 ∨ half = value.toNat := by
  rcases known with any | ⟨above, below⟩
  · exact ⟨0, .inl any⟩
  · refine ⟨.ofNat half.toNat, .inr ?_⟩
    rw [UInt8.toNat_ofNat']
    omega

private theorem exists_other {half : ℤ} (restricted : half ≠ -1) :
    ∃ value : UInt8, ¬ (half = -1 ∨ half = value.toNat) := by
  by_cases zero : half = 0
  · exact ⟨1, by rw [zero]; decide⟩
  · exact ⟨0, fun named => named.elim restricted zero⟩

/-- Every restriction names some message. -/
theorem exists_namesMessage (typeHalf : IcmpHalf icmpType) (codeHalf : IcmpHalf code) :
    ∃ message, NamesMessage icmpType code message := by
  obtain ⟨type, ofType⟩ := exists_half typeHalf
  obtain ⟨own, ofCode⟩ := exists_half codeHalf
  exact ⟨(type, own), ofType, ofCode⟩

/-- Only where both halves are the sentinel are all messages named. -/
theorem forall_namesMessage_iff :
    (∀ message, NamesMessage icmpType code message) ↔ icmpType = -1 ∧ code = -1 := by
  constructor
  · intro all
    constructor
    · by_contra restricted
      obtain ⟨type, other⟩ := exists_other restricted
      exact other (all (type, 0)).1
    · by_contra restricted
      obtain ⟨own, other⟩ := exists_other restricted
      exact other (all (0, own)).2
  · exact fun both message => ⟨.inl both.1, .inl both.2⟩

end Messages

/-! ## Matching -/

section Matching

variable {icmpType code : ℤ} {address : IpAddr}

/-- A mapped permission matches by the port alone. -/
theorem PermissionRule.classifyRule_iff {permission : Sdk.IpPermission} {cidr : String} {rule : SgRule}
    (ofPermission : PermissionRule icmpType code permission cidr rule)
    (inside : cidrAdmits cidr address = true) (message : UInt8 × UInt8) (port : Option UInt16)
    (ruleIndex : ℕ) (securityGroupId : String) (peer : Sg.PeerIdentity) :
    (Sg.classifyRule rule ruleIndex securityGroupId ⟨.icmp message.1 message.2, port, address⟩ peer).kind =
        .yes ↔ PortsOpen (some icmpType) (some code) port := by
  obtain ⟨groupId, direction, currentAccountId, rules, mapped, member⟩ := ofPermission.mapped
  obtain ⟨-, portRange, built, rfl⟩ := Sg.mapPermission_eq_ok_iff.mp mapped
  obtain ⟨-, protocol, range⟩ := Sg.direction_of_mem_permissionRules member
  have icmp : permission.ipProtocol.getD "-1" = "icmp" ∨ permission.ipProtocol.getD "-1" = "icmpv6" := by
    rcases ofPermission.protocol with named | named
    · exact .inl (by rw [named]; rfl)
    · exact .inr (by rw [named]; rfl)
  rw [ofPermission.fromPort, ofPermission.toPort] at built
  rw [Sg.classifyRule_kind, Sg.ruleKind, ofPermission.target, protocol, range,
    ← ruleCovers_icmp icmp built message.1 message.2 port address]
  simp [inside]

/-- Without a port a mapped permission matches only where both numbers are the sentinel. -/
private theorem PermissionRule.portless_iff {permission : Sdk.IpPermission} {cidr : String} {rule : SgRule}
    (ofPermission : PermissionRule icmpType code permission cidr rule) (typeHalf : IcmpHalf icmpType)
    (codeHalf : IcmpHalf code) (inside : cidrAdmits cidr address = true) (message : UInt8 × UInt8)
    (ruleIndex : ℕ) (securityGroupId : String) (peer : Sg.PeerIdentity) :
    (Sg.classifyRule rule ruleIndex securityGroupId (icmpTraffic message address) peer).kind = .yes ↔
      icmpType = -1 ∧ code = -1 := by
  rw [icmpTraffic, ofPermission.classifyRule_iff inside, portsOpen_portless_iff]
  unfold IcmpHalf at typeHalf codeHalf
  omega

/-- Without a port a mapped entry matches every message or none. -/
private theorem EntryRule.portless_iff {entry : Sdk.NetworkAclEntry} {rule : NaclRule}
    (ofEntry : EntryRule icmpType code entry rule) (inside : cidrAdmits rule.cidr address = true)
    (message : UInt8 × UInt8) :
    Nacl.ruleMatches rule (icmpTraffic message address) = true ↔ EntryOpen entry := by
  obtain ⟨networkAclId, mapped⟩ := ofEntry.mapped
  obtain ⟨-, protocol, built, -⟩ := Nacl.mapEntry_eq_ok_iff.mp mapped
  obtain ⟨text, listed, named⟩ := ofEntry.protocol
  have ports : PortsOpen (entry.portRange.bind (·.fromPort)) (entry.portRange.bind (·.toPort)) none ↔
      ∀ range fromBound toBound, entry.portRange = some range → range.fromPort = some fromBound →
        range.toPort = some toBound → fromBound < 0 ∧ toBound < 0 := by
    constructor
    · intro isOpen range fromBound toBound given ofFrom ofTo
      rw [given, Option.bind_some, Option.bind_some, ofFrom, ofTo] at isOpen
      exact (portsOpen_portless_iff _ _).mp isOpen
    · intro negative fromBound toBound low high ofFrom ofTo effective
      obtain ⟨range, given, ofFrom⟩ := Option.bind_eq_some_iff.mp ofFrom
      rw [given, Option.bind_some] at ofTo
      rw [effectiveBounds_eq_none_iff.mpr (negative range fromBound toBound given ofFrom ofTo)] at effective
      cases effective
  rw [named, Option.getD_some] at protocol built
  rw [icmpTraffic, Nacl.ruleMatches_eq, inside, Bool.and_true, protocol, EntryOpen, named, Option.some_inj,
    Option.some_inj, ← ports]
  by_cases icmp : text = "icmp" ∨ text = "icmpv6"
  · rw [ruleCovers_icmp icmp built, and_iff_right icmp]
  · refine iff_of_false ?_ fun entryOpen => icmp entryOpen.1
    simp only [List.mem_cons, List.not_mem_nil, or_false] at listed
    rw [not_or] at icmp
    rcases listed with rfl | rfl | rfl | rfl
    · exact absurd rfl icmp.1
    · exact absurd rfl icmp.2
    · simp [ruleCovers, ruleProtocolMatches]
    · simp [ruleCovers, ruleProtocolMatches]

/-- A permission means what it says of a message exactly when it restricts nothing or does not name the message,
and of every message exactly when it restricts nothing. A network ACL entry does so of a message exactly when
it names ICMP in words and gives no ports and names the message, or neither; and of every message exactly when
it names ICMP in words, gives no ports and restricts nothing. -/
theorem icmpRestriction_iff {icmpType code : ℤ} (typeHalf : IcmpHalf icmpType) (codeHalf : IcmpHalf code) :
    (∀ permission cidr rule, PermissionRule icmpType code permission cidr rule →
      ∀ address, cidrAdmits cidr address = true → ∀ ruleIndex securityGroupId peer,
        (∀ message,
          ((Sg.classifyRule rule ruleIndex securityGroupId (icmpTraffic message address) peer).kind = .yes ↔
              NamesMessage icmpType code message) ↔
            (icmpType = -1 ∧ code = -1) ∨ ¬ NamesMessage icmpType code message) ∧
        ((∀ message,
          (Sg.classifyRule rule ruleIndex securityGroupId (icmpTraffic message address) peer).kind = .yes ↔
              NamesMessage icmpType code message) ↔
            icmpType = -1 ∧ code = -1)) ∧
    ∀ entry rule, EntryRule icmpType code entry rule → ∀ address, cidrAdmits rule.cidr address = true →
      (∀ message,
        (Nacl.ruleMatches rule (icmpTraffic message address) = true ↔ NamesMessage icmpType code message) ↔
          (EntryOpen entry ∧ NamesMessage icmpType code message) ∨
            (¬ EntryOpen entry ∧ ¬ NamesMessage icmpType code message)) ∧
      ((∀ message,
        Nacl.ruleMatches rule (icmpTraffic message address) = true ↔ NamesMessage icmpType code message) ↔
          EntryOpen entry ∧ icmpType = -1 ∧ code = -1) := by
  obtain ⟨someMessage, named⟩ := exists_namesMessage typeHalf codeHalf
  have all := @forall_namesMessage_iff icmpType code
  constructor
  · intro permission cidr rule ofPermission address inside ruleIndex securityGroupId peer
    have matched (message : UInt8 × UInt8) :=
      ofPermission.portless_iff typeHalf codeHalf inside message ruleIndex securityGroupId peer
    simp only [matched]
    constructor
    · intro message
      have unrestricted : icmpType = -1 ∧ code = -1 → NamesMessage icmpType code message :=
        fun both => all.mpr both message
      tauto
    · exact ⟨fun means => (means someMessage).mpr named, fun both message =>
        iff_of_true both (all.mpr both message)⟩
  · intro entry rule ofEntry address inside
    simp only [ofEntry.portless_iff inside]
    constructor
    · intro message
      exact iff_iff_and_or_not_and_not
    · constructor
      · intro means
        have entryOpen := (means someMessage).mpr named
        exact ⟨entryOpen, all.mp fun message => (means message).mp entryOpen⟩
      · exact fun ⟨entryOpen, both⟩ message => iff_of_true entryOpen (all.mpr both message)

end Matching

/-! ## Echo requests -/

/-- Echo requests of any code, from anywhere. -/
private def echoPermission : Sdk.IpPermission where
  ipProtocol := some "icmp"
  fromPort := some 8
  toPort := some (-1)
  ipRanges := [⟨some "0.0.0.0/0"⟩]

private def echoRule : SgRule :=
  ⟨.ingress, "icmp", some (.single 8), .cidr "0.0.0.0/0", true⟩

/-- Echo requests of code zero, with the restriction in its own fields. -/
private def echoEntry : Sdk.NetworkAclEntry where
  cidrBlock := some "0.0.0.0/0"
  egress := some false
  icmpTypeCode := some ⟨some 0, some 8⟩
  protocol := some "icmp"
  ruleAction := some .allow
  ruleNumber := some 100

private def echoEntryRule : NaclRule := ⟨100, .ingress, "icmp", none, "0.0.0.0/0", .allow⟩

private def echoSource : IpAddr := .v4 0x0A000001

private theorem echoRule_mapped : PermissionRule 8 (-1) echoPermission "0.0.0.0/0" echoRule :=
  ⟨.inl rfl, rfl, rfl, ⟨"sg-1", .ingress, "111122223333", [echoRule], by decide, by decide⟩, rfl⟩

private theorem echoEntryRule_mapped : EntryRule 8 0 echoEntry echoEntryRule :=
  ⟨⟨"icmp", by decide, rfl⟩, rfl, ⟨"acl-1", by decide⟩⟩

/-- An echo request is denied by the permission that names it, and an unreachable message matches the
entry for echo requests. -/
theorem icmpRestriction_echo :
    (¬ ∀ icmpType code message address permission cidr rule, IcmpHalf icmpType → IcmpHalf code →
      PermissionRule icmpType code permission cidr rule → cidrAdmits cidr address = true →
        ((Sg.classifyRule rule 0 "sg-1" (icmpTraffic message address) ⟨[]⟩).kind = .yes ↔
          NamesMessage icmpType code message)) ∧
    ¬ ∀ icmpType code message address entry rule, IcmpHalf icmpType → IcmpHalf code →
      EntryRule icmpType code entry rule → cidrAdmits rule.cidr address = true →
        (Nacl.ruleMatches rule (icmpTraffic message address) = true ↔
          NamesMessage icmpType code message) := by
  constructor
  · intro faithful
    have named := faithful 8 (-1) (8, 0) echoSource _ _ _ (by decide) (by decide) echoRule_mapped
      (by decide)
    revert named
    decide
  · intro faithful
    have named := faithful 8 0 (3, 1) echoSource _ _ (by decide) (by decide) echoEntryRule_mapped
      (by decide)
    revert named
    decide

/-- All ICMP from anywhere, as a permission and as an entry. -/
private def anyPermission : Sdk.IpPermission :=
  { echoPermission with fromPort := some (-1) }

private def anyRule : SgRule := { echoRule with portRange := none }

private def anyEntry : Sdk.NetworkAclEntry :=
  { echoEntry with icmpTypeCode := some ⟨some (-1), some (-1)⟩ }

private theorem anyRule_mapped : PermissionRule (-1) (-1) anyPermission "0.0.0.0/0" anyRule :=
  ⟨.inl rfl, rfl, rfl, ⟨"sg-1", .ingress, "111122223333", [anyRule], by decide, by decide⟩, rfl⟩

private theorem anyEntry_mapped : EntryRule (-1) (-1) anyEntry echoEntryRule :=
  ⟨⟨"icmp", by decide, rfl⟩, rfl, ⟨"acl-1", by decide⟩⟩

/-- Both mean what they say of every message where nothing is restricted. Of the echo request the entry for
it still does, and the permission for it does not. -/
theorem icmpRestriction_iff_open :
    (∀ message, (Sg.classifyRule anyRule 0 "sg-1" (icmpTraffic message echoSource) ⟨[]⟩).kind = .yes ↔
      NamesMessage (-1) (-1) message) ∧
    (∀ message, Nacl.ruleMatches echoEntryRule (icmpTraffic message echoSource) = true ↔
      NamesMessage (-1) (-1) message) ∧
    (Nacl.ruleMatches echoEntryRule (icmpTraffic (8, 0) echoSource) = true ↔ NamesMessage 8 0 (8, 0)) ∧
    ¬ ((Sg.classifyRule echoRule 0 "sg-1" (icmpTraffic (8, 0) echoSource) ⟨[]⟩).kind = .yes ↔
      NamesMessage 8 (-1) (8, 0)) := by
  have unrestricted := @icmpRestriction_iff (-1) (-1) (by decide) (by decide)
  have echo := @icmpRestriction_iff 8 0 (by decide) (by decide)
  have echoAny := @icmpRestriction_iff 8 (-1) (by decide) (by decide)
  have worded (icmpTypeCode) : EntryOpen { echoEntry with icmpTypeCode } :=
    ⟨.inl rfl, fun _ _ _ absent => nomatch absent⟩
  refine ⟨?_, ?_, ?_, ?_⟩
  · exact (unrestricted.1 _ _ _ anyRule_mapped echoSource (by decide) 0 "sg-1" ⟨[]⟩).2.mpr ⟨rfl, rfl⟩
  · exact (unrestricted.2 _ _ anyEntry_mapped echoSource (by decide)).2.mpr ⟨worded _, rfl, rfl⟩
  · exact ((echo.2 _ _ echoEntryRule_mapped echoSource (by decide)).1 (8, 0)).mpr
      (.inl ⟨worded _, by decide⟩)
  · intro means
    have held := ((echoAny.1 _ _ _ echoRule_mapped echoSource (by decide) 0 "sg-1" ⟨[]⟩).1 (8, 0)).mp means
    revert held
    decide

end NetHound.Soundness
