import NetHound.Domain.Encode
import NetHound.Evaluate.Decode
import NetHound.Net.Display

/-! # Encoding path candidates

The derived encoders of `evaluate/path.rs` and of the traffic in `evaluate/mod.rs`. An address is encoded by
its text, a port that is absent by null.
-/

namespace NetHound.Evaluate

open Domain Net Serde

def encodeU8 (value : UInt8) : Value := .integer value.toNat

def encodeIpAddr (address : IpAddr) : Value := .string (displayIpAddr address)

def Protocol.encode : Protocol → Value
  | .tcp => .map [("protocol", .string "tcp")]
  | .udp => .map [("protocol", .string "udp")]
  | .icmp icmpType code =>
      .map [("protocol", .string "icmp"), ("icmp_type", encodeU8 icmpType), ("code", encodeU8 code)]
  | .all => .map [("protocol", .string "all")]

def Traffic.encode (traffic : Traffic) : Value :=
  .map [("protocol", traffic.protocol.encode), ("port", Value.ofOption encodeU16 traffic.port),
    ("peer_address", encodeIpAddr traffic.peerAddress)]

def EndpointCandidate.encode (endpoint : EndpointCandidate) : Value :=
  .map [("eni_id", .string endpoint.eniId),
    ("peer_security_group_ids", Value.ofList .string endpoint.peerSecurityGroupIds),
    ("security_group_rules", Value.ofList SgRule.encode endpoint.securityGroupRules),
    ("subnet_id", .string endpoint.subnetId),
    ("nacl_rules", Value.ofList NaclRule.encode endpoint.naclRules)]

def PathCandidate.encode (candidate : PathCandidate) : Value :=
  .map [("source", candidate.source.encode), ("destination", candidate.destination.encode),
    ("route_exists", .bool candidate.routeExists), ("traffic", candidate.traffic.encode),
    ("destination_boundary", .string candidate.destinationBoundary)]

/-! ## Traffic -/

theorem roundTrips_u8 : RoundTrips decodeU8 encodeU8 := by
  intro value
  have small : (0 : ℤ) ≤ value.toNat ∧ (value.toNat : ℤ) < UInt8.size :=
    ⟨Int.natCast_nonneg _, Int.ofNat_lt.mpr value.toNat_lt_size⟩
  rw [encodeU8, decodeU8, Value.asInteger, Option.bind_some, u8TryFrom, if_pos small, Int.toNat_natCast,
    UInt8.ofNat_toNat]

theorem roundTrips_ipAddr : RoundTrips decodeIpAddr encodeIpAddr := by
  intro address
  rw [encodeIpAddr, decodeIpAddr, Value.asString, Option.bind_some, parseIpAddr_displayIpAddr]

/-- Behind its tag a protocol reads the payload of its variant. -/
theorem Protocol.roundTrips : RoundTrips Protocol.decode Protocol.encode := by
  intro protocol
  cases protocol with
  | tcp => rfl
  | udp => rfl
  | all => rfl
  | icmp icmpType code =>
    have payload : (icmpFields.read [("icmp_type", encodeU8 icmpType), ("code", encodeU8 code)]).1 =
        some (icmpType, code) := by
      rw [icmpFields, read_field_both (by decide), read_field, roundTrips_u8.required rfl,
        roundTrips_u8.required rfl]
      rfl
    have tag : (field "protocol" Value.asString).read [("protocol", .string "icmp"),
        ("icmp_type", encodeU8 icmpType), ("code", encodeU8 code)] =
          (some "icmp", [("icmp_type", encodeU8 icmpType), ("code", encodeU8 code)]) := rfl
    rw [Protocol.encode, Protocol.decode, tag]
    simp only [Option.bind_eq_bind, Option.bind_some, payload]
    rfl

theorem Traffic.roundTrips : RoundTrips Traffic.decode Traffic.encode := by
  intro traffic
  have present (port : UInt16) : encodeU16 port ≠ .null := nofun
  rw [Traffic.encode, Traffic.decode_map, Protocol.roundTrips.required rfl,
    roundTrips_u16.optional present rfl, roundTrips_ipAddr.required rfl]
  rfl

/-! ## Candidates -/

theorem EndpointCandidate.roundTrips : RoundTrips EndpointCandidate.decode EndpointCandidate.encode := by
  intro endpoint
  rw [EndpointCandidate.encode, EndpointCandidate.decode_map, roundTrips_string.required rfl,
    roundTrips_string.asList.required rfl, SgRule.roundTrips.asList.required rfl,
    roundTrips_string.required rfl, NaclRule.roundTrips.asList.required rfl]
  rfl

/-- A candidate is read back with every rule of both endpoints. -/
theorem PathCandidate.roundTrips : RoundTrips PathCandidate.decode PathCandidate.encode := by
  intro candidate
  rw [PathCandidate.encode, PathCandidate.decode_map, EndpointCandidate.roundTrips.required rfl,
    EndpointCandidate.roundTrips.required rfl, roundTrips_bool.required rfl,
    Traffic.roundTrips.required rfl, roundTrips_string.required rfl]
  rfl

end NetHound.Evaluate
