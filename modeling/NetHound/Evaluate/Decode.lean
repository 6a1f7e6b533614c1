import NetHound.Domain.Decode
import NetHound.Evaluate.Path

/-! # Decoding path candidates

The derived decoders of `evaluate/path.rs` and of the traffic in `evaluate/mod.rs`. A candidate is a plain
struct all the way down to its rules, so its rules decode one by one.
-/

namespace NetHound.Evaluate

open Domain Net Serde

/-- `u8::try_from`. -/
def u8TryFrom (value : ℤ) : Option UInt8 :=
  if 0 ≤ value ∧ value < UInt8.size then some (.ofNat value.toNat) else none

def decodeU8 (value : Value) : Option UInt8 := value.asInteger.bind u8TryFrom

def decodeIpAddr (value : Value) : Option IpAddr := value.asString.bind parseIpAddr

def icmpFields := (field "icmp_type" decodeU8).both (field "code" decodeU8)

/-- A protocol, internally tagged `protocol`. -/
def Protocol.decode : Value → Option Protocol
  | .map entries => do
      let (kind, content) := (field "protocol" Value.asString).read entries
      match ← kind with
      | "tcp" => return .tcp
      | "udp" => return .udp
      | "icmp" =>
          let (icmpType, code) ← (icmpFields.read content).1
          return .icmp icmpType code
      | "all" => return .all
      | _ => none
  | _ => none

def trafficFields :=
  (field "protocol" Protocol.decode).both
    ((optionalField "port" decodeU16).both (field "peer_address" decodeIpAddr))

def Traffic.decode (value : Value) : Option Traffic := do
  let (protocol, port, peerAddress) ← trafficFields.struct value
  return { protocol, port, peerAddress }

def endpointFields :=
  (field "eni_id" Value.asString).both
    ((field "peer_security_group_ids" (Value.asList Value.asString)).both
      ((field "security_group_rules" (Value.asList SgRule.decode)).both
        ((field "subnet_id" Value.asString).both
          (field "nacl_rules" (Value.asList NaclRule.decode)))))

def EndpointCandidate.decode (value : Value) : Option EndpointCandidate := do
  let (eniId, peerSecurityGroupIds, securityGroupRules, subnetId, naclRules) ← endpointFields.struct value
  return { eniId, peerSecurityGroupIds, securityGroupRules, subnetId, naclRules }

def candidateFields :=
  (field "source" EndpointCandidate.decode).both
    ((field "destination" EndpointCandidate.decode).both
      ((field "route_exists" Value.asBool).both
        ((field "traffic" Traffic.decode).both (field "destination_boundary" Value.asString))))

def PathCandidate.decode (value : Value) : Option PathCandidate := do
  let (source, destination, routeExists, traffic, destinationBoundary) ← candidateFields.struct value
  return { source, destination, routeExists, traffic, destinationBoundary }

/-- Decoding traffic reads every field under its own key; the port may be absent. -/
theorem Traffic.decode_map (entries : Entries) :
    Traffic.decode (.map entries) = do
      return {
        protocol := ← required "protocol" Protocol.decode entries
        port := ← optional "port" decodeU16 entries
        peerAddress := ← required "peer_address" decodeIpAddr entries } := by
  change (trafficFields.read entries).1 >>= _ = _
  rw [trafficFields, read_field_both (by decide), read_optionalField_both (by decide), read_field]
  simp only [bind_assoc, pure_bind]

/-- Decoding an endpoint reads every field under its own key. -/
theorem EndpointCandidate.decode_map (entries : Entries) :
    EndpointCandidate.decode (.map entries) = do
      return {
        eniId := ← required "eni_id" Value.asString entries
        peerSecurityGroupIds :=
          ← required "peer_security_group_ids" (Value.asList Value.asString) entries
        securityGroupRules := ← required "security_group_rules" (Value.asList SgRule.decode) entries
        subnetId := ← required "subnet_id" Value.asString entries
        naclRules := ← required "nacl_rules" (Value.asList NaclRule.decode) entries } := by
  change (endpointFields.read entries).1 >>= _ = _
  rw [endpointFields, read_field_both (by decide), read_field_both (by decide),
    read_field_both (by decide), read_field_both (by decide), read_field]
  simp only [bind_assoc, pure_bind]

/-- Decoding a candidate reads every field under its own key. -/
theorem PathCandidate.decode_map (entries : Entries) :
    PathCandidate.decode (.map entries) = do
      return {
        source := ← required "source" EndpointCandidate.decode entries
        destination := ← required "destination" EndpointCandidate.decode entries
        routeExists := ← required "route_exists" Value.asBool entries
        traffic := ← required "traffic" Traffic.decode entries
        destinationBoundary := ← required "destination_boundary" Value.asString entries } := by
  change (candidateFields.read entries).1 >>= _ = _
  rw [candidateFields, read_field_both (by decide), read_field_both (by decide),
    read_field_both (by decide), read_field_both (by decide), read_field]
  simp only [bind_assoc, pure_bind]

end NetHound.Evaluate
