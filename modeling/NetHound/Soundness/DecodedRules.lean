import NetHound.Evaluate.Decode

/-! # The port range of a decoded rule

A port range is documented never to decode without its validation. On a rule it is a flattened option, and
a flattened option that fails to decode is absent: the validation error of an inverted or out-of-range pair
is swallowed, and the rule comes out without a port restriction. A written pair survives exactly when it is
a valid one, or the document is rejected for another reason.
-/

namespace NetHound.Soundness

open Domain Evaluate Serde

/-! ## One rule document -/

/-- The document has both port keys. -/
def HasPorts (document : Value) : Prop :=
  ∃ entries, document = .map entries ∧ valuesAt "from_port" entries ≠ [] ∧ valuesAt "to_port" entries ≠ []

/-- The port range is there and has the bounds the document writes. -/
def KeepsBounds (document : Value) (portRange : Option PortRange) : Prop :=
  ∃ entries range, document = .map entries ∧ portRange = some range ∧
    (∀ value ∈ valuesAt "from_port" entries, value = .integer range.fromPort.toNat) ∧
    ∀ value ∈ valuesAt "to_port" entries, value = .integer range.toPort.toNat

/-- Each bound is written once, as a port, and the bounds are in order. -/
def BoundsValid (document : Value) : Prop :=
  ∃ entries, ∃ range : PortRange, document = .map entries ∧
    valuesAt "from_port" entries = [.integer range.fromPort.toNat] ∧
    valuesAt "to_port" entries = [.integer range.toPort.toNat]

/-- The document without its port keys. -/
def withoutPorts : Value → Value
  | .map entries => .map (entries.filter fun entry => !portRangeFields.recognizes entry.1)
  | value => value

/-- The port range a document has under its two keys. -/
def documentPorts : Value → Option PortRange
  | .map entries => PortRange.ofEntries entries
  | _ => none

/-- The port range survives exactly when the bounds are valid. -/
private theorem keepsBounds_documentPorts_iff (document : Value) :
    KeepsBounds document (documentPorts document) ↔ BoundsValid document := by
  constructor
  · rintro ⟨entries, range, rfl, kept, -, -⟩
    exact ⟨entries, range, rfl, PortRange.ofEntries_eq_some_iff.mp kept⟩
  · rintro ⟨entries, range, rfl, fromValid, toValid⟩
    refine ⟨entries, range, rfl, PortRange.ofEntries_eq_some_iff.mpr ⟨fromValid, toValid⟩, ?_, ?_⟩
    · rw [fromValid]
      simp
    · rw [toValid]
      simp

/-- A rule decodes as it does without its port keys, with whatever port range is under them. -/
def FlattensPorts {R : Type} (decode : Value → Option R) (portRange : R → Option PortRange) : Prop :=
  ∀ document, (decode document).map portRange =
    (decode (withoutPorts document)).map fun _ => documentPorts document

private theorem required_withoutPorts {α : Type} {name : String} (decode : Value → Option α)
    (foreign : portRangeFields.recognizes name = false) (entries : Entries) :
    required name decode (entries.filter fun entry => !portRangeFields.recognizes entry.1) =
      required name decode entries := by
  apply required_congr
  rw [valuesAt_filter (fun key => !portRangeFields.recognizes key), foreign]
  rfl

theorem sgRule_flattensPorts : FlattensPorts SgRule.decode SgRule.portRange := by
  intro document
  cases document with
  | map entries =>
    rw [withoutPorts, documentPorts, SgRule.decode_map, SgRule.decode_map]
    simp only [SgRule.ofEntries, RuleTarget.ofEntries]
    rw [required_withoutPorts _ (by decide), required_withoutPorts _ (by decide),
      required_withoutPorts _ (by decide), required_withoutPorts _ (by decide),
      required_withoutPorts _ (by decide), required_withoutPorts _ (by decide)]
    simp only [← Option.map_eq_map, map_bind, map_pure]
  | null => rfl
  | bool value => rfl
  | integer value => rfl
  | string value => rfl
  | seq items => rfl

theorem naclRule_flattensPorts : FlattensPorts NaclRule.decode NaclRule.portRange := by
  intro document
  cases document with
  | map entries =>
    rw [withoutPorts, documentPorts, NaclRule.decode_map, NaclRule.decode_map]
    simp only [NaclRule.ofEntries]
    rw [required_withoutPorts _ (by decide), required_withoutPorts _ (by decide),
      required_withoutPorts _ (by decide), required_withoutPorts _ (by decide),
      required_withoutPorts _ (by decide)]
    simp only [← Option.map_eq_map, map_bind, map_pure]
  | null => rfl
  | bool value => rfl
  | integer value => rfl
  | string value => rfl
  | seq items => rfl

section Rule

variable {R : Type} {decode : Value → Option R} {portRange : R → Option PortRange}
  (flattens : FlattensPorts decode portRange)

include flattens

private theorem FlattensPorts.isSome_decode (document : Value) :
    (decode document).isSome = (decode (withoutPorts document)).isSome := by
  rw [← Option.isSome_map, flattens document, Option.isSome_map]

private theorem FlattensPorts.portRange_eq {document : Value} {rule : R}
    (decoded : decode document = some rule) : portRange rule = documentPorts document := by
  have same := flattens document
  rw [decoded, Option.map_some] at same
  cases rest : decode (withoutPorts document) with
  | none =>
    rw [rest] at same
    cases same
  | some bare =>
    rw [rest] at same
    exact Option.some.inj same

/-- A decoded rule keeps its bounds exactly when they are valid. -/
private theorem FlattensPorts.keepsBounds_iff {document : Value} {rule : R}
    (decoded : decode document = some rule) :
    (HasPorts document → KeepsBounds document (portRange rule)) ↔
      (HasPorts document → BoundsValid document) := by
  rw [flattens.portRange_eq decoded, keepsBounds_documentPorts_iff]

/-- A document is rejected or keeps its bounds exactly when its rest is rejected or its bounds are
valid. -/
private theorem FlattensPorts.decoded_iff (document : Value) :
    (∀ rule, decode document = some rule → HasPorts document → KeepsBounds document (portRange rule)) ↔
      decode (withoutPorts document) = none ∨ (HasPorts document → BoundsValid document) := by
  have shape := flattens.isSome_decode document
  cases rest : decode (withoutPorts document) with
  | none =>
    rw [rest, Option.isSome_none, Option.isSome_eq_false_iff, Option.isNone_iff_eq_none] at shape
    refine iff_of_true ?_ (.inl rfl)
    intro rule decoded
    rw [shape] at decoded
    cases decoded
  | some bare =>
    rw [rest, Option.isSome_some, Option.isSome_iff_exists] at shape
    obtain ⟨rule, decoded⟩ := shape
    rw [or_iff_right (by simp), ← flattens.keepsBounds_iff decoded]
    constructor
    · intro keeps
      exact keeps rule decoded
    · intro keeps rule' decoded'
      rw [decoded] at decoded'
      cases decoded'
      exact keeps

end Rule

/-! ## The rule documents of a candidate -/

def endpointDocuments (document : Value) : List Value := under "source" document ++ under "destination" document

/-- The rule documents under a key of both endpoints. -/
def ruleDocuments (rules : String) (document : Value) : List Value :=
  (endpointDocuments document).flatMap fun endpoint => (under rules endpoint).flatMap itemsOf

/-- The endpoint with the port keys taken out of every rule. -/
def endpointWithoutPorts (endpoint : Value) : Value :=
  mapUnder "security_group_rules" (mapItems withoutPorts)
    (mapUnder "nacl_rules" (mapItems withoutPorts) endpoint)

/-- The candidate with the port keys taken out of every rule. -/
def candidateWithoutPorts (document : Value) : Value :=
  mapUnder "source" endpointWithoutPorts (mapUnder "destination" endpointWithoutPorts document)

/-- Every rule of the candidate keeps the bounds of its document. -/
def CandidateKeepsBounds (document : Value) (candidate : PathCandidate) : Prop :=
  List.Forall₂ (fun ruleDocument rule => HasPorts ruleDocument → KeepsBounds ruleDocument rule.portRange)
      (ruleDocuments "security_group_rules" document)
      (candidate.source.securityGroupRules ++ candidate.destination.securityGroupRules) ∧
    List.Forall₂ (fun ruleDocument rule => HasPorts ruleDocument → KeepsBounds ruleDocument rule.portRange)
      (ruleDocuments "nacl_rules" document)
      (candidate.source.naclRules ++ candidate.destination.naclRules)

/-- Every rule document with both ports has valid bounds. -/
def CandidateBoundsValid (document : Value) : Prop :=
  ∀ ruleDocument ∈ ruleDocuments "security_group_rules" document ++ ruleDocuments "nacl_rules" document,
    HasPorts ruleDocument → BoundsValid ruleDocument

private theorem isSome_five {α β γ δ ε ζ : Type} (a : Option α) (b : Option β) (c : Option γ)
    (d : Option δ) (e : Option ε) (build : α → β → γ → δ → ε → ζ) :
    (do return build (← a) (← b) (← c) (← d) (← e) : Option ζ).isSome =
      (a.isSome && b.isSome && c.isSome && d.isSome && e.isSome) := by
  cases a <;> cases b <;> cases c <;> cases d <;> cases e <;> rfl

private theorem isSome_endpoint (endpoint : Value) :
    (EndpointCandidate.decode (endpointWithoutPorts endpoint)).isSome =
      (EndpointCandidate.decode endpoint).isSome := by
  cases endpoint with
  | map entries =>
    have sgRules (value : Value) : (SgRule.decode (withoutPorts value)).isSome =
        (SgRule.decode value).isSome := (sgRule_flattensPorts.isSome_decode value).symm
    have naclRules (value : Value) : (NaclRule.decode (withoutPorts value)).isSome =
        (NaclRule.decode value).isSome := (naclRule_flattensPorts.isSome_decode value).symm
    have sgList : (required "security_group_rules" (Value.asList SgRule.decode ∘ mapItems withoutPorts)
        entries).isSome = (required "security_group_rules" (Value.asList SgRule.decode) entries).isSome :=
      isSome_required (isSome_asList_mapItems sgRules) entries
    have naclList : (required "nacl_rules" (Value.asList NaclRule.decode ∘ mapItems withoutPorts)
        entries).isSome = (required "nacl_rules" (Value.asList NaclRule.decode) entries).isSome :=
      isSome_required (isSome_asList_mapItems naclRules) entries
    rw [endpointWithoutPorts, mapUnder, mapUnder, EndpointCandidate.decode_map,
      EndpointCandidate.decode_map, isSome_five, isSome_five]
    rw [required_rewriteAt_of_ne (by decide), required_rewriteAt_of_ne (by decide),
      required_rewriteAt_of_ne (by decide), required_rewriteAt_of_ne (by decide),
      required_rewriteAt_self, required_rewriteAt_of_ne (by decide),
      required_rewriteAt_of_ne (by decide), required_rewriteAt_of_ne (by decide),
      required_rewriteAt_of_ne (by decide), required_rewriteAt_self, sgList, naclList]
  | null => rfl
  | bool value => rfl
  | integer value => rfl
  | string value => rfl
  | seq items => rfl

private theorem isSome_candidate (document : Value) :
    (PathCandidate.decode (candidateWithoutPorts document)).isSome =
      (PathCandidate.decode document).isSome := by
  cases document with
  | map entries =>
    have source : (required "source" (EndpointCandidate.decode ∘ endpointWithoutPorts) entries).isSome =
        (required "source" EndpointCandidate.decode entries).isSome :=
      isSome_required isSome_endpoint entries
    have destination :
        (required "destination" (EndpointCandidate.decode ∘ endpointWithoutPorts) entries).isSome =
          (required "destination" EndpointCandidate.decode entries).isSome :=
      isSome_required isSome_endpoint entries
    rw [candidateWithoutPorts, mapUnder, mapUnder, PathCandidate.decode_map, PathCandidate.decode_map,
      isSome_five, isSome_five]
    rw [required_rewriteAt_self, required_rewriteAt_of_ne (by decide), required_rewriteAt_of_ne (by decide),
      required_rewriteAt_self, required_rewriteAt_of_ne (by decide), required_rewriteAt_of_ne (by decide),
      required_rewriteAt_of_ne (by decide), required_rewriteAt_of_ne (by decide),
      required_rewriteAt_of_ne (by decide), required_rewriteAt_of_ne (by decide), source, destination]
  | null => rfl
  | bool value => rfl
  | integer value => rfl
  | string value => rfl
  | seq items => rfl

/-- The rules of an endpoint are its rule documents decoded one by one. -/
private theorem endpoint_rules {document : Value} {endpoint : EndpointCandidate}
    (decoded : EndpointCandidate.decode document = some endpoint) :
    List.Forall₂ (fun ruleDocument rule => SgRule.decode ruleDocument = some rule)
        ((under "security_group_rules" document).flatMap itemsOf) endpoint.securityGroupRules ∧
      List.Forall₂ (fun ruleDocument rule => NaclRule.decode ruleDocument = some rule)
        ((under "nacl_rules" document).flatMap itemsOf) endpoint.naclRules := by
  cases document with
  | map entries =>
    rw [EndpointCandidate.decode_map] at decoded
    obtain ⟨eniId, -, decoded⟩ := Option.bind_eq_some_iff.mp decoded
    obtain ⟨groups, -, decoded⟩ := Option.bind_eq_some_iff.mp decoded
    obtain ⟨sgRules, sgRead, decoded⟩ := Option.bind_eq_some_iff.mp decoded
    obtain ⟨subnetId, -, decoded⟩ := Option.bind_eq_some_iff.mp decoded
    obtain ⟨naclRules, naclRead, decoded⟩ := Option.bind_eq_some_iff.mp decoded
    cases decoded
    exact ⟨forall₂_of_required_asList sgRead, forall₂_of_required_asList naclRead⟩
  | null => cases decoded
  | bool value => cases decoded
  | integer value => cases decoded
  | string value => cases decoded
  | seq items => cases decoded

/-- The rules of a candidate are its rule documents decoded one by one, the source's first. -/
private theorem candidate_rules {document : Value} {candidate : PathCandidate}
    (decoded : PathCandidate.decode document = some candidate) :
    List.Forall₂ (fun ruleDocument rule => SgRule.decode ruleDocument = some rule)
        (ruleDocuments "security_group_rules" document)
        (candidate.source.securityGroupRules ++ candidate.destination.securityGroupRules) ∧
      List.Forall₂ (fun ruleDocument rule => NaclRule.decode ruleDocument = some rule)
        (ruleDocuments "nacl_rules" document)
        (candidate.source.naclRules ++ candidate.destination.naclRules) := by
  cases document with
  | map entries =>
    rw [PathCandidate.decode_map] at decoded
    obtain ⟨source, sourceRead, decoded⟩ := Option.bind_eq_some_iff.mp decoded
    obtain ⟨destination, destinationRead, decoded⟩ := Option.bind_eq_some_iff.mp decoded
    obtain ⟨routeExists, -, decoded⟩ := Option.bind_eq_some_iff.mp decoded
    obtain ⟨traffic, -, decoded⟩ := Option.bind_eq_some_iff.mp decoded
    obtain ⟨boundary, -, decoded⟩ := Option.bind_eq_some_iff.mp decoded
    cases decoded
    obtain ⟨sourceDocument, sourceListed, sourceDecoded⟩ := required_eq_some_iff.mp sourceRead
    obtain ⟨destinationDocument, destinationListed, destinationDecoded⟩ :=
      required_eq_some_iff.mp destinationRead
    have documents (rules : String) : ruleDocuments rules (.map entries) =
        (under rules sourceDocument).flatMap itemsOf ++
          (under rules destinationDocument).flatMap itemsOf := by
      rw [ruleDocuments, endpointDocuments, under, under, sourceListed, destinationListed]
      simp
    obtain ⟨sourceSg, sourceNacl⟩ := endpoint_rules sourceDecoded
    obtain ⟨destinationSg, destinationNacl⟩ := endpoint_rules destinationDecoded
    rw [documents, documents]
    exact ⟨List.rel_append sourceSg destinationSg, List.rel_append sourceNacl destinationNacl⟩
  | null => cases decoded
  | bool value => cases decoded
  | integer value => cases decoded
  | string value => cases decoded
  | seq items => cases decoded

private theorem forall₂_keepsBounds_iff {R : Type} {decode : Value → Option R}
    {portRange : R → Option PortRange} (flattens : FlattensPorts decode portRange)
    {documents : List Value} {rules : List R}
    (decoded : List.Forall₂ (fun document rule => decode document = some rule) documents rules) :
    List.Forall₂ (fun document rule => HasPorts document → KeepsBounds document (portRange rule))
        documents rules ↔
      ∀ document ∈ documents, HasPorts document → BoundsValid document := by
  induction decoded with
  | nil => simp
  | cons head _ ih =>
    rw [List.forall₂_cons, List.forall_mem_cons, ih, flattens.keepsBounds_iff head]

/-- A rule of either kind, alone or in a candidate, is rejected or keeps its bounds exactly when the
document is rejected whatever its ports, or the bounds are valid. -/
theorem decoded_keepsBounds_iff (document : Value) :
    ((∀ rule, SgRule.decode document = some rule → HasPorts document →
        KeepsBounds document rule.portRange) ↔
      SgRule.decode (withoutPorts document) = none ∨ (HasPorts document → BoundsValid document)) ∧
    ((∀ rule, NaclRule.decode document = some rule → HasPorts document →
        KeepsBounds document rule.portRange) ↔
      NaclRule.decode (withoutPorts document) = none ∨ (HasPorts document → BoundsValid document)) ∧
    ((∀ candidate, PathCandidate.decode document = some candidate →
        CandidateKeepsBounds document candidate) ↔
      PathCandidate.decode (candidateWithoutPorts document) = none ∨ CandidateBoundsValid document) := by
  refine ⟨sgRule_flattensPorts.decoded_iff document, naclRule_flattensPorts.decoded_iff document, ?_⟩
  have shape := isSome_candidate document
  cases decoded : PathCandidate.decode document with
  | none =>
    rw [decoded, Option.isSome_none, Option.isSome_eq_false_iff, Option.isNone_iff_eq_none] at shape
    exact iff_of_true (fun _ found => nomatch found) (.inl shape)
  | some candidate =>
    rw [decoded, Option.isSome_some] at shape
    obtain ⟨sgRules, naclRules⟩ := candidate_rules decoded
    have stripped : PathCandidate.decode (candidateWithoutPorts document) ≠ none :=
      Option.isSome_iff_ne_none.mp shape
    rw [or_iff_right stripped, CandidateBoundsValid, List.forall_mem_append,
      ← forall₂_keepsBounds_iff sgRule_flattensPorts sgRules,
      ← forall₂_keepsBounds_iff naclRule_flattensPorts naclRules]
    constructor
    · intro keeps
      exact keeps candidate rfl
    · intro keeps candidate' found
      cases found
      exact keeps

section Inverted

/-- A tcp rule document with its bounds the wrong way round. -/
private def invertedDocument : Value :=
  .map [("direction", .string "ingress"), ("protocol", .string "tcp"), ("from_port", .integer 443),
    ("to_port", .integer 80), ("target_kind", .string "cidr"), ("cidr", .string "0.0.0.0/0"),
    ("resolved", .bool true)]

private def unrestrictedRule : SgRule := ⟨.ingress, "tcp", none, .cidr "0.0.0.0/0", true⟩

private theorem invertedDocument_decoded : SgRule.decode invertedDocument = some unrestrictedRule := rfl

private theorem invertedDocument_hasPorts : HasPorts invertedDocument :=
  ⟨_, rfl, List.cons_ne_nil _ _, List.cons_ne_nil _ _⟩

/-- The inverted pair decodes to a rule for every port. -/
theorem decoded_widened :
    (¬ ∀ document rule, SgRule.decode document = some rule → HasPorts document →
      KeepsBounds document rule.portRange) ∧
    ∃ document rule, HasPorts document ∧ SgRule.decode document = some rule ∧
      ∀ port, portMatches rule.portRange port = true := by
  constructor
  · intro keeps
    obtain ⟨entries, range, -, absent, -⟩ :=
      keeps _ _ invertedDocument_decoded invertedDocument_hasPorts
    cases absent
  · exact ⟨_, _, invertedDocument_hasPorts, invertedDocument_decoded, fun _ => rfl⟩

end Inverted

end NetHound.Soundness
