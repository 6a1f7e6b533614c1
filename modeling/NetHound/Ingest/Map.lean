import NetHound.Domain.Rule
import NetHound.Ingest.Sdk
import NetHound.ToMathlib.ExceptRun

/-! # Shared mapping helpers

`ingest/map/mod.rs`: the mapping error, required fields and the port normalisation both rule mappers
use. `buildPortRange` reads ICMP type and code out of the same two bounds.
-/

namespace NetHound.Ingest

open Domain

inductive MappingError where
  | invalidField (resourceId field reason : String)
deriving DecidableEq, Repr

def absentReason : String := "field is required but absent"

def requireStr (resourceId field : String) (value : Option String) : Except MappingError String :=
  match value with
  | some value => .ok value
  | none => .error (.invalidField resourceId field absentReason)

/-- The closure `to_u16` of `build_port_range`. -/
def portToU16 (resourceId field : String) (value : ℤ) : Except MappingError UInt16 :=
  match u16TryFrom value with
  | some port => .ok port
  | none => .error (.invalidField resourceId field s!"port {value} exceeds u16 range")

/-- The bounds that survive the `-1` sentinel on either side. -/
def effectiveBounds (fromPort toPort : ℤ) : Option (ℤ × ℤ) :=
  match decide (fromPort < 0), decide (toPort < 0) with
  | true, true => none
  | true, false => some (toPort, toPort)
  | false, true => some (fromPort, fromPort)
  | false, false => some (fromPort, toPort)

def buildPortRange (resourceId field protocol : String) (fromPort toPort : Option ℤ) :
    Except MappingError (Option PortRange) :=
  if protocol = "-1" then .ok none
  else
    match fromPort, toPort with
    | some fromPort, some toPort =>
        match effectiveBounds fromPort toPort with
        | none => .ok none
        | some (fromPort, toPort) => do
            let fromPort ← portToU16 resourceId field fromPort
            let toPort ← portToU16 resourceId field toPort
            match PortRange.new fromPort toPort with
            | .ok range => .ok (some range)
            | .error source => .error (.invalidField resourceId field source.message)
    | _, _ => .ok none

theorem requireStr_eq_ok_iff {resourceId field : String} {value : Option String} {text : String} :
    requireStr resourceId field value = .ok text ↔ value = some text := by
  rcases value with _ | value
  · exact ⟨fun run => (nomatch run), fun run => (nomatch run)⟩
  · exact ⟨fun run => congrArg some (Except.ok.inj run), fun run => by cases run; rfl⟩

theorem portToU16_eq_ok_iff {resourceId field : String} {value : ℤ} {port : UInt16} :
    portToU16 resourceId field value = .ok port ↔ value = port.toNat := by
  rw [portToU16, ← u16TryFrom_eq_some_iff]
  rcases u16TryFrom value with _ | converted
  · exact ⟨fun run => (nomatch run), fun run => (nomatch run)⟩
  · rw [Except.ok.injEq, Option.some_inj]

theorem effectiveBounds_eq (fromPort toPort : ℤ) :
    effectiveBounds fromPort toPort =
      if fromPort < 0 then if toPort < 0 then none else some (toPort, toPort)
      else if toPort < 0 then some (fromPort, fromPort) else some (fromPort, toPort) := by
  unfold effectiveBounds
  by_cases low : fromPort < 0
  · by_cases high : toPort < 0
    · simp [low, high]
    · simp [low, high]
  · by_cases high : toPort < 0
    · simp [low, high]
    · simp [low, high]

theorem effectiveBounds_eq_none_iff {fromPort toPort : ℤ} :
    effectiveBounds fromPort toPort = none ↔ fromPort < 0 ∧ toPort < 0 := by
  rw [effectiveBounds_eq]
  split_ifs with low high high
  · simp [low, high]
  · simp [high]
  · simp [low]
  · simp [low]

/-- The bounds that survive are the given ones or one of them twice, and are not negative. -/
theorem effectiveBounds_nonneg {fromPort toPort low high : ℤ}
    (effective : effectiveBounds fromPort toPort = some (low, high)) : 0 ≤ low ∧ 0 ≤ high := by
  rw [effectiveBounds_eq] at effective
  split_ifs at effective <;> cases effective <;> omega

/-- Two bounds, not both the sentinel. -/
def Bounded (fromPort toPort : Option ℤ) : Prop :=
  ∃ low high, fromPort = some low ∧ toPort = some high ∧ (0 ≤ low ∨ 0 ≤ high)

theorem bounded_iff {fromPort toPort : Option ℤ} :
    Bounded fromPort toPort ↔ ∃ low high bounds, fromPort = some low ∧ toPort = some high ∧
      effectiveBounds low high = some bounds := by
  constructor
  · rintro ⟨low, high, fromSome, toSome, bounded⟩
    cases effective : effectiveBounds low high with
    | none =>
      have negative := effectiveBounds_eq_none_iff.mp effective
      omega
    | some bounds => exact ⟨low, high, bounds, fromSome, toSome, effective⟩
  · rintro ⟨low, high, bounds, fromSome, toSome, effective⟩
    refine ⟨low, high, fromSome, toSome, ?_⟩
    by_contra negative
    rw [effectiveBounds_eq_none_iff.mpr (by omega)] at effective
    cases effective

/-- All protocols, an absent bound and two sentinels carry no port range. -/
theorem buildPortRange_of_unbounded (resourceId field : String) {protocol : String}
    {fromPort toPort : Option ℤ} (free : protocol = "-1" ∨ ¬ Bounded fromPort toPort) :
    buildPortRange resourceId field protocol fromPort toPort = .ok none := by
  unfold buildPortRange
  by_cases sentinel : protocol = "-1"
  · rw [if_pos sentinel]
  · rw [if_neg sentinel]
    rcases fromPort with _ | low
    · rfl
    · rcases toPort with _ | high
      · rfl
      · cases effective : effectiveBounds low high with
        | none => simp only [effective]
        | some bounds =>
          exact absurd (bounded_iff.mpr ⟨low, high, bounds, rfl, rfl, effective⟩)
            (free.resolve_left sentinel)

/-- Bounds that survive build the range they name, and nothing else. -/
theorem buildPortRange_of_effective (resourceId field : String) {protocol : String} {fromPort toPort : ℤ}
    {low high : ℤ} (named : protocol ≠ "-1") (effective : effectiveBounds fromPort toPort = some (low, high))
    {portRange : Option PortRange} :
    buildPortRange resourceId field protocol (some fromPort) (some toPort) = .ok portRange ↔
      ∃ range : PortRange, portRange = some range ∧ low = range.fromPort.toNat ∧
        high = range.toPort.toNat := by
  simp only [buildPortRange, if_neg named, effective]
  constructor
  · intro built
    obtain ⟨fromU16, lowRun, run⟩ := Except.bind_eq_ok_iff.mp built
    obtain ⟨toU16, highRun, run⟩ := Except.bind_eq_ok_iff.mp run
    split at run
    · next range constructed =>
      cases run
      obtain ⟨sameFrom, sameTo⟩ := PortRange.new_eq_ok_iff.mp constructed
      rw [← sameFrom, portToU16_eq_ok_iff] at lowRun
      rw [← sameTo, portToU16_eq_ok_iff] at highRun
      exact ⟨range, rfl, lowRun, highRun⟩
    · cases run
  · rintro ⟨range, rfl, lowSame, highSame⟩
    apply Except.bind_eq_ok_iff.mpr
    refine ⟨range.fromPort, portToU16_eq_ok_iff.mpr lowSame, ?_⟩
    apply Except.bind_eq_ok_iff.mpr
    refine ⟨range.toPort, portToU16_eq_ok_iff.mpr highSame, ?_⟩
    rw [PortRange.new_bounds]

/-- The resource and the field reach the error only. -/
theorem buildPortRange_unique {resourceId resourceId' field field' protocol : String}
    {fromPort toPort : Option ℤ} {portRange portRange' : Option PortRange}
    (built : buildPortRange resourceId field protocol fromPort toPort = .ok portRange)
    (built' : buildPortRange resourceId' field' protocol fromPort toPort = .ok portRange') :
    portRange = portRange' := by
  by_cases free : protocol = "-1" ∨ ¬ Bounded fromPort toPort
  · rw [buildPortRange_of_unbounded _ _ free, Except.ok.injEq] at built built'
    rw [← built, built']
  · rw [not_or, not_not] at free
    obtain ⟨named, bounded⟩ := free
    obtain ⟨low, high, bounds, rfl, rfl, effective⟩ := bounded_iff.mp bounded
    obtain ⟨range, rfl, -⟩ := (buildPortRange_of_effective resourceId field named effective).mp built
    rw [buildPortRange_of_effective resourceId field named effective] at built
    rw [← buildPortRange_of_effective resourceId' field' named effective, built', Except.ok.injEq] at built
    exact built.symm

private theorem exists_range_iff {low high : ℤ} (nonneg : 0 ≤ low) :
    (∃ range : PortRange, low = range.fromPort.toNat ∧ high = range.toPort.toNat) ↔
      low ≤ high ∧ high ≤ 65535 := by
  constructor
  · rintro ⟨range, rfl, rfl⟩
    have ordered := UInt16.le_iff_toNat_le.mp range.ordered
    have bound := range.toPort.toNat_lt
    omega
  · rintro ⟨ordered, bound⟩
    have lowSmall : low.toNat < UInt16.size := by
      rw [UInt16.size]
      omega
    have highSmall : high.toNat < UInt16.size := by
      rw [UInt16.size]
      omega
    refine ⟨⟨.ofNat low.toNat, .ofNat high.toNat, ?_⟩, ?_, ?_⟩
    · rw [UInt16.le_iff_toNat_le, UInt16.toNat_ofNat_of_lt' lowSmall, UInt16.toNat_ofNat_of_lt' highSmall]
      omega
    · rw [UInt16.toNat_ofNat_of_lt' lowSmall]
      omega
    · rw [UInt16.toNat_ofNat_of_lt' highSmall]
      omega

/-- Normalisation fails exactly on surviving bounds that are inverted or too large. -/
theorem buildPortRange_error_iff (resourceId field protocol : String) (fromPort toPort : Option ℤ) :
    (∃ error, buildPortRange resourceId field protocol fromPort toPort = .error error) ↔
      protocol ≠ "-1" ∧ ∃ fromBound toBound low high, fromPort = some fromBound ∧ toPort = some toBound ∧
        effectiveBounds fromBound toBound = some (low, high) ∧ (high < low ∨ 65535 < high) := by
  by_cases free : protocol = "-1" ∨ ¬ Bounded fromPort toPort
  · refine iff_of_false ?_ ?_
    · rw [buildPortRange_of_unbounded resourceId field free]
      rintro ⟨error, failed⟩
      cases failed
    · rintro ⟨named, fromBound, toBound, low, high, fromSome, toSome, effective, -⟩
      exact free.elim named fun unbounded =>
        unbounded (bounded_iff.mpr ⟨fromBound, toBound, _, fromSome, toSome, effective⟩)
  · rw [not_or, not_not] at free
    obtain ⟨named, bounded⟩ := free
    obtain ⟨fromBound, toBound, ⟨low, high⟩, rfl, rfl, effective⟩ := bounded_iff.mp bounded
    have builds : (∃ portRange, buildPortRange resourceId field protocol (some fromBound) (some toBound) =
        .ok portRange) ↔ low ≤ high ∧ high ≤ 65535 := by
      simp only [buildPortRange_of_effective resourceId field named effective]
      rw [← exists_range_iff (effectiveBounds_nonneg effective).1]
      constructor
      · rintro ⟨portRange, range, -, bounds⟩
        exact ⟨range, bounds⟩
      · rintro ⟨range, bounds⟩
        exact ⟨some range, range, rfl, bounds⟩
    have fails : (∃ error, buildPortRange resourceId field protocol (some fromBound) (some toBound) =
        .error error) ↔ ¬ ∃ portRange,
          buildPortRange resourceId field protocol (some fromBound) (some toBound) = .ok portRange := by
      rcases buildPortRange resourceId field protocol (some fromBound) (some toBound) with error | portRange
      · simp
      · simp
    rw [fails, builds, and_iff_right named]
    constructor
    · intro rejected
      exact ⟨fromBound, toBound, low, high, rfl, rfl, effective, by omega⟩
    · rintro ⟨fromBound', toBound', low', high', fromSame, toSame, effective', rejected⟩
      cases fromSame
      cases toSame
      rw [effective] at effective'
      cases effective'
      omega

/-- A port range that builds is a proper one exactly for a protocol other than `-1` with bounds. -/
theorem isSome_of_buildPortRange {resourceId field protocol : String} {fromPort toPort : Option ℤ}
    {portRange : Option PortRange}
    (built : buildPortRange resourceId field protocol fromPort toPort = .ok portRange) :
    portRange.isSome = true ↔ protocol ≠ "-1" ∧ Bounded fromPort toPort := by
  by_cases free : protocol = "-1" ∨ ¬ Bounded fromPort toPort
  · rw [buildPortRange_of_unbounded resourceId field free] at built
    cases built
    refine iff_of_false (by simp) ?_
    rintro ⟨named, bounded⟩
    exact free.elim named fun unbounded => unbounded bounded
  · rw [not_or, not_not] at free
    refine iff_of_true ?_ free
    obtain ⟨named, bounded⟩ := free
    obtain ⟨low, high, bounds, rfl, rfl, effective⟩ := bounded_iff.mp bounded
    obtain ⟨range, rfl, -⟩ := (buildPortRange_of_effective resourceId field named effective).mp built
    rfl

theorem buildPortRange_none (resourceId field protocol : String) :
    buildPortRange resourceId field protocol none none = .ok none := by
  apply buildPortRange_of_unbounded
  right
  rintro ⟨low, high, missing, -⟩
  cases missing

private theorem effectiveBounds_toNat (low high : ℕ) : effectiveBounds low high = some (↑low, ↑high) := by
  rw [effectiveBounds_eq, if_neg (by omega), if_neg (by omega)]

/-- Ordered bounds in range build themselves. -/
theorem buildPortRange_of_ordered (resourceId field : String) {protocol : String}
    (named : protocol ≠ "-1") (range : PortRange) :
    buildPortRange resourceId field protocol (some range.fromPort.toNat) (some range.toPort.toNat) =
      .ok (some range) := by
  rw [buildPortRange_of_effective resourceId field named (effectiveBounds_toNat _ _)]
  exact ⟨range, rfl, rfl, rfl⟩

end NetHound.Ingest
