import Mathlib.Data.Int.Notation

/-! # Security group and network ACL rules

The rule types of `domain/rule.rs`. A port range carries its ordering, so no inverted range can be
built; `PortRange.new` is the only way in and rejects one with the source's message.
-/

namespace NetHound.Domain

/-- Errors of building a rule from invalid input. -/
inductive RuleError where
  | invertedPortRange (fromPort toPort : UInt16)
deriving DecidableEq, Repr

/-- The `thiserror` message. -/
def RuleError.message : RuleError → String
  | .invertedPortRange fromPort toPort =>
      s!"invalid port range: from_port ({fromPort}) is greater than to_port ({toPort})"

/-- `u16::try_from`. -/
def u16TryFrom (value : ℤ) : Option UInt16 :=
  if 0 ≤ value ∧ value < UInt16.size then some (.ofNat value.toNat) else none

@[simp] theorem u16TryFrom_toNat (port : UInt16) : u16TryFrom port.toNat = some port := by
  have bound := port.toNat_lt
  rw [u16TryFrom, if_pos ⟨Int.natCast_nonneg _, by exact_mod_cast bound⟩, Int.toNat_natCast,
    UInt16.ofNat_toNat]

theorem u16TryFrom_eq_some_iff {value : ℤ} {port : UInt16} :
    u16TryFrom value = some port ↔ value = port.toNat := by
  constructor
  · intro converted
    unfold u16TryFrom at converted
    split at converted
    · next inRange =>
      cases converted
      have small : value.toNat < UInt16.size := by omega
      rw [UInt16.toNat_ofNat_of_lt' small]
      omega
    · cases converted
  · rintro rfl
    exact u16TryFrom_toNat port

inductive Direction where
  | ingress
  | egress
deriving DecidableEq, Repr

/-- An inclusive port range. -/
structure PortRange where
  fromPort : UInt16
  toPort : UInt16
  ordered : fromPort ≤ toPort
deriving DecidableEq, Repr

def PortRange.new (fromPort toPort : UInt16) : Except RuleError PortRange :=
  if inverted : fromPort > toPort then .error (.invertedPortRange fromPort toPort)
  else .ok ⟨fromPort, toPort, UInt16.not_lt.mp inverted⟩

/-- The range of one port. -/
def PortRange.single (port : UInt16) : PortRange := ⟨port, port, UInt16.le_refl port⟩

/-- A valid range is rebuilt from its bounds. -/
@[simp] theorem PortRange.new_bounds (range : PortRange) :
    PortRange.new range.fromPort range.toPort = .ok range := by
  rw [PortRange.new, dif_neg (UInt16.not_lt.mpr range.ordered)]

/-- Construction succeeds exactly on ordered bounds. -/
theorem PortRange.new_eq_ok_iff {fromPort toPort : UInt16} {range : PortRange} :
    PortRange.new fromPort toPort = .ok range ↔
      range.fromPort = fromPort ∧ range.toPort = toPort := by
  constructor
  · intro built
    unfold PortRange.new at built
    split at built
    · cases built
    · cases built
      exact ⟨rfl, rfl⟩
  · rintro ⟨rfl, rfl⟩
    exact range.new_bounds

/-- The target of a security group rule: a CIDR block or another group. -/
inductive RuleTarget where
  | cidr (cidr : String)
  | securityGroupRef (securityGroupId : String)
deriving DecidableEq, Repr

/-- A security group egress or ingress rule. -/
structure SgRule where
  direction : Direction
  protocol : String
  portRange : Option PortRange
  target : RuleTarget
  resolved : Bool
deriving DecidableEq, Repr

inductive Action where
  | allow
  | deny
deriving DecidableEq, Repr

/-- A network ACL rule; `ruleNumber` is the sole evaluation-order key. -/
structure NaclRule where
  ruleNumber : UInt16
  direction : Direction
  protocol : String
  portRange : Option PortRange
  cidr : String
  action : Action
deriving DecidableEq, Repr

end NetHound.Domain
