import NetHound.Evaluate.Basic
import NetHound.ToMathlib.AlignedBlock

/-! # A CIDR contains exactly its block of addresses

An address is its family's width and an integer. A network of prefix length `p` contains the aligned
block of `2 ^ (width - p)` addresses around it, so a shorter prefix contains more. The arithmetic is
written once more with subtractions and shifts that trap, and never traps.
-/

namespace NetHound.Soundness

open Evaluate Net

/-- The number of bits of an address's family. -/
def addressWidth : IpAddr → ℕ
  | .v4 _ => 32
  | .v6 _ => 128

/-- `u32::from` and `u128::from`. -/
def addressValue : IpAddr → ℕ
  | .v4 bits => bits.toNat
  | .v6 bits => bits.toNat

/-- The text is a network and a prefix length. -/
def ParsesTo (cidr : String) (network : IpAddr) (prefixLen : ℕ) : Prop :=
  ∃ networkStr prefixStr, splitOnce '/' cidr = some (networkStr, prefixStr) ∧
    parseIpAddr networkStr = some network ∧ parseU32 prefixStr = some prefixLen

/-- The number of addresses in a network. -/
def blockSize (network : IpAddr) (prefixLen : ℕ) : ℕ := 2 ^ (addressWidth network - prefixLen)

/-- The address lies in the block that starts at the network with its low bits cleared. -/
def InBlock (network : IpAddr) (prefixLen : ℕ) (address : IpAddr) : Prop :=
  Nat.blockStart (blockSize network prefixLen) (addressValue network) ≤ addressValue address ∧
    addressValue address <
      Nat.blockStart (blockSize network prefixLen) (addressValue network) + blockSize network prefixLen

instance (network : IpAddr) (prefixLen : ℕ) (address : IpAddr) : Decidable (InBlock network prefixLen address) :=
  inferInstanceAs (Decidable (_ ∧ _))

/-! ## Arithmetic that traps -/

/-- A shift by the word width or more has no value. -/
def shiftLeftChecked {width : ℕ} (word : BitVec width) (amount : ℕ) : Option (BitVec width) :=
  if amount < width then some (word <<< amount) else none

/-- A subtraction below zero has no value. -/
def subChecked (a b : ℕ) : Option ℕ := if b ≤ a then some (a - b) else none

def maskChecked (width prefixLen : ℕ) : Option (BitVec width) :=
  if prefixLen = 0 then some 0
  else do
    let amount ← subChecked width prefixLen
    shiftLeftChecked (.allOnes width) amount

/-- One family's arm of `cidr_contains`; the outer `none` is a trap. -/
def containsChecked (width prefixLen : ℕ) (network address : BitVec width) : Option (Option Bool) :=
  if prefixLen > width then some none
  else (maskChecked width prefixLen).map fun mask => some (network &&& mask == address &&& mask)

def cidrContainsChecked (cidr : String) (address : IpAddr) : Option (Option Bool) :=
  match splitOnce '/' cidr with
  | none => some none
  | some (networkStr, prefixStr) =>
      match parseIpAddr networkStr, parseU32 prefixStr with
      | some network, some prefixLen =>
          match network, address with
          | .v4 network, .v4 address => containsChecked 32 prefixLen network address
          | .v6 network, .v6 address => containsChecked 128 prefixLen network address
          | _, _ => some (some false)
      | _, _ => some none

private theorem maskChecked_eq {width prefixLen : ℕ} (inRange : prefixLen ≤ width) :
    maskChecked width prefixLen =
      some (if prefixLen = 0 then 0 else BitVec.allOnes width <<< (width - prefixLen)) := by
  rw [maskChecked]
  by_cases zero : prefixLen = 0
  · rw [if_pos zero, if_pos zero]
  · have amount : width - prefixLen < width := by omega
    rw [if_neg zero, if_neg zero, subChecked, if_pos inRange]
    exact if_pos amount

private theorem containsChecked_eq (width prefixLen : ℕ) (network address : BitVec width) :
    containsChecked width prefixLen network address =
      some (if prefixLen > width then none else some (maskedEq width prefixLen network address)) := by
  rw [containsChecked]
  by_cases outside : prefixLen > width
  · rw [if_pos outside, if_pos outside]
  · rw [if_neg outside, if_neg outside, maskChecked_eq (Nat.not_lt.mp outside)]
    rfl

/-- No subtraction goes below zero and no shift reaches the word width. -/
theorem cidrContainsChecked_eq (cidr : String) (address : IpAddr) :
    cidrContainsChecked cidr address = some (cidrContains cidr address) := by
  rw [cidrContainsChecked, cidrContains]
  cases splitOnce '/' cidr with
  | none => rfl
  | some parts =>
    obtain ⟨networkStr, prefixStr⟩ := parts
    simp only [bind, Option.bind_some]
    cases parseIpAddr networkStr with
    | none => rfl
    | some network =>
      cases parseU32 prefixStr with
      | none => rfl
      | some prefixLen => cases network <;> cases address <;> simp [containsChecked_eq]

/-! ## Blocks -/

section Blocks

variable {cidr : String} {network address : IpAddr} {prefixLen : ℕ}

private theorem maskedEq_eq {width prefixLen : ℕ} (network address : BitVec width) :
    maskedEq width prefixLen network address = decide (address.toNat / 2 ^ (width - prefixLen) =
      network.toNat / 2 ^ (width - prefixLen)) := by
  rw [maskedEq, Bool.beq_eq_decide_eq, decide_eq_decide]
  by_cases zero : prefixLen = 0
  · have whole (bits : BitVec width) : bits.toNat / 2 ^ (width - prefixLen) = 0 := by
      rw [zero, Nat.sub_zero]
      exact Nat.div_eq_of_lt bits.isLt
    rw [if_pos zero, whole, whole]
    simp
  · rw [if_neg zero, BitVec.and_shiftLeft_allOnes_eq_iff, eq_comm]

private theorem arm_eq {width prefixLen : ℕ} (inRange : prefixLen ≤ width) (network address : BitVec width) :
    (if prefixLen > width then none else some (maskedEq width prefixLen network address)) =
      some (decide (address.toNat / 2 ^ (width - prefixLen) = network.toNat / 2 ^ (width - prefixLen))) := by
  rw [if_neg (Nat.not_lt.mpr inRange), maskedEq_eq]

private theorem inBlock_iff : InBlock network prefixLen address ↔
    addressValue address / blockSize network prefixLen =
      addressValue network / blockSize network prefixLen :=
  (Nat.div_eq_div_iff_mem_block (Nat.two_pow_pos _)).symm

/-- Addresses of the network's family are told apart by its block. -/
theorem cidrContains_sameFamily (parses : ParsesTo cidr network prefixLen)
    (inRange : prefixLen ≤ addressWidth network) (sameFamily : addressWidth address = addressWidth network) :
    cidrContains cidr address = some (decide (InBlock network prefixLen address)) := by
  obtain ⟨networkStr, prefixStr, split, parsedNetwork, parsedPrefix⟩ := parses
  simp only [cidrContains, split, bind, Option.bind_some, parsedNetwork, parsedPrefix, inBlock_iff]
  cases network with
  | v4 network =>
    cases address with
    | v4 address => exact arm_eq inRange network address
    | v6 address => cases sameFamily
  | v6 network =>
    cases address with
    | v4 address => cases sameFamily
    | v6 address => exact arm_eq inRange network address

/-- A network never contains an address of the other family. -/
theorem cidrContains_otherFamily (parses : ParsesTo cidr network prefixLen)
    (otherFamily : addressWidth address ≠ addressWidth network) :
    cidrContains cidr address = some false := by
  obtain ⟨networkStr, prefixStr, split, parsedNetwork, parsedPrefix⟩ := parses
  simp only [cidrContains, split, bind, Option.bind_some, parsedNetwork, parsedPrefix]
  cases network <;> cases address <;> first | rfl | exact absurd rfl otherFamily

/-- A shorter prefix contains every address a longer one does. -/
theorem InBlock.of_le {shorter : ℕ} (le : shorter ≤ prefixLen)
    (inBlock : InBlock network prefixLen address) : InBlock network shorter address := by
  rw [inBlock_iff] at inBlock ⊢
  exact Nat.div_pow_eq_of_le (Nat.sub_le_sub_left le _) inBlock

/-- A block holds addresses of its family only. -/
theorem blockStart_add_blockSize_le (network : IpAddr) (prefixLen : ℕ) :
    Nat.blockStart (blockSize network prefixLen) (addressValue network) + blockSize network prefixLen ≤
      2 ^ addressWidth network := by
  apply Nat.blockStart_add_le
  · exact Nat.pow_dvd_pow 2 (Nat.sub_le _ _)
  · cases network with
    | v4 bits => exact bits.isLt
    | v6 bits => exact bits.isLt

end Blocks

/-- Containment is membership in the network's block, shrinks with the prefix length, never holds
across families and is computed without an overflow. -/
theorem cidrContains_exact {cidr : String} {network : IpAddr} {prefixLen : ℕ}
    (parses : ParsesTo cidr network prefixLen) (inRange : prefixLen ≤ addressWidth network)
    (address : IpAddr) :
    (addressWidth address = addressWidth network →
        (cidrContains cidr address = some true ↔ InBlock network prefixLen address)) ∧
      (addressWidth address ≠ addressWidth network → cidrContains cidr address = some false) ∧
      Nat.blockStart (blockSize network prefixLen) (addressValue network) + blockSize network prefixLen ≤
        2 ^ addressWidth network ∧
      (∀ cidr' shorter, ParsesTo cidr' network shorter → shorter ≤ prefixLen →
        cidrContains cidr address = some true → cidrContains cidr' address = some true) ∧
      ∀ text address, cidrContainsChecked text address = some (cidrContains text address) := by
  have exact_block {text : String} {length : ℕ} (parses : ParsesTo text network length)
      (inRange : length ≤ addressWidth network) (sameFamily : addressWidth address = addressWidth network) :
      cidrContains text address = some true ↔ InBlock network length address := by
    rw [cidrContains_sameFamily parses inRange sameFamily, Option.some_inj, decide_eq_true_eq]
  refine ⟨exact_block parses inRange, cidrContains_otherFamily parses,
    blockStart_add_blockSize_le network prefixLen, fun cidr' shorter parses' le contains => ?_,
    cidrContainsChecked_eq⟩
  have sameFamily : addressWidth address = addressWidth network := by
    by_contra otherFamily
    rw [cidrContains_otherFamily parses otherFamily] at contains
    cases contains
  apply (exact_block parses' (le.trans inRange) sameFamily).mpr
  exact ((exact_block parses inRange sameFamily).mp contains).of_le le

private theorem hostBits_parses : ParsesTo "10.1.2.3/8" (.v4 0x0A010203) 8 :=
  ⟨"10.1.2.3", "8", by decide, by decide, by decide⟩

/-- A private network written with host bits set. -/
theorem cidrContains_exact_hostBits : cidrContains "10.1.2.3/8" (.v4 0x0AFFFFFF) = some true :=
  ((cidrContains_exact hostBits_parses (by decide) (.v4 0x0AFFFFFF)).1 rfl).mpr (by decide)

end NetHound.Soundness
