import Mathlib.Algebra.Ring.Nat
import Mathlib.Data.List.TakeDrop
import NetHound.Net.IpAddr

/-! # IP addresses as the standard library writes them

`Display` of `std::net::IpAddr`: four decimal octets, or eight hexadecimal segments with the first longest
run of zeros left out. An IPv6 address that stands for an IPv4 address is written with that address. Every
text that is written is read back.
-/

namespace NetHound.Net

/-- An octet by its position, the first one leading. -/
def octet (bits : BitVec 32) (index : ℕ) : ℕ := bits.toNat / 256 ^ (3 - index) % 256

def displayIpv4Addr (bits : BitVec 32) : List Char :=
  Nat.toDigits 10 (octet bits 0) ++ '.' :: (Nat.toDigits 10 (octet bits 1) ++
    '.' :: (Nat.toDigits 10 (octet bits 2) ++ '.' :: Nat.toDigits 10 (octet bits 3)))

def segments (bits : BitVec 128) : List ℕ :=
  (List.range 8).map fun index => bits.toNat / 65536 ^ (7 - index) % 65536

/-- `Ipv6Addr::to_ipv4_mapped`. -/
def toIpv4Mapped (bits : BitVec 128) : Option (BitVec 32) :=
  match segments bits with
  | [0, 0, 0, 0, 0, 0xffff, high, low] => some (.ofNat 32 (high * 65536 + low))
  | _ => none

/-- A run of segments. -/
structure Span where
  start : ℕ
  len : ℕ

/-- The loop over the segments from position `i`: the longest run of zeros so far and the current one. -/
def innerZeroSpan : ℕ → Span → Span → List ℕ → Span
  | _, longest, _, [] => longest
  | i, longest, current, segment :: rest =>
      if segment = 0 then
        let current : Span := ⟨if current.len = 0 then i else current.start, current.len + 1⟩
        innerZeroSpan (i + 1) (if current.len > longest.len then current else longest) current rest
      else innerZeroSpan (i + 1) longest ⟨0, 0⟩ rest

/-- A part of the address, separated by colons. -/
def fmtSubslice : List ℕ → List Char
  | [] => []
  | first :: tail => Nat.toDigits 16 first ++ tail.flatMap fun segment => ':' :: Nat.toDigits 16 segment

def displayIpv6Addr (bits : BitVec 128) : List Char :=
  match toIpv4Mapped bits with
  | some ipv4 => [':', ':', 'f', 'f', 'f', 'f', ':'] ++ displayIpv4Addr ipv4
  | none =>
      let segments := segments bits
      let zeroes := innerZeroSpan 0 ⟨0, 0⟩ ⟨0, 0⟩ segments
      if zeroes.len > 1 then
        fmtSubslice (segments.take zeroes.start) ++
          ':' :: ':' :: fmtSubslice (segments.drop (zeroes.start + zeroes.len))
      else fmtSubslice segments

def displayIpAddr : IpAddr → String
  | .v4 bits => String.ofList (displayIpv4Addr bits)
  | .v6 bits => String.ofList (displayIpv6Addr bits)

example : displayIpAddr (.v6 0x20010db8000000000001000000000001) = "2001:db8::1:0:0:1" := by decide
example : displayIpAddr (.v6 0xffff0a00000a) = "::ffff:10.0.0.10" := by decide

/-! ## Numbers -/

section Number

variable {radix : ℕ} (large : 1 < radix) (digits : ∀ d < radix, toDigit radix d.digitChar = some d)

/-- A digit does not go on here. -/
def Stops (radix : ℕ) (cs : List Char) : Prop := ∀ c ∈ cs.head?, toDigit radix c = none

theorem stops_nil (radix : ℕ) : Stops radix [] := by
  rintro c ⟨⟩

theorem readDigits_of_stops {cs : List Char} (stops : Stops radix cs) (maxDigits result count : ℕ) :
    readDigits radix maxDigits result count cs = some (result, count, cs) := by
  cases cs with
  | nil => rfl
  | cons c cs => rw [readDigits, stops c rfl]

theorem readNumber_of_stops {cs : List Char} (stops : Stops radix cs) (maxDigits size : ℕ)
    (allowZeroPrefix : Bool) : readNumber radix maxDigits allowZeroPrefix size cs = none := by
  rw [readNumber, readDigits_of_stops stops]
  rfl

include large digits

/-- Reading the digits of a number gives the number and goes on behind them. -/
theorem readDigits_toDigits {maxDigits : ℕ} (n : ℕ) (cs : List Char)
    (fits : (Nat.toDigits radix n).length ≤ maxDigits) :
    readDigits radix maxDigits 0 0 (Nat.toDigits radix n ++ cs) =
      readDigits radix maxDigits n (Nat.toDigits radix n).length cs := by
  induction n using Nat.base_induction radix large generalizing cs with
  | single d small =>
    rw [Nat.toDigits_of_lt_base small, List.length_singleton] at fits ⊢
    rw [List.singleton_append, readDigits, digits d small]
    simp only [Nat.zero_mul, Nat.zero_add]
    rw [if_neg (Nat.not_lt.mpr fits)]
  | digit n d small positive ih =>
    rw [← Nat.toDigits_append_toDigits large positive small, Nat.toDigits_of_lt_base small] at fits ⊢
    rw [List.length_append, List.length_singleton] at fits ⊢
    rw [List.append_assoc, ih _ (Nat.le_of_succ_le fits), List.singleton_append, readDigits, digits d small]
    dsimp only
    rw [if_neg (Nat.not_lt.mpr fits), Nat.mul_comm]

omit digits in
theorem head?_toDigits_ne_zero {n : ℕ} (positive : 0 < n) : (Nat.toDigits radix n).head? ≠ some '0' := by
  induction n using Nat.base_induction radix large with
  | single d small =>
    rw [Nat.toDigits_of_lt_base small, List.head?_singleton, ne_eq, Option.some_inj, Nat.digitChar_eq_zero]
    exact Nat.ne_of_gt positive
  | digit n d small leading ih =>
    rw [← Nat.toDigits_append_toDigits large leading small,
      List.head?_append_of_ne_nil _ Nat.toDigits_ne_nil]
    exact ih leading

omit digits in
/-- No number is written with a leading zero. -/
theorem noZeroPrefix_toDigits (n : ℕ) (cs : List Char) :
    ((Nat.toDigits radix n ++ cs).head? == some '0' &&
      decide ((Nat.toDigits radix n).length > 1)) = false := by
  rcases Nat.eq_zero_or_pos n with rfl | positive
  · rw [Nat.toDigits_zero, List.length_singleton]
    simp
  · rw [List.head?_append_of_ne_nil _ Nat.toDigits_ne_nil, Bool.and_eq_false_imp]
    intro zero
    exact absurd (beq_iff_eq.mp zero) (head?_toDigits_ne_zero large positive)

theorem readNumber_toDigits {maxDigits size n : ℕ} {cs : List Char} (allowZeroPrefix : Bool)
    (fits : (Nat.toDigits radix n).length ≤ maxDigits) (small : n < size) (stops : Stops radix cs) :
    readNumber radix maxDigits allowZeroPrefix size (Nat.toDigits radix n ++ cs) = some (n, cs) := by
  rw [readNumber, readDigits_toDigits large digits n cs fits, readDigits_of_stops stops]
  dsimp only
  rw [if_neg (Nat.ne_of_gt Nat.length_toDigits_pos), Bool.and_assoc, noZeroPrefix_toDigits large, Bool.and_false,
    if_neg Bool.false_ne_true, if_pos small]

omit digits in
theorem exists_digitChar_of_mem_toDigits {n : ℕ} {c : Char} (member : c ∈ Nat.toDigits radix n) :
    ∃ d < radix, c = d.digitChar := by
  induction n using Nat.base_induction radix large with
  | single d small =>
    rw [Nat.toDigits_of_lt_base small, List.mem_singleton] at member
    exact ⟨d, small, member⟩
  | digit n d small positive ih =>
    rw [← Nat.toDigits_append_toDigits large positive small, Nat.toDigits_of_lt_base small,
      List.mem_append, List.mem_singleton] at member
    rcases member with earlier | last
    · exact ih earlier
    · exact ⟨d, small, last⟩

end Number

/-! ## IPv4 -/

theorem octet_lt (bits : BitVec 32) (index : ℕ) : octet bits index < 256 := Nat.mod_lt _ (by decide)

private theorem readNumber_octet {n : ℕ} {cs : List Char} (small : n < 256) (stops : Stops 10 cs) :
    readNumber 10 3 false 256 (Nat.toDigits 10 n ++ cs) = some (n, cs) := by
  have fits : (Nat.toDigits 10 n).length ≤ 3 :=
    (Nat.length_toDigits_le_iff (by decide) (by decide)).mpr (by omega)
  exact readNumber_toDigits (by decide) (by decide) false fits small stops

private theorem stops_dot (cs : List Char) : Stops 10 ('.' :: cs) := by
  rintro c ⟨⟩
  decide

private theorem readOctet_succ (index : ℕ) {n : ℕ} {cs : List Char} (small : n < 256) (stops : Stops 10 cs) :
    readOctet (index + 1) ('.' :: (Nat.toDigits 10 n ++ cs)) = some (n, cs) := by
  rw [readOctet, readSeparator, if_neg (Nat.succ_ne_zero index), readGivenChar, if_pos rfl]
  exact readNumber_octet small stops

/-- The text of an IPv4 address is read back. -/
theorem readIpv4Addr_displayIpv4Addr (bits : BitVec 32) :
    readIpv4Addr (displayIpv4Addr bits) = some (bits, []) := by
  have small := octet_lt bits
  have first (cs : List Char) :
      readOctet 0 (Nat.toDigits 10 (octet bits 0) ++ '.' :: cs) = some (octet bits 0, '.' :: cs) :=
    readNumber_octet (small 0) (stops_dot cs)
  have second (cs : List Char) := readOctet_succ 0 (small 1) (stops_dot cs)
  have third (cs : List Char) := readOctet_succ 1 (small 2) (stops_dot cs)
  have fourth := readOctet_succ 2 (small 3) (stops_nil 10)
  rw [List.append_nil] at fourth
  have value : ((octet bits 0 * 256 + octet bits 1) * 256 + octet bits 2) * 256 + octet bits 3 =
      bits.toNat := by
    have bound := bits.isLt
    simp only [octet, Nat.reducePow, Nat.reduceSub, Nat.div_one]
    omega
  rw [readIpv4Addr, displayIpv4Addr, first]
  change ((readOctet 1 _).bind _) = _
  rw [second]
  change ((readOctet 2 _).bind _) = _
  rw [third]
  change ((readOctet 3 _).bind _) = _
  rw [fourth]
  change some (BitVec.ofNat 32 _, _) = _
  rw [value, BitVec.ofNat_toNat, BitVec.setWidth_eq]

/-! ## IPv6 -/

/-- What may follow the groups of a part: no dot, no digit, and no further group. -/
structure AfterGroups (cs : List Char) : Prop where
  noDot : '.' ∉ cs
  stops : Stops 16 cs
  noGroup : (readGivenChar ':' cs).bind (readNumber 16 4 true 65536) = none

private theorem afterGroups_nil : AfterGroups [] := ⟨List.not_mem_nil, stops_nil 16, rfl⟩

private theorem stops_colon (cs : List Char) : Stops 16 (':' :: cs) := by
  rintro c ⟨⟩
  decide

private theorem afterGroups_colons {cs : List Char} (noDot : '.' ∉ cs) :
    AfterGroups (':' :: ':' :: cs) := by
  refine ⟨?_, stops_colon _, ?_⟩
  · simpa using noDot
  · rw [readGivenChar, if_pos rfl, Option.bind_some]
    exact readNumber_of_stops (stops_colon cs) 4 65536 true

private theorem dot_notMem_toDigits (n : ℕ) : '.' ∉ Nat.toDigits 16 n := by
  intro member
  obtain ⟨d, small, same⟩ := exists_digitChar_of_mem_toDigits (by decide) member
  have none : ∀ d < 16, '.' ≠ d.digitChar := by decide
  exact none d small same

private theorem dot_notMem_tail (groups : List ℕ) :
    '.' ∉ groups.flatMap fun segment => ':' :: Nat.toDigits 16 segment := by
  simp only [List.mem_flatMap, List.mem_cons, not_exists, not_and, not_or]
  exact fun segment _ => ⟨by decide, dot_notMem_toDigits segment⟩

theorem dot_notMem_fmtSubslice (groups : List ℕ) : '.' ∉ fmtSubslice groups := by
  cases groups with
  | nil => exact List.not_mem_nil
  | cons first tail => exact List.not_mem_append (dot_notMem_toDigits first) (dot_notMem_tail tail)

/-- Without a dot there is no embedded IPv4 address. -/
private theorem embedded_eq_none {cs : List Char} (noDot : '.' ∉ cs) (remaining index : ℕ) :
    (if 0 < remaining then readSeparator ':' index readIpv4Addr cs else none) = none := by
  split_ifs
  · rw [Option.eq_none_iff_forall_not_mem]
    rintro ⟨bits, rest⟩ read
    rw [readSeparator] at read
    split_ifs at read
    · exact noDot (dot_mem_of_readIpv4Addr read)
    · obtain ⟨inner, given, inside⟩ := Option.bind_eq_some_iff.mp read
      cases cs with
      | nil => cases given
      | cons c cs =>
        rw [readGivenChar] at given
        split_ifs at given
        cases given
        exact noDot (List.mem_cons_of_mem c (dot_mem_of_readIpv4Addr inside))
  · rfl

private theorem readNumber_group {n : ℕ} {cs : List Char} (small : n < 65536) (stops : Stops 16 cs) :
    readNumber 16 4 true 65536 (Nat.toDigits 16 n ++ cs) = some (n, cs) := by
  have fits : (Nat.toDigits 16 n).length ≤ 4 :=
    (Nat.length_toDigits_le_iff (by decide) (by decide)).mpr (by omega)
  exact readNumber_toDigits (by decide) (by decide) true fits small stops

private theorem stops_tail (groups : List ℕ) {cs : List Char} (stops : Stops 16 cs) :
    Stops 16 ((groups.flatMap fun segment => ':' :: Nat.toDigits 16 segment) ++ cs) := by
  cases groups with
  | nil => exact stops
  | cons group groups => exact stops_colon _

/-- One group, and the groups behind it. -/
private theorem readGroups_of_group {remaining index group : ℕ} {cs rest rest' : List Char} {groups : List ℕ}
    {embedded : Bool} (plain : (if 0 < remaining then readSeparator ':' index readIpv4Addr cs else none) = none)
    (read : readSeparator ':' index (readNumber 16 4 true 65536) cs = some (group, rest))
    (later : readGroups remaining (index + 1) rest = (groups, embedded, rest')) :
    readGroups (remaining + 1) index cs = (group :: groups, embedded, rest') := by
  rw [readGroups, plain, read]
  dsimp only
  rw [later]

/-- Groups behind another one are read back. -/
private theorem readGroups_tail {groups : List ℕ} (small : ∀ group ∈ groups, group < 65536) {cs : List Char}
    (after : AfterGroups cs) (index : ℕ) {remaining : ℕ} (fits : groups.length ≤ remaining) :
    readGroups remaining (index + 1) ((groups.flatMap fun segment => ':' :: Nat.toDigits 16 segment) ++ cs) =
      (groups, false, cs) := by
  induction groups generalizing index remaining with
  | nil =>
    cases remaining with
    | zero => rfl
    | succ remaining =>
      rw [List.flatMap_nil, List.nil_append, readGroups, embedded_eq_none after.noDot, readSeparator,
        if_neg (Nat.succ_ne_zero index), after.noGroup]
  | cons group groups ih =>
    cases remaining with
    | zero => cases fits
    | succ remaining =>
      have noDot := List.not_mem_append (dot_notMem_tail (group :: groups)) after.noDot
      have later := ih (fun other member => small other (List.mem_cons_of_mem group member)) (index + 1)
        (Nat.le_of_succ_le_succ fits)
      refine readGroups_of_group (embedded_eq_none noDot remaining _) ?_ later
      rw [readSeparator, if_neg (Nat.succ_ne_zero index), List.flatMap_cons, List.cons_append,
        List.cons_append, List.append_assoc, readGivenChar, if_pos rfl, Option.bind_some]
      exact readNumber_group (small group List.mem_cons_self) (stops_tail groups after.stops)

/-- The groups of a part are read back. -/
theorem readGroups_fmtSubslice {groups : List ℕ} (small : ∀ group ∈ groups, group < 65536) {cs : List Char}
    (after : AfterGroups cs) {remaining : ℕ} (fits : groups.length ≤ remaining) :
    readGroups remaining 0 (fmtSubslice groups ++ cs) = (groups, false, cs) := by
  cases remaining with
  | zero =>
    rw [List.length_eq_zero_iff.mp (Nat.le_zero.mp fits)]
    rfl
  | succ remaining =>
    have noDot := List.not_mem_append (dot_notMem_fmtSubslice groups) after.noDot
    cases groups with
    | nil =>
      rw [readGroups, embedded_eq_none noDot, readSeparator, if_pos rfl, fmtSubslice, List.nil_append,
        readNumber_of_stops after.stops]
    | cons first tail =>
      have later := readGroups_tail (fun other member => small other (List.mem_cons_of_mem first member)) after
        0 (Nat.le_of_succ_le_succ fits)
      refine readGroups_of_group (embedded_eq_none noDot remaining 0) ?_ later
      rw [readSeparator, if_pos rfl, fmtSubslice, List.append_assoc]
      exact readNumber_group (small first List.mem_cons_self) (stops_tail tail after.stops)

/-! ## The run of zeros -/

/-- The span lies in the list and holds zeros only. -/
def ZeroSpan (all : List ℕ) (span : Span) : Prop :=
  ∃ front back, all = front ++ List.replicate span.len 0 ++ back ∧ front.length = span.start

/-- The current run ends the list that has been seen. -/
private def EndsIn (seen : List ℕ) (current : Span) : Prop :=
  ∃ front, seen = front ++ List.replicate current.len 0 ∧ (current.len ≠ 0 → front.length = current.start)

private theorem zeroSpan_empty (all : List ℕ) : ZeroSpan all ⟨0, 0⟩ := ⟨[], all, rfl, rfl⟩

private theorem endsIn_empty (seen : List ℕ) : EndsIn seen ⟨0, 0⟩ :=
  ⟨seen, (List.append_nil _).symm, fun none => absurd rfl none⟩

/-- A zero makes the current run longer. -/
private theorem endsIn_succ {seen : List ℕ} {current : Span} (ends : EndsIn seen current) :
    EndsIn (seen ++ [0]) ⟨if current.len = 0 then seen.length else current.start, current.len + 1⟩ := by
  obtain ⟨front, rfl, start⟩ := ends
  refine ⟨front, ?_, fun _ => ?_⟩
  · rw [List.replicate_succ', List.append_assoc]
  · dsimp only
    split_ifs with empty
    · rw [empty, List.replicate_zero, List.append_nil]
    · exact start empty

private theorem zeroSpan_of_endsIn {seen : List ℕ} {current : Span} (rest : List ℕ)
    (ends : EndsIn seen current) (nonempty : current.len ≠ 0) : ZeroSpan (seen ++ rest) current := by
  obtain ⟨front, rfl, start⟩ := ends
  exact ⟨front, rest, rfl, start nonempty⟩

/-- Both spans keep to zeros in every step, so the longest one does in the end. -/
private theorem zeroSpan_innerZeroSpan {seen rest : List ℕ} {longest current : Span}
    (zeros : ZeroSpan (seen ++ rest) longest) (ends : EndsIn seen current) :
    ZeroSpan (seen ++ rest) (innerZeroSpan seen.length longest current rest) := by
  induction rest generalizing seen longest current with
  | nil => exact zeros
  | cons segment rest ih =>
    have next : (seen ++ [segment]).length = seen.length + 1 := by
      rw [List.length_append, List.length_singleton]
    rw [List.append_cons] at zeros ⊢
    rw [innerZeroSpan, ← next]
    rcases eq_or_ne segment 0 with rfl | nonzero
    · rw [if_pos rfl]
      have longest_longer {longer : Span} (ends : EndsIn (seen ++ [0]) longer) (nonempty : longer.len ≠ 0) :
          ZeroSpan (seen ++ [0] ++ rest) (if longer.len > longest.len then longer else longest) := by
        split_ifs
        · exact zeroSpan_of_endsIn rest ends nonempty
        · exact zeros
      have longer := endsIn_succ ends
      exact ih (longest_longer longer (Nat.succ_ne_zero _)) longer
    · rw [if_neg nonzero]
      exact ih zeros (endsIn_empty _)

/-! ## Reading an IPv6 address back -/

theorem length_segments (bits : BitVec 128) : (segments bits).length = 8 := rfl

theorem segments_lt (bits : BitVec 128) : ∀ segment ∈ segments bits, segment < 65536 := by
  intro segment member
  obtain ⟨index, _, rfl⟩ := List.mem_map.mp member
  exact Nat.mod_lt _ (by decide)

theorem ofGroups_segments (bits : BitVec 128) : ofGroups (segments bits) = bits := by
  have bound := bits.isLt
  have value : (segments bits).foldl (fun bits group => bits * 65536 + group) 0 = bits.toNat := by
    simp only [segments, List.range_succ, List.range_zero, List.map_nil, List.map_cons,
      List.nil_append, List.cons_append, List.foldl_cons, List.foldl_nil, Nat.reducePow, Nat.reduceSub,
      Nat.div_one]
    omega
  rw [ofGroups, value, BitVec.ofNat_toNat, BitVec.setWidth_eq]

/-- Eight groups are the address. -/
private theorem readIpv6Addr_whole (bits : BitVec 128) :
    readIpv6Addr (fmtSubslice (segments bits)) = some (bits, []) := by
  have read := readGroups_fmtSubslice (segments_lt bits) afterGroups_nil (Nat.le_of_eq (length_segments bits))
  rw [List.append_nil] at read
  rw [readIpv6Addr, read]
  dsimp only
  rw [if_pos (length_segments bits), ofGroups_segments]

private theorem readIpv6Addr_of_groups {cs inner rest : List Char} {head tail : List ℕ} {embedded : Bool}
    (headRead : readGroups 8 0 cs = (head, false, ':' :: ':' :: inner)) (short : head.length ≠ 8)
    (tailRead : readGroups (8 - (head.length + 1)) 0 inner = (tail, embedded, rest)) :
    readIpv6Addr cs =
      some (ofGroups (head ++ List.replicate (8 - head.length - tail.length) 0 ++ tail), rest) := by
  rw [readIpv6Addr, headRead]
  dsimp only
  rw [if_neg short, if_neg Bool.false_ne_true, readGivenChar, if_pos rfl, Option.bind_eq_bind,
    Option.bind_some, readGivenChar, if_pos rfl, Option.bind_some, tailRead]

/-- Two colons stand for the zeros between two parts. -/
private theorem readIpv6Addr_parts {bits : BitVec 128} {front back : List ℕ} {len : ℕ}
    (parts : segments bits = front ++ List.replicate len 0 ++ back) (several : len > 1) :
    readIpv6Addr (fmtSubslice front ++ ':' :: ':' :: fmtSubslice back) = some (bits, []) := by
  have total : front.length + len + back.length = 8 := by
    rw [← length_segments bits, parts, List.length_append, List.length_append, List.length_replicate]
  have small := segments_lt bits
  rw [parts, List.forall_mem_append, List.forall_mem_append] at small
  have head := readGroups_fmtSubslice small.1.1 (afterGroups_colons (dot_notMem_fmtSubslice back))
    (show front.length ≤ 8 by omega)
  have tail := readGroups_fmtSubslice small.2 afterGroups_nil
    (show back.length ≤ 8 - (front.length + 1) by omega)
  rw [List.append_nil] at tail
  rw [readIpv6Addr_of_groups head (by omega) tail, show 8 - front.length - back.length = len by omega,
    ← parts, ofGroups_segments]

/-- The address of an IPv4 address is written with it. -/
private theorem readIpv6Addr_mapped {bits : BitVec 128} {ipv4 : BitVec 32}
    (mapped : toIpv4Mapped bits = some ipv4) :
    readIpv6Addr ([':', ':', 'f', 'f', 'f', 'f', ':'] ++ displayIpv4Addr ipv4) = some (bits, []) := by
  unfold toIpv4Mapped at mapped
  split at mapped
  · next high low parts =>
    have small := segments_lt bits
    simp only [parts, List.forall_mem_cons] at small
    have value : ipv4.toNat = high * 65536 + low := by
      cases mapped
      rw [BitVec.toNat_ofNat]
      exact Nat.mod_eq_of_lt (by omega)
    have groups : [ipv4.toNat / 65536, ipv4.toNat % 65536] = [high, low] := by
      rw [value, show (high * 65536 + low) / 65536 = high by omega,
        show (high * 65536 + low) % 65536 = low by omega]
    have embedded : readGroups 6 1 (':' :: displayIpv4Addr ipv4) = ([high, low], true, []) := by
      rw [readGroups, if_pos (by decide), readSeparator, if_neg (by decide), readGivenChar, if_pos rfl,
        Option.bind_some, readIpv4Addr_displayIpv4Addr]
      dsimp only
      rw [groups]
    have head (cs : List Char) : readGroups 8 0 (':' :: cs) = ([], false, ':' :: cs) := rfl
    have tail : readGroups 7 0 ('f' :: 'f' :: 'f' :: 'f' :: ':' :: displayIpv4Addr ipv4) =
        ([65535, high, low], true, []) := readGroups_of_group rfl rfl embedded
    simp only [List.cons_append, List.nil_append]
    rw [readIpv6Addr_of_groups (head _) (by decide) tail, ← ofGroups_segments bits, parts]
    rfl
  · cases mapped

theorem readIpv6Addr_displayIpv6Addr (bits : BitVec 128) :
    readIpv6Addr (displayIpv6Addr bits) = some (bits, []) := by
  rw [displayIpv6Addr]
  cases mapped : toIpv4Mapped bits with
  | some ipv4 => exact readIpv6Addr_mapped mapped
  | none =>
    obtain ⟨front, back, parts, start⟩ :
        ZeroSpan (segments bits) (innerZeroSpan 0 ⟨0, 0⟩ ⟨0, 0⟩ (segments bits)) :=
      zeroSpan_innerZeroSpan (zeroSpan_empty ([] ++ segments bits)) (endsIn_empty [])
    dsimp only
    generalize innerZeroSpan 0 ⟨0, 0⟩ ⟨0, 0⟩ (segments bits) = zeroes at parts start ⊢
    split_ifs with several
    · have taken : (segments bits).take zeroes.start = front := by
        rw [parts, List.append_assoc, ← start, List.take_left]
      have dropped : (segments bits).drop (zeroes.start + zeroes.len) = back := by
        have length : (front ++ List.replicate zeroes.len 0).length = zeroes.start + zeroes.len := by
          rw [List.length_append, List.length_replicate, start]
        rw [parts, ← length, List.drop_left]
      rw [taken, dropped]
      exact readIpv6Addr_parts parts several
    · exact readIpv6Addr_whole bits

/-- The text of an IPv6 address is not taken for an IPv4 address. -/
theorem readIpv4Addr_displayIpv6Addr (bits : BitVec 128) : readIpv4Addr (displayIpv6Addr bits) = none := by
  have undotted {cs : List Char} (noDot : '.' ∉ cs) : readIpv4Addr cs = none := by
    rw [Option.eq_none_iff_forall_not_mem]
    exact fun _ read => noDot (dot_mem_of_readIpv4Addr read)
  rw [displayIpv6Addr]
  cases toIpv4Mapped bits with
  | some ipv4 => rfl
  | none =>
    dsimp only
    split_ifs
    · refine undotted (List.not_mem_append (dot_notMem_fmtSubslice _) ?_)
      exact (afterGroups_colons (dot_notMem_fmtSubslice _)).noDot
    · exact undotted (dot_notMem_fmtSubslice _)

/-- The text of an address is read back. -/
theorem parseIpAddr_displayIpAddr (address : IpAddr) : parseIpAddr (displayIpAddr address) = some address := by
  cases address with
  | v4 bits => rw [displayIpAddr, parseIpAddr, String.toList_ofList, readIpAddr, readIpv4Addr_displayIpv4Addr]
  | v6 bits =>
    rw [displayIpAddr, parseIpAddr, String.toList_ofList, readIpAddr, readIpv4Addr_displayIpv6Addr,
      readIpv6Addr_displayIpv6Addr]
    rfl

end NetHound.Net
