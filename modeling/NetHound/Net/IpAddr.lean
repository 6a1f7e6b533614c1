import Mathlib.Data.List.Basic
import Mathlib.Data.Nat.Notation

/-! # IP addresses as the standard library parses them

The address types and the text grammar of `std::net::IpAddr`, `u32` and `str::split_once`. A
reader consumes a prefix of the remaining characters and fails without consuming anything. An
address text never contains the slash that separates a CIDR's network from its prefix length, so
a host CIDR built from an address text splits back into that text.
-/

namespace NetHound.Net

/-- `std::net::IpAddr`, each family by the integer it converts to. -/
inductive IpAddr where
  | v4 (bits : BitVec 32)
  | v6 (bits : BitVec 128)
deriving DecidableEq, Repr

/-- `char::to_digit`. -/
def toDigit (radix : ℕ) (c : Char) : Option ℕ :=
  let digit :=
    if '0' ≤ c ∧ c ≤ '9' then some (c.toNat - '0'.toNat)
    else if 'a' ≤ c ∧ c ≤ 'z' then some (c.toNat - 'a'.toNat + 10)
    else if 'A' ≤ c ∧ c ≤ 'Z' then some (c.toNat - 'A'.toNat + 10)
    else none
  digit.filter (· < radix)

def readGivenChar (target : Char) : List Char → Option (List Char)
  | [] => none
  | c :: rest => if c = target then some rest else none

/-- A separator precedes every group but the first. -/
def readSeparator {α : Type} (separator : Char) (index : ℕ)
    (inner : List Char → Option (α × List Char)) (cs : List Char) : Option (α × List Char) :=
  if index = 0 then inner cs else (readGivenChar separator cs).bind inner

/-- The digit loop: the value, the number of digits, and what follows them. -/
def readDigits (radix maxDigits : ℕ) : ℕ → ℕ → List Char → Option (ℕ × ℕ × List Char)
  | result, count, [] => some (result, count, [])
  | result, count, c :: rest =>
      match toDigit radix c with
      | none => some (result, count, c :: rest)
      | some digit =>
          if count + 1 > maxDigits then none
          else readDigits radix maxDigits (result * radix + digit) (count + 1) rest

/-- `Parser::read_number` for a target type with the given number of values. -/
def readNumber (radix maxDigits : ℕ) (allowZeroPrefix : Bool) (size : ℕ) (cs : List Char) :
    Option (ℕ × List Char) :=
  match readDigits radix maxDigits 0 0 cs with
  | none => none
  | some (result, count, rest) =>
      if count = 0 then none
      else if !allowZeroPrefix && cs.head? == some '0' && decide (count > 1) then none
      else if result < size then some (result, rest) else none

def readOctet (index : ℕ) : List Char → Option (ℕ × List Char) :=
  readSeparator '.' index (readNumber 10 3 false 256)

def readIpv4Addr (cs : List Char) : Option (BitVec 32 × List Char) := do
  let (first, cs) ← readOctet 0 cs
  let (second, cs) ← readOctet 1 cs
  let (third, cs) ← readOctet 2 cs
  let (fourth, cs) ← readOctet 3 cs
  some (.ofNat 32 (((first * 256 + second) * 256 + third) * 256 + fourth), cs)

/-- The nested `read_groups` of `read_ipv6_addr`: up to `remaining` groups from position `index`,
and whether they end in an embedded IPv4 address. -/
def readGroups : ℕ → ℕ → List Char → List ℕ × Bool × List Char
  | 0, _, cs => ([], false, cs)
  | remaining + 1, index, cs =>
      let ipv4 := if 0 < remaining then readSeparator ':' index readIpv4Addr cs else none
      match ipv4 with
      | some (address, rest) => ([address.toNat / 65536, address.toNat % 65536], true, rest)
      | none =>
          match readSeparator ':' index (readNumber 16 4 true 65536) cs with
          | none => ([], false, cs)
          | some (group, rest) =>
              let (groups, embedded, rest) := readGroups remaining (index + 1) rest
              (group :: groups, embedded, rest)

def ofGroups (groups : List ℕ) : BitVec 128 :=
  .ofNat 128 (groups.foldl (fun bits group => bits * 65536 + group) 0)

def readIpv6Addr (cs : List Char) : Option (BitVec 128 × List Char) :=
  let (head, headIpv4, rest) := readGroups 8 0 cs
  if head.length = 8 then some (ofGroups head, rest)
  else if headIpv4 then none
  else do
    let rest ← readGivenChar ':' rest
    let rest ← readGivenChar ':' rest
    let (tail, _, rest) := readGroups (8 - (head.length + 1)) 0 rest
    some (ofGroups (head ++ List.replicate (8 - head.length - tail.length) 0 ++ tail), rest)

def readIpAddr (cs : List Char) : Option (IpAddr × List Char) :=
  match readIpv4Addr cs with
  | some (bits, rest) => some (.v4 bits, rest)
  | none => (readIpv6Addr cs).map fun (bits, rest) => (.v6 bits, rest)

/-- `str::parse::<IpAddr>`: the whole text must be consumed. -/
def parseIpAddr (text : String) : Option IpAddr :=
  match readIpAddr text.toList with
  | some (address, []) => some address
  | _ => none

/-- `str::parse::<u32>`: an optional plus sign, then decimal digits in range. -/
def parseU32 (text : String) : Option ℕ :=
  let digits := match text.toList with
    | '+' :: rest => rest
    | cs => cs
  if digits.isEmpty then none
  else do
    let values ← digits.mapM (toDigit 10)
    let value := values.foldl (fun value digit => value * 10 + digit) 0
    if value < UInt32.size then some value else none

/-- `str::split_once`. -/
def splitOnce (separator : Char) (text : String) : Option (String × String) :=
  let before := text.toList.takeWhile (· ≠ separator)
  match text.toList.dropWhile (· ≠ separator) with
  | [] => none
  | _ :: after => some (String.ofList before, String.ofList after)

example : parseIpAddr "10.0.0.10" = some (.v4 0x0A00000A) := by decide
example : parseIpAddr "10.0.0.010" = none := by decide
example : parseIpAddr "2001:db8::ffff:1.2.3.4" = some (.v6 0x20010db8000000000000ffff01020304) := by
  decide
example : splitOnce '/' "10.0.0.0/8" = some ("10.0.0.0", "8") := by decide

/-- A reader step that consumed no slash. -/
private def Consumes (cs rest : List Char) : Prop :=
  ∃ consumed, cs = consumed ++ rest ∧ '/' ∉ consumed

private theorem Consumes.refl (cs : List Char) : Consumes cs cs := ⟨[], rfl, List.not_mem_nil⟩

private theorem Consumes.trans {cs middle rest : List Char} (first : Consumes cs middle)
    (second : Consumes middle rest) : Consumes cs rest := by
  obtain ⟨left, rfl, noLeft⟩ := first
  obtain ⟨right, rfl, noRight⟩ := second
  exact ⟨left ++ right, (List.append_assoc ..).symm, by simp [noLeft, noRight]⟩

private theorem Consumes.cons {c : Char} (cs : List Char) (notSlash : c ≠ '/') : Consumes (c :: cs) cs :=
  ⟨[c], rfl, by simpa using notSlash.symm⟩

private theorem readGivenChar_consumes {target : Char} {cs rest : List Char}
    (notSlash : target ≠ '/') (read : readGivenChar target cs = some rest) : Consumes cs rest := by
  cases cs with
  | nil => cases read
  | cons c cs =>
    simp only [readGivenChar] at read
    split_ifs at read with same
    cases read
    exact .cons rest (same ▸ notSlash)

private theorem readSeparator_consumes {α : Type} {separator : Char} {index : ℕ}
    {inner : List Char → Option (α × List Char)} {cs rest : List Char} {value : α}
    (notSlash : separator ≠ '/')
    (innerConsumes : ∀ cs value rest, inner cs = some (value, rest) → Consumes cs rest)
    (read : readSeparator separator index inner cs = some (value, rest)) : Consumes cs rest := by
  unfold readSeparator at read
  split at read
  · exact innerConsumes _ _ _ read
  · obtain ⟨middle, given, inside⟩ := Option.bind_eq_some_iff.mp read
    exact (readGivenChar_consumes notSlash given).trans (innerConsumes _ _ _ inside)

private theorem toDigit_slash (radix : ℕ) : toDigit radix '/' = none := by
  simp [toDigit]

private theorem readDigits_consumes {radix maxDigits : ℕ} {cs rest : List Char}
    {result count total digits : ℕ}
    (read : readDigits radix maxDigits result count cs = some (total, digits, rest)) :
    Consumes cs rest := by
  induction cs generalizing result count with
  | nil => cases read; exact .refl _
  | cons c cs ih =>
    simp only [readDigits] at read
    split at read
    · cases read; exact .refl _
    · next digit isDigit =>
      split_ifs at read
      have notSlash : c ≠ '/' := by rintro rfl; simp [toDigit_slash] at isDigit
      exact (Consumes.cons cs notSlash).trans (ih read)

private theorem readNumber_consumes {radix maxDigits size : ℕ} {allowZeroPrefix : Bool}
    (cs : List Char) (value : ℕ) (rest : List Char)
    (read : readNumber radix maxDigits allowZeroPrefix size cs = some (value, rest)) :
    Consumes cs rest := by
  unfold readNumber at read
  split at read
  · cases read
  · next digits =>
    split_ifs at read
    cases read
    exact readDigits_consumes digits

private theorem readIpv4Addr_consumes (cs : List Char) (bits : BitVec 32) (rest : List Char)
    (read : readIpv4Addr cs = some (bits, rest)) : Consumes cs rest := by
  have octet {index value : ℕ} {cs rest : List Char}
      (read : readOctet index cs = some (value, rest)) : Consumes cs rest :=
    readSeparator_consumes (by decide) readNumber_consumes read
  simp only [readIpv4Addr, bind, Option.bind_eq_some_iff, Prod.exists] at read
  obtain ⟨_, _, first, _, _, second, _, _, third, _, _, fourth, done⟩ := read
  cases done
  exact (octet first).trans ((octet second).trans ((octet third).trans (octet fourth)))

/-- An IPv4 text has a dot in it. -/
theorem dot_mem_of_readIpv4Addr {cs rest : List Char} {bits : BitVec 32}
    (read : readIpv4Addr cs = some (bits, rest)) : '.' ∈ cs := by
  simp only [readIpv4Addr, bind, Option.bind_eq_some_iff, Prod.exists] at read
  obtain ⟨_, after, first, _, _, second, _⟩ := read
  obtain ⟨consumed, rfl, _⟩ : Consumes cs after := readSeparator_consumes (by decide) readNumber_consumes first
  obtain ⟨_, given, _⟩ := Option.bind_eq_some_iff.mp second
  apply List.mem_append_right
  cases after with
  | nil => cases given
  | cons c after =>
    simp only [readGivenChar] at given
    split_ifs at given with same
    rw [same]
    exact List.mem_cons_self

private theorem readGroups_consumes (remaining index : ℕ) (cs : List Char) :
    Consumes cs (readGroups remaining index cs).2.2 := by
  induction remaining generalizing index cs with
  | zero => exact .refl _
  | succ remaining ih =>
    simp only [readGroups]
    split
    · next embedded =>
      split_ifs at embedded
      exact readSeparator_consumes (by decide) readIpv4Addr_consumes embedded
    · split
      · exact .refl _
      · next read =>
        exact (readSeparator_consumes (by decide) readNumber_consumes read).trans (ih _ _)

private theorem readIpv6Addr_consumes {cs rest : List Char} {bits : BitVec 128}
    (read : readIpv6Addr cs = some (bits, rest)) : Consumes cs rest := by
  have head := readGroups_consumes 8 0 cs
  simp only [readIpv6Addr] at read
  split_ifs at read
  · cases read
    exact head
  · simp only [bind, Option.bind_eq_some_iff] at read
    obtain ⟨afterColon, first, afterColons, second, done⟩ := read
    cases done
    exact head.trans ((readGivenChar_consumes (by decide) first).trans
      ((readGivenChar_consumes (by decide) second).trans (readGroups_consumes _ _ _)))

private theorem readIpAddr_consumes {cs rest : List Char} {address : IpAddr}
    (read : readIpAddr cs = some (address, rest)) : Consumes cs rest := by
  unfold readIpAddr at read
  split at read
  · next v4 =>
    cases read
    exact readIpv4Addr_consumes _ _ _ v4
  · obtain ⟨⟨bits, after⟩, v6, done⟩ := Option.map_eq_some_iff.mp read
    cases done
    exact readIpv6Addr_consumes v6

/-- No address text contains a slash. -/
theorem slash_notMem_of_parseIpAddr {text : String} {address : IpAddr}
    (parsed : parseIpAddr text = some address) : '/' ∉ text.toList := by
  unfold parseIpAddr at parsed
  split at parsed
  · next read =>
    obtain ⟨consumed, all, noSlash⟩ := readIpAddr_consumes read
    rw [all, List.append_nil]
    exact noSlash
  · cases parsed

/-- Splitting at a separator recovers a text that does not contain it. -/
theorem splitOnce_append {separator : Char} {text : String} (absent : separator ∉ text.toList)
    (suffix : String) : splitOnce separator (text ++ separator.toString ++ suffix) = some (text, suffix) := by
  have before : (text.toList ++ separator :: suffix.toList).takeWhile (· ≠ separator) = text.toList := by
    rw [List.takeWhile_append_of_pos (by intro c member; simpa using ne_of_mem_of_not_mem member absent)]
    simp
  have after : (text.toList ++ separator :: suffix.toList).dropWhile (· ≠ separator) =
      separator :: suffix.toList := by
    rw [List.dropWhile_append_of_pos (by intro c member; simpa using ne_of_mem_of_not_mem member absent)]
    simp
  have chars : (text ++ separator.toString ++ suffix).toList = text.toList ++ separator :: suffix.toList := by
    simp
  simp only [splitOnce, chars, before, after, String.ofList_toList]

end NetHound.Net
