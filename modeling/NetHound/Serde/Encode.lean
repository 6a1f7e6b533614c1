import Mathlib.Logic.Function.Basic
import NetHound.Serde.Value

/-! # Encoding structs into self-describing values

What derived encoders write: a struct is a map with one entry for each field, a flattened part writes its
entries among those of its siblings. A field is read back when its value is the only one under its key, so
parts that keep to keys of their own do not disturb each other.
-/

namespace Serde

variable {α : Type}

def Value.ofOption (encode : α → Value) : Option α → Value
  | none => .null
  | some a => encode a

def Value.ofList (encode : α → Value) (l : List α) : Value := .seq (l.map encode)

/-- The decoder gives back what the encoder has taken. -/
def RoundTrips (decode : Value → Option α) (encode : α → Value) : Prop := ∀ a, decode (encode a) = some a

section RoundTrips

variable {decode : Value → Option α} {encode : α → Value} (roundTrips : RoundTrips decode encode)

include roundTrips

/-- What is read back is told apart. -/
theorem RoundTrips.injective : Function.Injective encode := by
  intro a b same
  have read := roundTrips a
  rw [same, roundTrips b] at read
  exact (Option.some.inj read).symm

theorem RoundTrips.asList : RoundTrips (Value.asList decode) (Value.ofList encode) := by
  intro l
  rw [Value.ofList, Value.asList]
  induction l with
  | nil => rfl
  | cons a l ih =>
    rw [List.map_cons, List.mapM_cons, roundTrips a, ih]
    rfl

/-- An optional value is read back when no value is encoded as null. -/
theorem RoundTrips.asOption (present : ∀ a, encode a ≠ .null) :
    RoundTrips (Value.asOption decode) (Value.ofOption encode) := by
  intro a
  cases a with
  | none => rfl
  | some a =>
    rw [Value.ofOption, Value.asOption]
    · rw [roundTrips a]
      rfl
    · exact present a

theorem RoundTrips.required {name : String} {entries : Entries} {a : α}
    (only : valuesAt name entries = [encode a]) : required name decode entries = some a :=
  required_eq_some_iff.mpr ⟨encode a, only, roundTrips a⟩

theorem RoundTrips.optional (present : ∀ a, encode a ≠ .null) {name : String} {entries : Entries}
    {a : Option α} (only : valuesAt name entries = [Value.ofOption encode a]) :
    optional name decode entries = some a := by
  rw [Serde.optional, only]
  exact roundTrips.asOption present a

end RoundTrips

/-! ## Parts of a map -/

theorem valuesAt_append (name : String) (entries entries' : Entries) :
    valuesAt name (entries ++ entries') = valuesAt name entries ++ valuesAt name entries' :=
  List.filterMap_append

/-- A part keeps to its keys. -/
def Keyed (keys : List String) (entries : Entries) : Prop := ∀ entry ∈ entries, entry.1 ∈ keys

theorem Keyed.valuesAt_eq_nil {keys : List String} {entries : Entries} (keyed : Keyed keys entries)
    {name : String} (foreign : name ∉ keys) : valuesAt name entries = [] := by
  rw [valuesAt, List.filterMap_eq_nil_iff]
  intro entry member
  apply if_neg
  rintro rfl
  exact foreign (keyed entry member)

/-- A field is read the same in whatever order the entries stand. -/
theorem required_perm {entries entries' : Entries} (perm : entries.Perm entries') (name : String)
    (decode : Value → Option α) : required name decode entries = required name decode entries' := by
  have values : (valuesAt name entries).Perm (valuesAt name entries') := perm.filterMap _
  rw [required, required]
  generalize valuesAt name entries = l, valuesAt name entries' = l' at values
  rcases l with _ | ⟨value, _ | ⟨again, rest⟩⟩
  · rw [List.nil_perm.mp values]
  · rw [List.singleton_perm.mp values]
  · have length := values.length_eq
    rcases l' with _ | ⟨value', _ | ⟨again', rest'⟩⟩
    · cases length
    · cases length
    · rfl

end Serde
