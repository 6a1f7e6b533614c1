import Mathlib.Data.Int.Notation
import Mathlib.Data.List.Forall2

/-! # Decoding structs from self-describing values

The part of serde's data model that derived decoders of plain data use. A struct is read off a map by a
visitor that fills one slot a field, in the order of the entries: a repeated field or a rejected value ends
it, entries it does not recognize are left over. Left-over entries are what flattened fields read, and what
the variant of an internally tagged enumeration reads beside its tag. Whatever the order, a struct is read
field by field, each by its own key.
-/

namespace Serde

variable {α β σ τ : Type}

/-- A self-describing value; the keys of a map may repeat. -/
inductive Value where
  | null
  | bool (value : Bool)
  | integer (value : ℤ)
  | string (value : String)
  | seq (items : List Value)
  | map (entries : List (String × Value))

abbrev Entries := List (String × Value)

namespace Value

def asBool : Value → Option Bool
  | bool value => some value
  | _ => none

def asInteger : Value → Option ℤ
  | integer value => some value
  | _ => none

def asString : Value → Option String
  | string value => some value
  | _ => none

def asList (decode : Value → Option α) : Value → Option (List α)
  | seq items => items.mapM decode
  | _ => none

/-- An optional value that is there: null or the value itself. -/
def asOption (decode : Value → Option α) : Value → Option (Option α)
  | null => some none
  | value => (decode value).map some

/-- A variant of an enumeration in a buffered value: by its name or by its index. -/
def asVariant (names : List String) : Value → Option String
  | string name => if name ∈ names then some name else none
  | integer index => if 0 ≤ index then names[index.toNat]? else none
  | _ => none

end Value

/-! ## Visitors -/

/-- A struct visitor: the keys it recognizes, its empty slots, what the value of a recognized key does to
them, and the struct of filled slots. -/
structure Visitor (σ α : Type) where
  recognizes : String → Bool
  start : σ
  accept : σ → String → Value → Option σ
  finish : σ → Option α

/-- Recognized entries are taken in order until one is rejected; the other entries stay. -/
def Visitor.visit (visitor : Visitor σ α) : σ → Entries → Option σ × Entries
  | slots, [] => (some slots, [])
  | slots, (key, value) :: rest =>
      if visitor.recognizes key then
        match visitor.accept slots key value with
        | none => (none, rest)
        | some slots => visitor.visit slots rest
      else
        let (filled, left) := visitor.visit slots rest
        (filled, (key, value) :: left)

/-- The struct, and the entries left for the flattened fields after it. -/
def Visitor.read (visitor : Visitor σ α) (entries : Entries) : Option α × Entries :=
  let (filled, left) := visitor.visit visitor.start entries
  (filled.bind visitor.finish, left)

/-- A struct without flattened fields ignores what is left over. -/
def Visitor.struct (visitor : Visitor σ α) : Value → Option α
  | .map entries => (visitor.read entries).1
  | _ => none

private def fillSlot (decode : Value → Option α) (slot : Option α) (value : Value) : Option (Option α) :=
  match slot with
  | some _ => none
  | none => (decode value).map some

/-- One field that has to be there. -/
def field (name : String) (decode : Value → Option α) : Visitor (Option α) α where
  recognizes key := key == name
  start := none
  accept slot _ value := fillSlot decode slot value
  finish slot := slot

/-- One field that may be absent. -/
def optionalField (name : String) (decode : Value → Option α) :
    Visitor (Option (Option α)) (Option α) where
  recognizes key := key == name
  start := none
  accept slot _ value := fillSlot (Value.asOption decode) slot value
  finish slot := some slot.join

/-- Two visitors side by side. -/
def Visitor.both (first : Visitor σ α) (second : Visitor τ β) : Visitor (σ × τ) (α × β) where
  recognizes key := first.recognizes key || second.recognizes key
  start := (first.start, second.start)
  accept slots key value :=
    if first.recognizes key then (first.accept slots.1 key value).map (·, slots.2)
    else (second.accept slots.2 key value).map (slots.1, ·)
  finish slots := do return (← first.finish slots.1, ← second.finish slots.2)

/-! ## Field by field -/

/-- The values under a key. -/
def valuesAt (name : String) (entries : Entries) : List Value :=
  entries.filterMap fun entry => if entry.1 = name then some entry.2 else none

/-- What a field reads that has to be there: its one value. -/
def required (name : String) (decode : Value → Option α) (entries : Entries) : Option α :=
  match valuesAt name entries with
  | [value] => decode value
  | _ => none

/-- What a field reads that may be absent. -/
def optional (name : String) (decode : Value → Option α) (entries : Entries) : Option (Option α) :=
  match valuesAt name entries with
  | [] => some none
  | [value] => Value.asOption decode value
  | _ => none

@[simp] theorem valuesAt_nil (name : String) : valuesAt name [] = [] := rfl

theorem valuesAt_cons (name key : String) (value : Value) (rest : Entries) :
    valuesAt name ((key, value) :: rest) =
      if key = name then value :: valuesAt name rest else valuesAt name rest := by
  rw [valuesAt, List.filterMap_cons]
  split_ifs <;> rfl

/-- Dropping keys drops their values and no others. -/
theorem valuesAt_filter (keep : String → Bool) (name : String) (entries : Entries) :
    valuesAt name (entries.filter fun entry => keep entry.1) =
      if keep name then valuesAt name entries else [] := by
  rw [valuesAt, List.filterMap_filter]
  split_ifs with kept
  · apply List.filterMap_congr
    intro entry _
    by_cases own : entry.1 = name
    · rw [own, if_pos kept]
    · rw [if_neg own, ite_self]
  · rw [List.filterMap_eq_nil_iff]
    intro entry _
    by_cases own : entry.1 = name
    · rw [own, if_neg kept]
    · rw [if_neg own, ite_self]

/-- Entries a visitor does not recognize survive it, whether or not it finishes. -/
theorem valuesAt_visit (visitor : Visitor σ α) {name : String} (foreign : visitor.recognizes name = false)
    (slots : σ) (entries : Entries) :
    valuesAt name (visitor.visit slots entries).2 = valuesAt name entries := by
  induction entries generalizing slots with
  | nil => rfl
  | cons entry rest ih =>
    obtain ⟨key, value⟩ := entry
    rw [Visitor.visit, valuesAt_cons]
    by_cases own : visitor.recognizes key = true
    · have apart : key ≠ name := by
        rintro rfl
        rw [foreign] at own
        cases own
      rw [if_pos own, if_neg apart]
      split
      · rfl
      · exact ih _
    · rw [if_neg own, valuesAt_cons, ih]

theorem valuesAt_read (visitor : Visitor σ α) {name : String} (foreign : visitor.recognizes name = false)
    (entries : Entries) : valuesAt name (visitor.read entries).2 = valuesAt name entries :=
  valuesAt_visit visitor foreign visitor.start entries

theorem required_eq_some_iff {name : String} {decode : Value → Option α} {entries : Entries} {a : α} :
    required name decode entries = some a ↔
      ∃ value, valuesAt name entries = [value] ∧ decode value = some a := by
  rw [required]
  rcases valuesAt name entries with _ | ⟨value, _ | ⟨again, rest⟩⟩
  · simp
  · simp
  · simp

theorem required_congr {name : String} {decode : Value → Option α} {entries entries' : Entries}
    (same : valuesAt name entries = valuesAt name entries') :
    required name decode entries = required name decode entries' := by
  rw [required, required, same]

/-- The slots a visitor ends with. -/
private def Visitor.run (visitor : Visitor σ α) : σ → Entries → Option σ
  | slots, [] => some slots
  | slots, (key, value) :: rest =>
      if visitor.recognizes key then
        (visitor.accept slots key value).bind fun slots => visitor.run slots rest
      else visitor.run slots rest

private theorem run_cons (visitor : Visitor σ α) (slots : σ) (key : String) (value : Value)
    (rest : Entries) : visitor.run slots ((key, value) :: rest) =
      if visitor.recognizes key then
        (visitor.accept slots key value).bind fun slots => visitor.run slots rest
      else visitor.run slots rest := rfl

private theorem visit_fst (visitor : Visitor σ α) (slots : σ) (entries : Entries) :
    (visitor.visit slots entries).1 = visitor.run slots entries := by
  induction entries generalizing slots with
  | nil => rfl
  | cons entry rest ih =>
    obtain ⟨key, value⟩ := entry
    rw [Visitor.visit, run_cons]
    by_cases own : visitor.recognizes key = true
    · rw [if_pos own, if_pos own]
      cases visitor.accept slots key value with
      | none => rfl
      | some slots => exact ih slots
    · rw [if_neg own, if_neg own]
      exact ih slots

private theorem read_fst (visitor : Visitor σ α) (entries : Entries) :
    (visitor.read entries).1 = (visitor.run visitor.start entries).bind visitor.finish := by
  rw [← visit_fst]
  rfl

/-- No key is recognized by both. -/
def Visitor.Apart (first : Visitor σ α) (second : Visitor τ β) : Prop :=
  ∀ key, first.recognizes key = true → second.recognizes key = false

private theorem run_both {first : Visitor σ α} {second : Visitor τ β} (apart : first.Apart second)
    (slots : σ) (slots' : τ) (entries : Entries) :
    (first.both second).run (slots, slots') entries =
      (first.run slots entries).bind fun slots =>
        (second.run slots' entries).map fun slots' => (slots, slots') := by
  induction entries generalizing slots slots' with
  | nil => rfl
  | cons entry rest ih =>
    obtain ⟨key, value⟩ := entry
    rw [run_cons, run_cons, run_cons]
    by_cases own : first.recognizes key = true
    · have recognized : (first.both second).recognizes key = true := by simp [Visitor.both, own]
      rw [if_pos recognized, if_pos own, apart key own, if_neg Bool.false_ne_true]
      simp only [Visitor.both, own, if_true]
      cases first.accept slots key value with
      | none => rfl
      | some slots => exact ih slots slots'
    · by_cases other : second.recognizes key = true
      · have recognized : (first.both second).recognizes key = true := by simp [Visitor.both, other]
        rw [if_pos recognized, if_neg own, if_pos other]
        simp only [Visitor.both, own]
        cases second.accept slots' key value with
        | none => cases first.run slots rest <;> rfl
        | some slots' => exact ih slots slots'
      · have foreign : ¬ (first.both second).recognizes key = true := by
          simp [Visitor.both, own, other]
        rw [if_neg foreign, if_neg own, if_neg other]
        exact ih slots slots'

/-- Two visitors without a common key read side by side what each reads alone. -/
theorem read_both {first : Visitor σ α} {second : Visitor τ β} (apart : first.Apart second)
    (entries : Entries) :
    ((first.both second).read entries).1 =
      (do return (← (first.read entries).1, ← (second.read entries).1)) := by
  rw [read_fst, read_fst, read_fst]
  change ((first.both second).run (first.start, second.start) entries).bind _ = _
  rw [run_both apart]
  cases first.run first.start entries with
  | none => rfl
  | some slots =>
    cases second.run second.start entries with
    | none =>
      change none = (first.finish slots).bind fun _ => none
      cases first.finish slots <;> rfl
    | some slots' => rfl

private theorem run_field (name : String) (decode : Value → Option α) (slot : Option α)
    (entries : Entries) :
    (field name decode).run slot entries = (valuesAt name entries).foldlM (fillSlot decode) slot := by
  induction entries generalizing slot with
  | nil => rfl
  | cons entry rest ih =>
    obtain ⟨key, value⟩ := entry
    rw [run_cons, valuesAt_cons]
    by_cases own : key = name
    · rw [if_pos (by simpa [field] using own), if_pos own, List.foldlM_cons]
      exact congrArg _ (funext ih)
    · rw [if_neg (by simpa [field] using own), if_neg own]
      exact ih slot

private theorem foldlM_fillSlot (decode : Value → Option α) (values : List Value) :
    values.foldlM (fillSlot decode) none =
      match values with
      | [] => some none
      | [value] => (decode value).map some
      | _ => none := by
  rcases values with _ | ⟨value, _ | ⟨again, rest⟩⟩
  · rfl
  · cases decoded : decode value <;> simp [fillSlot, decoded]
  · cases decoded : decode value <;> simp [fillSlot, decoded]

/-- A field reads the one value under its key. -/
theorem read_field (name : String) (decode : Value → Option α) (entries : Entries) :
    ((field name decode).read entries).1 = required name decode entries := by
  rw [read_fst, required]
  change ((field name decode).run none entries).bind _ = _
  rw [run_field, foldlM_fillSlot]
  rcases valuesAt name entries with _ | ⟨value, _ | ⟨again, rest⟩⟩
  · rfl
  · dsimp only
    cases decode value <;> rfl
  · rfl

private theorem run_optionalField (name : String) (decode : Value → Option α) (slot : Option (Option α))
    (entries : Entries) : (optionalField name decode).run slot entries =
      (field name (Value.asOption decode)).run slot entries := by
  induction entries generalizing slot with
  | nil => rfl
  | cons entry rest ih =>
    obtain ⟨key, value⟩ := entry
    rw [run_cons, run_cons]
    apply ite_congr rfl
    · intro _
      exact congrArg _ (funext ih)
    · intro _
      exact ih slot

/-- A field that may be absent reads the one value under its key, if there is one. -/
theorem read_optionalField (name : String) (decode : Value → Option α) (entries : Entries) :
    ((optionalField name decode).read entries).1 = optional name decode entries := by
  rw [read_fst, optional]
  change ((optionalField name decode).run none entries).bind _ = _
  rw [run_optionalField, run_field, foldlM_fillSlot]
  rcases valuesAt name entries with _ | ⟨value, _ | ⟨again, rest⟩⟩
  · rfl
  · dsimp only
    cases Value.asOption decode value <;> rfl
  · rfl

/-- A field in front of a visitor without its key reads the value under it. -/
theorem read_field_both {name : String} {decode : Value → Option α} {rest : Visitor τ β}
    (fresh : rest.recognizes name = false) (entries : Entries) :
    (((field name decode).both rest).read entries).1 =
      (do return (← required name decode entries, ← (rest.read entries).1)) := by
  rw [read_both, read_field]
  intro key own
  rw [show key = name from beq_iff_eq.mp own, fresh]

/-- A field in front that may be absent. -/
theorem read_optionalField_both {name : String} {decode : Value → Option α} {rest : Visitor τ β}
    (fresh : rest.recognizes name = false) (entries : Entries) :
    (((optionalField name decode).both rest).read entries).1 =
      (do return (← optional name decode entries, ← (rest.read entries).1)) := by
  rw [read_both, read_optionalField]
  intro key own
  rw [show key = name from beq_iff_eq.mp own, fresh]

/-! ## Inside a document -/

/-- The values under a key of a document. -/
def under (name : String) : Value → List Value
  | .map entries => valuesAt name entries
  | _ => []

def itemsOf : Value → List Value
  | .seq items => items
  | _ => []

/-- Rewrites the values under a key. -/
def rewriteAt (name : String) (f : Value → Value) (entries : Entries) : Entries :=
  entries.map fun entry => if entry.1 = name then (entry.1, f entry.2) else entry

def mapUnder (name : String) (f : Value → Value) : Value → Value
  | .map entries => .map (rewriteAt name f entries)
  | value => value

def mapItems (f : Value → Value) : Value → Value
  | .seq items => .seq (items.map f)
  | value => value

theorem valuesAt_rewriteAt_self (name : String) (f : Value → Value) (entries : Entries) :
    valuesAt name (rewriteAt name f entries) = (valuesAt name entries).map f := by
  rw [rewriteAt, valuesAt, List.filterMap_map, valuesAt, List.map_filterMap]
  apply List.filterMap_congr
  intro entry _
  by_cases own : entry.1 = name
  · simp [own]
  · simp [own]

theorem valuesAt_rewriteAt_of_ne {name name' : String} (apart : name ≠ name') (f : Value → Value)
    (entries : Entries) : valuesAt name (rewriteAt name' f entries) = valuesAt name entries := by
  rw [rewriteAt, valuesAt, List.filterMap_map, valuesAt]
  apply List.filterMap_congr
  intro entry _
  by_cases own : entry.1 = name'
  · simp [own, apart.symm]
  · simp [own]

theorem required_rewriteAt_self (name : String) (f : Value → Value) (decode : Value → Option α)
    (entries : Entries) :
    required name decode (rewriteAt name f entries) = required name (decode ∘ f) entries := by
  rw [required, valuesAt_rewriteAt_self, required]
  rcases valuesAt name entries with _ | ⟨value, _ | ⟨again, rest⟩⟩
  · rfl
  · rfl
  · rfl

theorem required_rewriteAt_of_ne {name name' : String} (apart : name ≠ name') (f : Value → Value)
    (decode : Value → Option α) (entries : Entries) :
    required name decode (rewriteAt name' f entries) = required name decode entries :=
  required_congr (valuesAt_rewriteAt_of_ne apart f entries)

/-- Whether a field is read depends on what its decoder accepts. -/
theorem isSome_required {name : String} {decode : Value → Option α} {decode' : Value → Option β}
    (same : ∀ value, (decode value).isSome = (decode' value).isSome) (entries : Entries) :
    (required name decode entries).isSome = (required name decode' entries).isSome := by
  rw [required, required]
  rcases valuesAt name entries with _ | ⟨value, _ | ⟨again, rest⟩⟩
  · rfl
  · exact same value
  · rfl

private theorem isSome_mapM (decode : Value → Option α) (items : List Value) :
    (items.mapM decode).isSome = items.all fun item => (decode item).isSome := by
  induction items with
  | nil => rfl
  | cons item items ih =>
    rw [List.mapM_cons, List.all_cons, ← ih]
    cases decode item with
    | none => rfl
    | some value => cases items.mapM decode <;> rfl

/-- Whether a list is read depends on what its items' decoder accepts. -/
theorem isSome_asList_mapItems {f : Value → Value} {decode : Value → Option α}
    (same : ∀ value, (decode (f value)).isSome = (decode value).isSome) (value : Value) :
    (Value.asList decode (mapItems f value)).isSome = (Value.asList decode value).isSome := by
  cases value with
  | seq items =>
    rw [mapItems, Value.asList, Value.asList, isSome_mapM, isSome_mapM, List.all_map]
    simp only [Function.comp_def, same]
  | null => rfl
  | bool value => rfl
  | integer value => rfl
  | string value => rfl
  | map entries => rfl

private theorem forall₂_of_mapM {decode : Value → Option α} {items : List Value} {l : List α}
    (run : items.mapM decode = some l) :
    List.Forall₂ (fun item a => decode item = some a) items l := by
  induction items generalizing l with
  | nil =>
    cases run
    exact .nil
  | cons item items ih =>
    rw [List.mapM_cons] at run
    obtain ⟨a, decoded, run⟩ := Option.bind_eq_some_iff.mp run
    obtain ⟨rest, tail, done⟩ := Option.bind_eq_some_iff.mp run
    cases done
    exact .cons decoded (ih tail)

/-- A list field decodes its items one by one. -/
theorem forall₂_of_required_asList {name : String} {decode : Value → Option α} {entries : Entries}
    {l : List α} (read : required name (Value.asList decode) entries = some l) :
    List.Forall₂ (fun item a => decode item = some a) ((valuesAt name entries).flatMap itemsOf) l := by
  rw [required] at read
  generalize valuesAt name entries = values at read ⊢
  rcases values with _ | ⟨value, _ | ⟨again, rest⟩⟩
  · cases read
  · cases value with
    | seq items =>
      rw [List.flatMap_singleton]
      exact forall₂_of_mapM read
    | null => cases read
    | bool value => cases read
    | integer value => cases read
    | string value => cases read
    | map entries => cases read
  · cases read

end Serde
