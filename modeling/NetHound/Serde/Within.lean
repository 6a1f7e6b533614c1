import NetHound.Serde.Encode

/-! # Decoding documents that say more

A document says all that was written when the members of its maps are those written, in whatever order, with
others under keys of their own among them. A tolerant decoder reads out of such a document what it reads out of
the one that was written. Struct visitors are tolerant, and so are internally tagged enumerations of them.
-/

namespace Serde

variable {α β σ τ : Type}

/-- What is written is within a document: scalars are the same, sequences item by item, and a member written
once in a map stands there once, in whatever place. -/
inductive Value.Within : Value → Value → Prop
  | null : Within .null .null
  | bool (value : Bool) : Within (.bool value) (.bool value)
  | integer (value : ℤ) : Within (.integer value) (.integer value)
  | string (value : String) : Within (.string value) (.string value)
  | seq {items : List (Value × Value)} (each : ∀ item ∈ items, Within item.1 item.2) :
      Within (.seq (items.map Prod.fst)) (.seq (items.map Prod.snd))
  | map {entries entries' : Entries} {found : String → Value}
      (kept : ∀ name value, valuesAt name entries = [value] → valuesAt name entries' = [found name])
      (nested : ∀ name value, valuesAt name entries = [value] → Within value (found name)) :
      Within (.map entries) (.map entries')

/-- Every member written once is there once. -/
def EntriesWithin (entries entries' : Entries) : Prop :=
  ∀ name value, valuesAt name entries = [value] →
    ∃ value', valuesAt name entries' = [value'] ∧ value.Within value'

theorem Value.within_map_iff {entries : Entries} {document : Value} :
    (Value.map entries).Within document ↔ ∃ entries', document = .map entries' ∧ EntriesWithin entries entries' := by
  constructor
  · intro within
    cases within with
    | map kept nested =>
      exact ⟨_, rfl, fun name value only => ⟨_, kept name value only, nested name value only⟩⟩
  · rintro ⟨entries', rfl, within⟩
    refine @Within.map entries entries' (fun name => (valuesAt name entries').headD .null) ?_ ?_
    · intro name value only
      obtain ⟨value', only', _⟩ := within name value only
      rw [only']
      rfl
    · intro name value only
      obtain ⟨value', only', nested⟩ := within name value only
      rw [only']
      exact nested

theorem Value.within_seq_iff {items : List Value} {document : Value} :
    (Value.seq items).Within document ↔ ∃ items', document = .seq items' ∧ List.Forall₂ Value.Within items items' := by
  constructor
  · generalize written : Value.seq items = value
    intro within
    cases within with
    | seq each =>
      cases written
      refine ⟨_, rfl, ?_⟩
      rw [List.forall₂_map_left_iff, List.forall₂_map_right_iff, List.forall₂_same]
      exact each
    | null => cases written
    | bool value => cases written
    | integer value => cases written
    | string value => cases written
    | map kept nested => cases written
  · rintro ⟨items', rfl, within⟩
    have each : ∀ item ∈ items.zip items', item.1.Within item.2 := by
      intro item member
      exact (List.forall₂_iff_zip.mp within).2 member
    have lengths := within.length_eq
    have paired := Within.seq each
    rwa [List.map_fst_zip (by omega), List.map_snd_zip (by omega)] at paired

private theorem mem_of_valuesAt {name : String} {entries : Entries} {value : Value}
    (member : value ∈ valuesAt name entries) : (name, value) ∈ entries := by
  obtain ⟨⟨key, found⟩, listed, own⟩ := List.mem_filterMap.mp member
  dsimp only at own
  split_ifs at own with same
  cases own
  rwa [← same]

/-- A document is within itself. -/
theorem Value.Within.refl : (value : Value) → value.Within value
  | .null => .null
  | .bool value => .bool value
  | .integer value => .integer value
  | .string value => .string value
  | .seq items => by
      rw [within_seq_iff]
      refine ⟨items, rfl, List.forall₂_same.mpr ?_⟩
      intro item member
      exact refl item
  | .map entries => by
      rw [within_map_iff]
      refine ⟨entries, rfl, ?_⟩
      intro name value only
      have member : (name, value) ∈ entries := mem_of_valuesAt (only ▸ List.mem_singleton_self value)
      exact ⟨value, only, refl value⟩
termination_by value => sizeOf value
decreasing_by
  · have := List.sizeOf_lt_of_mem member
    simp only [Value.seq.sizeOf_spec]
    omega
  · have := List.sizeOf_lt_of_mem member
    simp only [Value.map.sizeOf_spec, Prod.mk.sizeOf_spec] at this ⊢
    omega

/-- Entries put in another order, with others under fresh keys among them. -/
theorem EntriesWithin.of_perm {entries more entries' : Entries} (perm : entries'.Perm (entries ++ more))
    (fresh : ∀ entry ∈ more, ∀ own ∈ entries, own.1 ≠ entry.1) : EntriesWithin entries entries' := by
  intro name value only
  have values : (valuesAt name entries').Perm (valuesAt name (entries ++ more)) := perm.filterMap _
  have written : (name, value) ∈ entries := mem_of_valuesAt (only ▸ List.mem_singleton_self value)
  have foreign : valuesAt name more = [] := by
    rw [List.eq_nil_iff_forall_not_mem]
    intro other member
    exact fresh _ (mem_of_valuesAt member) _ written rfl
  rw [valuesAt_append, only, foreign, List.append_nil] at values
  exact ⟨value, List.perm_singleton.mp values, .refl value⟩

/-! ## Tolerant decoders -/

/-- Reads out of a document what it reads out of the part of it that was written. -/
def Tolerant (decode : Value → Option α) : Prop :=
  ∀ ⦃written document : Value⦄ ⦃a : α⦄, written.Within document → decode written = some a →
    decode document = some a

/-- The same for what is read off the entries of a map. -/
def TolerantRead (read : Entries → Option α) : Prop :=
  ∀ ⦃entries entries' : Entries⦄ ⦃a : α⦄, EntriesWithin entries entries' → read entries = some a →
    read entries' = some a

theorem tolerant_asString : Tolerant Value.asString := by
  intro written document text within read
  cases within with
  | string value => exact read
  | null => cases read
  | bool value => cases read
  | integer value => cases read
  | seq each => cases read
  | map kept nested => cases read

theorem tolerant_asInteger : Tolerant Value.asInteger := by
  intro written document value within read
  cases within with
  | integer value => exact read
  | null => cases read
  | bool value => cases read
  | string value => cases read
  | seq each => cases read
  | map kept nested => cases read

/-- What is made of a value that was read does not see the document. -/
theorem Tolerant.bind {decode : Value → Option α} (tolerant : Tolerant decode) (f : α → Option β) :
    Tolerant fun value => (decode value).bind f := by
  intro written document b within read
  obtain ⟨a, decoded, made⟩ := Option.bind_eq_some_iff.mp read
  exact Option.bind_eq_some_iff.mpr ⟨a, tolerant within decoded, made⟩

private theorem mapM_of_forall₂ {decode : Value → Option α} (tolerant : Tolerant decode)
    {items items' : List Value} (within : List.Forall₂ Value.Within items items') {l : List α}
    (read : items.mapM decode = some l) : items'.mapM decode = some l := by
  induction within generalizing l with
  | nil => exact read
  | cons head rest ih =>
    rw [List.mapM_cons] at read ⊢
    obtain ⟨a, decoded, read⟩ := Option.bind_eq_some_iff.mp read
    obtain ⟨rest', decodedRest, read⟩ := Option.bind_eq_some_iff.mp read
    rw [tolerant head decoded, ih decodedRest]
    exact read

theorem Tolerant.asList {decode : Value → Option α} (tolerant : Tolerant decode) :
    Tolerant (Value.asList decode) := by
  intro written document l within read
  cases written with
  | seq items =>
    obtain ⟨items', rfl, each⟩ := Value.within_seq_iff.mp within
    exact mapM_of_forall₂ tolerant each read
  | null => cases read
  | bool value => cases read
  | integer value => cases read
  | string value => cases read
  | map entries => cases read

/-! ## Tolerant visitors -/

def Visitor.Tolerant (visitor : Visitor σ α) : Prop := TolerantRead (Prod.fst ∘ visitor.read)

/-- What a variant makes of what its visitor has read. -/
theorem Visitor.Tolerant.bind {visitor : Visitor σ α} (tolerant : visitor.Tolerant) (f : α → Option β) :
    TolerantRead fun content => (visitor.read content).1.bind f := by
  intro entries entries' b within run
  obtain ⟨a, found, made⟩ := Option.bind_eq_some_iff.mp run
  exact Option.bind_eq_some_iff.mpr ⟨a, tolerant within found, made⟩

/-- A variant without a payload. -/
theorem tolerantRead_const (a : Option α) : TolerantRead fun _ => a := by
  intro _ _ _ _ read
  exact read

theorem Tolerant.field {decode : Value → Option α} (tolerant : Tolerant decode) (name : String) :
    (field name decode).Tolerant := by
  intro entries entries' a within read
  rw [Function.comp_apply, read_field, required_eq_some_iff] at read ⊢
  obtain ⟨value, only, decoded⟩ := read
  obtain ⟨value', only', nested⟩ := within name value only
  exact ⟨value', only', tolerant nested decoded⟩

theorem Visitor.Tolerant.both {first : Visitor σ α} {second : Visitor τ β} (apart : first.Apart second)
    (tolerant : first.Tolerant) (tolerant' : second.Tolerant) : (first.both second).Tolerant := by
  intro entries entries' pair within read
  rw [Function.comp_apply, read_both apart] at read ⊢
  obtain ⟨a, foundFirst, read⟩ := Option.bind_eq_some_iff.mp read
  obtain ⟨b, foundSecond, read⟩ := Option.bind_eq_some_iff.mp read
  have foundFirst' : (first.read entries').1 = some a := tolerant within foundFirst
  have foundSecond' : (second.read entries').1 = some b := tolerant' within foundSecond
  rw [foundFirst', foundSecond']
  exact read

/-- A field in front of a visitor without its key. -/
theorem Tolerant.field_both {name : String} {decode : Value → Option α} {rest : Visitor τ β}
    (tolerant : Tolerant decode) (tolerant' : rest.Tolerant) (fresh : rest.recognizes name = false) :
    ((Serde.field name decode).both rest).Tolerant := by
  refine Visitor.Tolerant.both ?_ (tolerant.field name) tolerant'
  intro key own
  rw [show key = name from beq_iff_eq.mp own, fresh]

/-- A struct without flattened fields does not see members it does not know. -/
theorem Visitor.Tolerant.struct {visitor : Visitor σ α} (tolerant : visitor.Tolerant) :
    Serde.Tolerant visitor.struct := by
  intro written document a within read
  cases written with
  | map entries =>
    obtain ⟨entries', rfl, kept⟩ := Value.within_map_iff.mp within
    exact tolerant kept read
  | null => cases read
  | bool value => cases read
  | integer value => cases read
  | string value => cases read
  | seq items => cases read

/-! ## Reading back what was written -/

theorem field_reads {name : String} {decode : Value → Option α} {entries : Entries} {value : Value} {a : α}
    (only : valuesAt name entries = [value]) (read : decode value = some a) :
    ((field name decode).read entries).1 = some a := by
  rw [read_field]
  exact required_eq_some_iff.mpr ⟨value, only, read⟩

theorem field_both_reads {name : String} {decode : Value → Option α} {rest : Visitor τ β} {entries : Entries}
    {value : Value} {a : α} {b : β} (fresh : rest.recognizes name = false)
    (only : valuesAt name entries = [value]) (read : decode value = some a)
    (others : (rest.read entries).1 = some b) :
    (((field name decode).both rest).read entries).1 = some (a, b) := by
  rw [read_field_both fresh, required_eq_some_iff.mpr ⟨value, only, read⟩, others]
  rfl

theorem struct_reads {visitor : Visitor σ α} {entries : Entries} {a : α}
    (read : (visitor.read entries).1 = some a) : visitor.struct (.map entries) = some a := read

theorem asList_ofList {decode : Value → Option α} {encode : α → Value} {l : List α}
    (each : ∀ a ∈ l, decode (encode a) = some a) : Value.asList decode (Value.ofList encode l) = some l := by
  rw [Value.ofList, Value.asList]
  induction l with
  | nil => rfl
  | cons a l ih =>
    obtain ⟨head, rest⟩ := List.forall_mem_cons.mp each
    rw [List.map_cons, List.mapM_cons, head, ih rest]
    rfl

/-! ## Internally tagged enumerations -/

/-- The tag picks the variant, which reads the members beside it. -/
def tagged (tag : String) (variant : String → Entries → Option α) : Value → Option α
  | .map entries => do
      let (kind, content) := (field tag Value.asString).read entries
      variant (← kind) content
  | _ => none

/-- A visitor that has come through its entries leaves none of its own. -/
private theorem valuesAt_visit_own (visitor : Visitor σ α) {name : String} (own : visitor.recognizes name = true)
    {slots filled : σ} {entries : Entries} (through : (visitor.visit slots entries).1 = some filled) :
    valuesAt name (visitor.visit slots entries).2 = [] := by
  induction entries generalizing slots with
  | nil => rfl
  | cons entry rest ih =>
    obtain ⟨key, value⟩ := entry
    rw [Visitor.visit] at through ⊢
    by_cases recognized : visitor.recognizes key = true
    · rw [if_pos recognized] at through ⊢
      cases accepted : visitor.accept slots key value with
      | none =>
        rw [accepted] at through
        cases through
      | some slots' =>
        rw [accepted] at through
        exact ih through
    · have apart : key ≠ name := by
        rintro rfl
        exact recognized own
      rw [if_neg recognized] at through ⊢
      rw [valuesAt_cons, if_neg apart]
      exact ih through

private theorem valuesAt_read_tag {tag kind : String} {entries : Entries}
    (read : ((field tag Value.asString).read entries).1 = some kind) :
    valuesAt tag ((field tag Value.asString).read entries).2 = [] := by
  obtain ⟨filled, through, _⟩ := Option.bind_eq_some_iff.mp read
  exact valuesAt_visit_own (field tag Value.asString) (beq_self_eq_true tag) through

/-- Beside a tag that was read, what was written is within the rest of the document. -/
private theorem entriesWithin_content {tag kind : String} {entries entries' : Entries}
    (within : EntriesWithin entries entries')
    (read : ((field tag Value.asString).read entries).1 = some kind) :
    EntriesWithin ((field tag Value.asString).read entries).2 ((field tag Value.asString).read entries').2 := by
  intro name value only
  by_cases own : name = tag
  · subst own
    rw [valuesAt_read_tag read] at only
    cases only
  · have foreign : (field tag Value.asString).recognizes name = false := beq_false_of_ne own
    rw [valuesAt_read _ foreign] at only ⊢
    exact within name value only

theorem tolerant_tagged {tag : String} {variant : String → Entries → Option α}
    (tolerant : ∀ kind, TolerantRead (variant kind)) : Tolerant (tagged tag variant) := by
  intro written document a within read
  cases written with
  | map entries =>
    obtain ⟨entries', rfl, kept⟩ := Value.within_map_iff.mp within
    obtain ⟨kind, found, read⟩ := Option.bind_eq_some_iff.mp read
    have found' := tolerant_asString.field tag kept found
    refine Option.bind_eq_some_iff.mpr ⟨kind, found', ?_⟩
    exact tolerant kind (entriesWithin_content kept found) read
  | null => cases read
  | bool value => cases read
  | integer value => cases read
  | string value => cases read
  | seq items => cases read

/-- A tag written first, and once, is read before its variant. -/
theorem tagged_cons {tag kind : String} {variant : String → Entries → Option α} {content : Entries}
    (once : ∀ entry ∈ content, entry.1 ≠ tag) :
    tagged tag variant (.map ((tag, .string kind) :: content)) = variant kind content := by
  have left : ∀ slots, (field tag Value.asString).visit slots content = (some slots, content) := by
    induction content with
    | nil => exact fun _ => rfl
    | cons entry rest ih =>
      intro slots
      have foreign : ¬ (field tag Value.asString).recognizes entry.1 = true := by
        intro own
        exact once entry List.mem_cons_self (beq_iff_eq.mp own)
      rw [Visitor.visit, if_neg foreign, ih (fun entry member => once entry (List.mem_cons_of_mem _ member))]
  have read : (field tag Value.asString).read ((tag, .string kind) :: content) = (some kind, content) := by
    have own : (field tag Value.asString).recognizes tag = true := beq_self_eq_true tag
    have visited : (field tag Value.asString).visit (field tag Value.asString).start
        ((tag, .string kind) :: content) = (some (some kind), content) := by
      rw [Visitor.visit, if_pos own]
      exact left (some kind)
    rw [Visitor.read, visited]
    rfl
  rw [tagged, read]
  rfl

end Serde
