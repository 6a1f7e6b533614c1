import NetHound.Evaluate.Candidates

/-! # Audit configuration

`audit-local/config.rs` after parsing. A `ValidatedConfig` carries what `validate` has checked, so a
boundary without selectors or a malformed region cannot reach a run. The Unicode class behind
`char::is_uppercase` is an argument.
-/

namespace NetHound.Audit

open Evaluate

/-- The selectors of the regulated boundary. -/
structure BoundaryConfig where
  vpcIds : List String
  cidrs : List String
  tags : List String
deriving DecidableEq, Repr

def BoundaryConfig.isEmpty (boundary : BoundaryConfig) : Bool :=
  boundary.vpcIds.isEmpty && boundary.cidrs.isEmpty && boundary.tags.isEmpty

structure Neo4jConfig where
  uri : String
  user : String
deriving DecidableEq, Repr

/-- A parsed configuration that has not been validated. -/
structure Config where
  region : String
  profile : String
  boundary : BoundaryConfig
  outputPath : String
  neo4j : Neo4jConfig
deriving DecidableEq, Repr

inductive ConfigError where
  | emptyBoundary
  | invalidRegion (region : String)
deriving DecidableEq, Repr

def regionValid (isUppercase : Char → Bool) (region : String) : Bool :=
  !region.isEmpty && region.toList.all (fun c => !isUppercase c) && region.toList.contains '-'

/-- The only configuration a run accepts. -/
structure ValidatedConfig (isUppercase : Char → Bool) where
  region : String
  profile : String
  boundary : BoundaryConfig
  outputPath : String
  neo4j : Neo4jConfig
  selects : boundary.isEmpty = false
  regional : regionValid isUppercase region = true

def Config.validate (isUppercase : Char → Bool) (config : Config) :
    Except ConfigError (ValidatedConfig isUppercase) :=
  if empty : config.boundary.isEmpty = true then .error .emptyBoundary
  else if regional : regionValid isUppercase config.region = true then
    .ok {
      region := config.region
      profile := config.profile
      boundary := config.boundary
      outputPath := config.outputPath
      neo4j := config.neo4j
      selects := Bool.eq_false_iff.mpr empty
      regional }
  else .error (.invalidRegion config.region)

/-- Validation changes nothing, and accepts every configuration whose boundary has a selector and whose
region is well formed. -/
theorem Config.validate_eq_ok_iff {isUppercase : Char → Bool} {config : Config}
    {validated : ValidatedConfig isUppercase} :
    config.validate isUppercase = .ok validated ↔
      config = ⟨validated.region, validated.profile, validated.boundary, validated.outputPath,
        validated.neo4j⟩ := by
  constructor
  · intro valid
    unfold validate at valid
    split_ifs at valid
    cases valid
    rfl
  · rintro rfl
    rw [validate, dif_neg (Bool.eq_false_iff.mp validated.selects), dif_pos validated.regional]

theorem ValidatedConfig.region_given {isUppercase : Char → Bool} (config : ValidatedConfig isUppercase) :
    config.region.isEmpty = false := by
  have regional := config.regional
  rw [regionValid, Bool.and_eq_true, Bool.and_eq_true, Bool.not_eq_true'] at regional
  exact regional.1.1

/-- The selectors a run hands to candidate assembly. -/
def ValidatedConfig.selectors {isUppercase : Char → Bool} (config : ValidatedConfig isUppercase) :
    BoundarySelectors :=
  ⟨config.boundary.vpcIds, config.boundary.cidrs, config.boundary.tags⟩

theorem Config.selectors_of_valid {isUppercase : Char → Bool} {config : Config}
    {validated : ValidatedConfig isUppercase} (valid : config.validate isUppercase = .ok validated) :
    validated.selectors = ⟨config.boundary.vpcIds, config.boundary.cidrs, config.boundary.tags⟩ := by
  rw [validate_eq_ok_iff] at valid
  subst valid
  rfl

end NetHound.Audit
