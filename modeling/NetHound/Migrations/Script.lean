import Mathlib.Data.List.DropRight
import Mathlib.Data.List.Sort
import NetHound.Net.IpAddr
import NetHound.ToMathlib.ExceptRun

/-! # Migration files

File names and statement lists as `migrations.rs` reads them. A file's version is the number before the
first underscore of its name. Its statements are what is left between semicolons once the comment lines
are gone; the string operations follow the standard library on lists of characters.
-/

namespace NetHound.Migrations

open Net

inductive MigrationError where
  | malformedFilename (filename : String)
  | bootstrap
  | readAppliedVersions
  | startTransaction (version : ℕ)
  | statementFailed (version statementIndex : ℕ)
  | recordVersion (version : ℕ)
  | commit (version : ℕ)
deriving DecidableEq, Repr

/-! ## Statements -/

/-- `char::is_whitespace`, the Unicode property `White_Space`. -/
def isWhitespace (c : Char) : Bool :=
  let code := c.toNat
  decide (0x09 ≤ code ∧ code ≤ 0x0D ∨ 0x2000 ≤ code ∧ code ≤ 0x200A) ||
    [0x20, 0x85, 0xA0, 0x1680, 0x2028, 0x2029, 0x202F, 0x205F, 0x3000].contains code

def trimStart (text : List Char) : List Char := text.dropWhile isWhitespace

def trim (text : List Char) : List Char := (trimStart text).rdropWhile isWhitespace

/-- `strip_suffix('\r')` on a line that ended in a line feed. -/
def stripCarriageReturn (line : List Char) : List Char :=
  if line.getLast? = some '\r' then line.dropLast else line

/-- `str::lines`: a last piece without a line feed keeps its carriage return, and is no line if empty. -/
def lines (source : List Char) : List (List Char) :=
  let pieces := source.splitOn '\n'
  pieces.dropLast.map stripCarriageReturn ++ (pieces.getLast?.filter (· ≠ [])).toList

def isComment (line : List Char) : Bool := ['/', '/'].isPrefixOf (trimStart line)

/-- The statements of a file in order. -/
def splitStatements (source : String) : List String :=
  let withoutComments := ['\n'].intercalate ((lines source.toList).filter fun line => !isComment line)
  (((withoutComments.splitOn ';').map trim).filter (· ≠ [])).map String.ofList

example : splitStatements "// a; b\nCREATE a;\n\n  // c\nCREATE\n b ;" = ["CREATE a", "CREATE\n b"] := by
  decide

/-! ## Versions -/

/-- The number before the first underscore. -/
def parseVersionPrefix (filename : String) : Except MigrationError ℕ :=
  match parseU32 (String.ofList (filename.toList.takeWhile (· ≠ '_'))) with
  | some version => .ok version
  | none => .error (.malformedFilename filename)

structure Migration where
  version : ℕ
  filename : String
  content : String
deriving DecidableEq, Repr

def Migration.statements (migration : Migration) : List String := splitStatements migration.content

/-- The files in ascending order of version; the sort is stable. -/
def orderedMigrations (files : List (String × String)) : Except MigrationError (List Migration) := do
  let migrations ← files.mapM fun (filename, content) => do
    let version ← parseVersionPrefix filename
    return { version, filename, content : Migration }
  return migrations.insertionSort fun a b => a.version ≤ b.version

theorem lt_of_parseU32 {text : String} {value : ℕ} (parsed : parseU32 text = some value) :
    value < UInt32.size := by
  unfold parseU32 at parsed
  dsimp only at parsed
  rw [Option.ite_none_left_eq_some] at parsed
  obtain ⟨_, _, done⟩ := Option.bind_eq_some_iff.mp parsed.2
  split_ifs at done with small
  cases done
  exact small

theorem parseVersionPrefix_lt {filename : String} {version : ℕ}
    (parsed : parseVersionPrefix filename = .ok version) : version < UInt32.size := by
  unfold parseVersionPrefix at parsed
  split at parsed
  · next found =>
    cases parsed
    exact lt_of_parseU32 found
  · cases parsed

/-- Ordered migrations ascend, and each has the version of its file. -/
theorem orderedMigrations_ok {files : List (String × String)} {migrations : List Migration}
    (ordered : orderedMigrations files = .ok migrations) :
    migrations.Pairwise (fun a b => a.version ≤ b.version) ∧
      ∀ migration ∈ migrations, migration.version < UInt32.size := by
  obtain ⟨parsed, ran, done⟩ := Except.bind_eq_ok_iff.mp ordered
  cases done
  refine ⟨List.pairwise_insertionSort _ _, fun migration member => ?_⟩
  obtain ⟨⟨filename, content⟩, _, read⟩ :=
    List.exists_of_mem_mapM_ok ran ((List.perm_insertionSort _ _).mem_iff.mp member)
  obtain ⟨version, named, same⟩ := Except.bind_eq_ok_iff.mp read
  cases same
  exact parseVersionPrefix_lt named

example : (orderedMigrations [("0010_later.cypher", "b"), ("0009_earlier.cypher", "a")]).toOption =
    some [⟨9, "0009_earlier.cypher", "a"⟩, ⟨10, "0010_later.cypher", "b"⟩] := by
  decide

end NetHound.Migrations
