import Steward.Text.Digit
import Steward.Text.Lines

/-!
# Migrations in a directory

A migration is a file whose name begins with a version of three digits and an underscore and ends
in `.sql`.  Migrations are listed by name, so that their versions rise; two files of one version are
refused.

This is `discover_migrations` with `MIGRATION_PATTERN`.
-/

namespace Steward

/-- A migration of the database. -/
structure Migration where
  version : String
  filename : String
  script : String
  deriving DecidableEq, Repr

namespace Migration

/-! ## 1. Names -/

/-- The end of a migration's name. -/
def suffix : List Char := ".sql".toList

/-- A name less the line feed that it may end in. -/
def dropLineFeed (cs : List Char) : List Char :=
  if cs.getLast? = some '\n' then cs.dropLast else cs

/-- What follows the underscore: something on one line that ends in the suffix. -/
def isTitle (cs : List Char) : Bool :=
  let body := dropLineFeed cs
  suffix.length < body.length && suffix.isSuffixOf body && !body.contains '\n'

/-- The version of the migration of a name, if the name is that of one. -/
def version? (name : String) : Option String :=
  match name.toList with
  | a :: b :: c :: '_' :: title =>
    if Text.isDecimal a && Text.isDecimal b && Text.isDecimal c && isTitle title then
      some (String.ofList [a, b, c])
    else none
  | _ => none

/-! ## 2. Directories -/

/-- An entry of a directory: a file with its text, or something else. -/
structure Entry where
  name : String
  file : Option String
  deriving DecidableEq, Repr

/-- Why migrations cannot be listed. -/
inductive DirectoryError where
  | missing (path : String)
  | duplicate (version : String)
  deriving DecidableEq, Repr

/-- The text of the error. -/
def DirectoryError.message : DirectoryError → String
  | .missing path => "Migrations directory not found: " ++ path
  | .duplicate version => "Duplicate migration version " ++ version

/-- The migration of an entry. -/
def ofEntry? (e : Entry) : Option Migration :=
  match version? e.name, e.file with
  | some version, some text =>
    some ⟨version, e.name, String.ofList (Text.evenLines text.toList)⟩
  | _, _ => none

/-- Entries sorted by name. -/
def sortEntries (es : List Entry) : List Entry :=
  es.mergeSort fun a b => decide (a.name ≤ b.name)

/-- Refuse the first version that occurred before. -/
def checkVersions : List String → List Migration → Except DirectoryError Unit
  | _, [] => .ok ()
  | before, m :: rest =>
    if before.contains m.version then .error (.duplicate m.version)
    else checkVersions (before ++ [m.version]) rest

/-- The migrations among the entries of a directory (`discover_migrations`). -/
def discover (es : List Entry) : Except DirectoryError (List Migration) := do
  let found := (sortEntries es).filterMap ofEntry?
  checkVersions [] found
  return found

/-- The migrations of a directory that may be missing. -/
def discoverIn (path : String) : Option (List Entry) → Except DirectoryError (List Migration)
  | none => .error (.missing path)
  | some es => discover es

end Migration

end Steward
