import QueryRouting.Backend.Executor
import QueryRouting.Message.Form

/-!
Database urls: the kind of database that they name, and whether one opens without a server.
-/

namespace QueryRouting

inductive DatabaseKind
  | postgres
  | mySql
  | sqlite
  deriving DecidableEq, Repr

namespace DatabaseKind

def schemes : List (String × DatabaseKind) :=
  [("postgres://", .postgres), ("postgresql://", .postgres), ("mysql://", .mySql),
    ("mariadb://", .mySql), ("sqlite:", .sqlite)]

def ofUrl? (url : String) : Option DatabaseKind :=
  (schemes.find? fun (scheme, _) => scheme.toList.isPrefixOf url.toList).map (·.2)

def name : DatabaseKind → String
  | .postgres => "PostgreSQL"
  | .mySql => "MySQL"
  | .sqlite => "SQLite"

end DatabaseKind

namespace SqliteUrl

/-- What the parameters of a url choose, as far as it matters for databases that are no files. -/
structure Options where
  inMemory : Bool
  immutable : Bool
  fileSystem : Option String

namespace Options

/-- Applies a parameter; `none` if its name or value is unknown. -/
def set? (options : Options) : String × String → Option Options
  | ("mode", value) =>
    if value = "memory" then some { options with inMemory := true }
    else if ["ro", "rw", "rwc"].contains value then some options
    else none
  | ("cache", value) => if ["private", "shared"].contains value then some options else none
  | ("immutable", value) =>
    if ["true", "1"].contains value then some { options with immutable := true }
    else if ["false", "0"].contains value then some { options with immutable := false }
    else none
  | ("vfs", value) => some { options with fileSystem := some value }
  | _ => none

/-- The file system that keeps all its files in memory. -/
def memoryFileSystem : String := "memdb"

def fileSystems : List String :=
  ["unix", "unix-dotfile", "unix-excl", "unix-none", memoryFileSystem]

/-- With these options a null character ends a name; without them it is refused. -/
def endsNames (options : Options) : Bool :=
  options.immutable || options.fileSystem.isSome

def untilNull (name : String) : String :=
  String.ofList (name.toList.takeWhile (· != '\x00'))

/-- Whether the database of this name opens and is no file. -/
def opens (options : Options) (name : String) : Bool :=
  let fileSystem := options.fileSystem.map untilNull
  let file := untilNull name
  (options.endsNames || file == name) && fileSystem.all fileSystems.contains
    && (options.inMemory || file == "" || file == ":memory:" || fileSystem == some memoryFileSystem)

end Options

/-- Removes a scheme as often as it stands in front. -/
def dropScheme (scheme : List Char) (cs : List Char) : List Char :=
  if _h : scheme.isPrefixOf cs ∧ scheme ≠ [] then dropScheme scheme (cs.drop scheme.length) else cs
termination_by cs.length
decreasing_by
  have := (List.isPrefixOf_iff_prefix.mp _h.1).length_le
  have := List.length_pos_iff.mpr _h.2
  rw [List.length_drop]
  omega

/-- What follows the scheme, up to the parameters, and these. -/
def divide (url : String) : List Char × List (String × String) :=
  let cs := dropScheme "sqlite:".toList (dropScheme "sqlite://".toList url.toList)
  (cs.takeWhile (· != '?'),
    Form.pairs (Bytes.ofString (String.ofList ((cs.dropWhile (· != '?')).drop 1))))

/-- Whether a url names a database in memory. Its name is percent-encoded. -/
def opensInMemory (url : String) : Bool :=
  let (name, parameters) := divide url
  let name := String.ofList name
  let start : Options := ⟨name == ":memory:", false, none⟩
  match Percent.decodeText? name, parameters.foldlM Options.set? start with
  | some name, some options => options.opens name
  | _, _ => false

end SqliteUrl

/-- Opens a database that needs neither server nor file. -/
def connect (url : String) (sqlite : Executor) : Except ExecError Executor :=
  match DatabaseKind.ofUrl? url with
  | none => .error (.unsupportedUrl url)
  | some .sqlite => if SqliteUrl.opensInMemory url then .ok sqlite else .error .database
  | some _ => .error .database

end QueryRouting
