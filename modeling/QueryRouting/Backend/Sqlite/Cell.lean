import QueryRouting.Json.Printer
import QueryRouting.Text.Bytes

/-!
Values that SQLite stores, and how JSON values are bound and read back.
-/

namespace QueryRouting.Sqlite

/-- A stored value, by storage class. -/
inductive Cell
  | null
  | integer (n : Int)
  | real (x : Double)
  | text (s : String)
  | blob (bytes : Bytes)
  deriving DecidableEq, Repr

namespace Cell

/--
What a JSON value is bound as: an integer past 64 bits as its digits, an array or object as its
text.
-/
def ofJson : Json → Cell
  | .null => .null
  | .bool b => .integer (if b then 1 else 0)
  | .int n => if Word.isInt64 n then .integer n else .text (toString n)
  | .double x => .real x
  | .str s => .text s
  | v => .text v.text

/-- The types that a column is tried as. -/
inductive Target
  | int64
  | float64
  | text
  | bytes
  deriving DecidableEq, Repr

/-- In this order; the first that goes with a column is taken. -/
def Target.all : List Target := [.int64, .float64, .text, .bytes]

/-- Bytes are a list of numbers. -/
def bytesJson (bytes : Bytes) : Json :=
  .arr (bytes.map fun b => .ofNat b.toNat)

/-- A value as a type that its storage class goes with. Null goes with every type. -/
def decode? : Target → Cell → Option Json
  | _, .null => some .null
  | .int64, .integer n => some (.int n)
  | .float64, .real x => some (.double x)
  | .text, .text s => some (.str s)
  | .bytes, .text s => some (bytesJson (Bytes.ofString s))
  | .bytes, .blob bytes => some (bytesJson bytes)
  | _, _ => none

/-- What a column is read back as. -/
def toJson (cell : Cell) : Json :=
  (Target.all.findSome? fun target => decode? target cell).getD .null

end Cell

end QueryRouting.Sqlite
