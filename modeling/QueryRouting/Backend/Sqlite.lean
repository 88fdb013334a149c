import QueryRouting.Backend.Executor
import QueryRouting.Backend.Sqlite.Token

/-!
Selecting values from an empty SQLite database.

A statement names a column for each parameter or literal, so it gives one row. Parameters take the
values by position.
-/

namespace QueryRouting.Sqlite

inductive Item
  | parameter
  | constant (cell : Cell)
  deriving DecidableEq, Repr

structure Column where
  item : Item
  name : String
  deriving DecidableEq, Repr

def readItem : List Token → Option (Item × List Token)
  | .parameter :: rest => some (.parameter, rest)
  | .literal cell :: rest => some (.constant cell, rest)
  | .number n :: rest => some (.constant (n.cell false), rest)
  | .minus :: .number n :: rest => some (.constant (n.cell true), rest)
  | token :: rest => if token.isKeyword "NULL" then some (.constant .null, rest) else none
  | [] => none

/-- Columns between commas, each an item with its name; one at least. -/
def readColumns (fuel : Nat) (tokens : List Token) : Option (List Column) :=
  match fuel, readItem tokens with
  | fuel + 1, some (item, as :: .word name :: rest) =>
    if as.isKeyword "AS" && !(Token.word name).isReserved then
      match rest with
      | [] => some [⟨item, String.ofList name⟩]
      | .comma :: rest => (readColumns fuel rest).map (⟨item, String.ofList name⟩ :: ·)
      | _ => none
    else none
  | _, _ => none

/-- A statement has no more columns than this. -/
def maxColumns : Nat := 2000

/-- The columns of a statement, which ends at a null character; blank text has none at all. -/
def parse (sql : String) : Option (List Column) := do
  match ← Token.scan (sql.toList.takeWhile (· != '\x00')) with
  | [] => some []
  | select :: rest =>
    if select.isKeyword "SELECT" then
      (readColumns (rest.length + 1) rest).filter (·.length ≤ maxColumns)
    else none

/-- The cells of columns. Each parameter takes the next value, and null when none is left. -/
def evaluate : List Column → List Json → List (String × Cell)
  | [], _ => []
  | ⟨.parameter, name⟩ :: columns, values =>
    (name, (values.head?.map Cell.ofJson).getD .null) :: evaluate columns values.tail
  | ⟨.constant cell, name⟩ :: columns, values => (name, cell) :: evaluate columns values

/-- The rows of a statement. Of columns with the same name the last one stays. -/
def rows (columns : List Column) (values : List Json) : List Json :=
  if columns.isEmpty then []
  else [.ofPairs ((evaluate columns values).map fun (name, cell) => (name, cell.toJson))]

def run (query : Descriptor) : Except ExecError Json :=
  match parse (Placeholder.positional query.text) with
  | some columns => .ok (.arr (rows columns query.values))
  | none => .error .database

def executor : Executor where
  backend := "sqlite"
  execute query := Execution.ofResult (run query)

end QueryRouting.Sqlite
