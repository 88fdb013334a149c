import QueryRouting.Toml.Quoted
import QueryRouting.Toml.Scalar
import QueryRouting.Toml.Table

/-!
Reading a TOML document as one JSON object, its keys in the order of the document.
-/

namespace QueryRouting.Toml

/-- Keys have fewer parts than this, and values are nested less deep. -/
def nestingBound : Nat := 80

def skipBlanks (cs : List Char) : List Char :=
  cs.dropWhile isBlank

/-- Removes a comment, if one begins here, up to the end of its line. -/
def skipComment : List Char → List Char
  | '#' :: rest => rest.dropWhile isPlain
  | cs => cs

/-- Removes blanks, line ends and comments. A comment has to end with its line. -/
def skipLines (fuel : Nat) (cs : List Char) : List Char :=
  match fuel, skipComment (skipBlanks cs) with
  | 0, rest => rest
  | fuel + 1, rest =>
    match newline? rest with
    | some after => skipLines fuel after
    | none => rest

/-- What follows the blanks and the comment that may end a line. -/
def endOfLine? (cs : List Char) : Option (List Char) :=
  match skipComment (skipBlanks cs) with
  | [] => some []
  | rest => newline? rest

def isBareKeyChar (c : Char) : Bool :=
  c.isAlphanum || c == '_' || c == '-'

def simpleKey (cs : List Char) : Option (List Char × List Char) :=
  match quoted? cs with
  | some read => read
  | none =>
    if (cs.takeWhile isBareKeyChar).isEmpty then none
    else some (cs.takeWhile isBareKeyChar, cs.dropWhile isBareKeyChar)

/-- The parts of a key with points between, and what follows it and its blanks. -/
def keyParts (fuel : Nat) (cs : List Char) : Option (List String × List Char) :=
  match fuel with
  | 0 => none
  | fuel + 1 => do
    let (part, rest) ← simpleKey (skipBlanks cs)
    match skipBlanks rest with
    | '.' :: rest =>
      let (parts, rest) ← keyParts fuel rest
      return (String.ofList part :: parts, rest)
    | rest => return ([String.ofList part], rest)

structure Key where
  path : List String
  last : String

def key (cs : List Char) : Option (Key × List Char) := do
  let (parts, rest) ← keyParts (nestingBound - 1) cs
  return (⟨parts.dropLast, parts.getLastD ""⟩, rest)

abbrev Reader (α : Type) := List Char → Option (α × List Char)

def isDelimiter (c : Char) : Bool :=
  c == ' ' || c == '\t' || c == '\n' || c == '\r' || c == ',' || c == ']' || c == '\x7d' || c == '#'

/-- A date may be followed by a blank and a time, which belong to the same lexeme. -/
def lexeme (cs : List Char) : List Char × List Char :=
  let first := cs.takeWhile (!isDelimiter ·)
  match cs.dropWhile (!isDelimiter ·) with
  | ' ' :: c :: rest =>
    if (date? first).isSome && c.isDigit then
      (first ++ ' ' :: (c :: rest).takeWhile (!isDelimiter ·),
        (c :: rest).dropWhile (!isDelimiter ·))
    else (first, ' ' :: c :: rest)
  | rest => (first, rest)

def scalar : Reader Json := fun cs =>
  (scalar? (lexeme cs).1).map (·, (lexeme cs).2)

/-- The items of an array after its opening bracket, with commas between and one allowed last. -/
def arrayItems (value : Reader Json) (fuel : Nat) : Reader (List Json) := fun cs =>
  match fuel with
  | 0 => none
  | fuel + 1 =>
    match skipLines cs.length cs with
    | ']' :: rest => some ([], rest)
    | cs => do
      let (v, rest) ← value cs
      match skipLines rest.length rest with
      | ',' :: rest =>
        let (items, rest) ← arrayItems value fuel rest
        return (v :: items, rest)
      | ']' :: rest => return ([v], rest)
      | _ => none

structure Assignment where
  key : Key
  value : Json

/-- A key, an equals sign and a value. -/
def assignment (value : Reader Json) : Reader Assignment := fun cs => do
  let (k, rest) ← key cs
  match rest with
  | '=' :: rest =>
    let (v, rest) ← value (skipBlanks rest)
    return (⟨k, v⟩, skipBlanks rest)
  | _ => none

/-- The assignments of an inline table, one at least. -/
def inlineItems (value : Reader Json) (fuel : Nat) : Reader (List Assignment) := fun cs =>
  match fuel with
  | 0 => none
  | fuel + 1 => do
    let (a, rest) ← assignment value cs
    match rest with
    | ',' :: rest =>
      let (others, rest) ← inlineItems value fuel rest
      return (a :: others, rest)
    | '\x7d' :: rest => return ([a], rest)
    | _ => none

def insertAssignment (t : Table) (a : Assignment) : Option Table :=
  t.insertAt a.key.path a.key.last a.value

/-- An inline table after its opening brace. It stands on one line but for what its values hold. -/
def inlineTable (value : Reader Json) : Reader Json := fun cs =>
  match skipBlanks cs with
  | '\x7d' :: rest => some (Json.empty, rest)
  | cs => do
    let (assignments, rest) ← inlineItems value (cs.length + 1) cs
    let t ← assignments.foldlM insertAssignment Table.root
    return (t.toJson, rest)

/-- A value; arrays and inline tables may be nested so many levels deep. -/
def value (depth : Nat) : Reader Json := fun cs =>
  match string? cs with
  | some read => read.map fun (text, rest) => (.str (String.ofList text), rest)
  | none =>
    match depth, cs with
    | depth + 1, '[' :: rest =>
      (arrayItems (value depth) (rest.length + 1) rest).map fun (items, rest) => (.arr items, rest)
    | depth + 1, '\x7b' :: rest => inlineTable (value depth) rest
    | _, cs => scalar cs

/-- A document while it is read: its root, and the path of the table that keys go to. -/
structure Draft where
  root : Table
  current : List String

namespace Draft

def assign (d : Draft) (a : Assignment) : Option Draft :=
  (d.root.update .implied (insertAssignment · a) d.current).map fun root => { d with root }

def header (d : Draft) (k : Key) (f : String → Table → Option Table) : Option Draft :=
  (d.root.update .implied (f k.last) k.path).map fun root => ⟨root, k.path ++ [k.last]⟩

end Draft

/-- A header or an assignment, and the rest of its line. -/
def statement (d : Draft) (cs : List Char) : Option (Draft × List Char) :=
  match cs with
  | '[' :: '[' :: rest => do
    let (k, rest) ← key rest
    match rest with
    | ']' :: ']' :: rest => return (← d.header k Table.appendElement, ← endOfLine? rest)
    | _ => none
  | '[' :: rest => do
    let (k, rest) ← key rest
    match rest with
    | ']' :: rest => return (← d.header k Table.define, ← endOfLine? rest)
    | _ => none
  | cs => do
    let (a, rest) ← assignment (value (nestingBound - 1)) cs
    return (← d.assign a, ← endOfLine? rest)

def statements (fuel : Nat) (d : Draft) (cs : List Char) : Option Draft :=
  match fuel, skipLines cs.length cs with
  | _, [] => some d
  | 0, _ => none
  | fuel + 1, cs => do
    let (d, rest) ← statement d cs
    statements fuel d rest

/-- A byte order mark may come first. -/
def skipMark : List Char → List Char
  | '\ufeff' :: rest => rest
  | cs => cs

/-- The object that a document denotes. -/
def parse? (text : String) : Option Json :=
  let cs := skipMark text.toList
  (statements (cs.length + 1) ⟨Table.root, []⟩ cs).map (·.root.toJson)

end QueryRouting.Toml
