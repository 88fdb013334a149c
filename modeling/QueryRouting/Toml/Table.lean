import QueryRouting.Json.Basic

/-!
Tables of a TOML document while it is read, and what headers and keys may do to them.

Keys are kept in the order of the document.
-/

namespace QueryRouting.Toml

/-- How a table came to be, which decides what may still be added to it. -/
inductive Origin
  /-- By its own header, or as an element of an array of tables, or as the root. -/
  | defined
  /-- By a longer header that passes through it. -/
  | implied
  /-- By a dotted key. -/
  | dotted
  deriving DecidableEq, Repr

inductive Node
  | value (v : Json)
  | table (origin : Origin) (entries : List (String × Node))
  /-- An array of tables; all of them are defined. -/
  | tables (elements : List (List (String × Node)))

structure Table where
  origin : Origin
  entries : List (String × Node)

namespace Table

def root : Table := ⟨.defined, []⟩

def find? (key : String) : List (String × Node) → Option Node
  | [] => none
  | (k, node) :: rest => if k = key then some node else find? key rest

/-- Sets the node of a key, which keeps its place; a new key comes last. -/
def insert (key : String) (node : Node) : List (String × Node) → List (String × Node)
  | [] => [(key, node)]
  | (k, other) :: rest =>
    if k = key then (key, node) :: rest else (k, other) :: insert key node rest

def set (key : String) (node : Node) (t : Table) : Table :=
  { t with entries := insert key node t.entries }

/-- Sets the node of a key, which becomes the last one. -/
def setLast (key : String) (node : Node) (t : Table) : Table :=
  { t with entries := t.entries.filter (·.1 != key) ++ [(key, node)] }

/-- Changes the last element. -/
def updateLast (f : List (String × Node) → Option (List (String × Node))) :
    List (List (String × Node)) → Option (List (List (String × Node)))
  | [] => none
  | [last] => (f last).map ([·])
  | first :: rest => (updateLast f rest).map (first :: ·)

/--
Changes the table at the end of a path; tables that are missing come to be on the way. An array of
tables is entered at its last element, a value never. A dotted key enters no defined table.
-/
def update (created : Origin) (f : Table → Option Table) : List String → Table → Option Table
  | [], t => f t
  | key :: path, t =>
    match find? key t.entries with
    | none => (update created f path ⟨created, []⟩).map fun child =>
        set key (.table child.origin child.entries) t
    | some (.value _) => none
    | some (.table origin entries) =>
      if created = .dotted ∧ origin = .defined then none
      else (update created f path ⟨origin, entries⟩).map fun child =>
        set key (.table child.origin child.entries) t
    | some (.tables elements) =>
      (updateLast (fun last => (update created f path ⟨.defined, last⟩).map (·.entries))
        elements).map fun elements => set key (.tables elements) t

/-- Adds a value. After a dotted path it goes only into a table that dotted keys made. -/
def insertNew (dotted : Bool) (key : String) (v : Json) (t : Table) : Option Table :=
  if dotted ≠ (t.origin = .dotted) then none
  else if (find? key t.entries).isSome then none
  else some (set key (.value v) t)

/-- A key with its value, relative to a table. -/
def insertAt (path : List String) (key : String) (v : Json) (t : Table) : Option Table :=
  update .dotted (insertNew (!path.isEmpty) key v) path t

/--
A header in single brackets defines a table that does not exist or was only implied, and gives it
its place.
-/
def define (key : String) (t : Table) : Option Table :=
  match find? key t.entries with
  | none => some (setLast key (.table .defined []) t)
  | some (.table .implied entries) => some (setLast key (.table .defined entries) t)
  | _ => none

/-- A header in double brackets adds an element to an array of tables. -/
def appendElement (key : String) (t : Table) : Option Table :=
  match find? key t.entries with
  | none => some (set key (.tables [[]]) t)
  | some (.tables elements) => some (set key (.tables (elements ++ [[]])) t)
  | _ => none

end Table

mutual

def Node.toJson : Node → Json
  | .value v => v
  | .table _ entries => .obj (Node.fields entries)
  | .tables elements => .arr (Node.items elements)

def Node.fields : List (String × Node) → List (String × Json)
  | [] => []
  | (key, node) :: rest => (key, node.toJson) :: Node.fields rest

def Node.items : List (List (String × Node)) → List Json
  | [] => []
  | entries :: rest => .obj (Node.fields entries) :: Node.items rest

end

def Table.toJson (t : Table) : Json :=
  .obj (Node.fields t.entries)

end QueryRouting.Toml
