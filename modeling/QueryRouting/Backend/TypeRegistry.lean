import QueryRouting.Backend.Failure
import QueryRouting.Backend.SqlType
import QueryRouting.Keyed
import QueryRouting.Text.Quoted

/-!
Parameter types by name, and the arguments each accepts.
-/

namespace QueryRouting

abbrev TypeConstructor := List Nat → Except Rejection SqlType

structure TypeRegistry where
  constructors : Keyed TypeConstructor

namespace TypeRegistry

def empty : TypeRegistry := ⟨[]⟩

/-- A later registration of a name replaces an earlier one. -/
def register (registry : TypeRegistry) (name : String) (constructor : TypeConstructor) :
    TypeRegistry :=
  ⟨registry.constructors.insert name constructor⟩

def ofList (types : List (String × TypeConstructor)) : TypeRegistry :=
  types.foldl (fun registry (name, constructor) => registry.register name constructor) empty

def plain (type : SqlType) : TypeConstructor
  | [] => .ok type
  | _ => .error .takesNone

/-- A length is one positive number; without one it is the largest. -/
def length : List Nat → Except Rejection Length
  | [] => .ok .max
  | [0] => .error .lengthNotPositive
  | [n] => .ok (.fixed n)
  | _ => .error .takesAtMostOne

def sized (build : Length → SqlType) : TypeConstructor := fun args =>
  (length args).map build

def atMost (quantity : String) (max n : Nat) : Except Rejection Nat :=
  if n ≤ max then .ok n else .error (.exceeds quantity max)

def maxPrecision : Nat := 38

def maxScale : Nat := 7

/-- The scale is at most the precision, and that is positive. -/
def checkPrecision (precision scale : Nat) : Except Rejection (Nat × Nat) :=
  if precision = 0 ∨ precision < scale then .error .scaleExceedsPrecision
  else .ok (precision, scale)

def precisionAndScale : List Nat → Except Rejection (Nat × Nat)
  | [] => checkPrecision 18 0
  | [p] => do checkPrecision (← atMost "precision" maxPrecision p) 0
  | [p, s] => do
    let precision ← atMost "precision" maxPrecision p
    let scale ← atMost "scale" maxPrecision s
    checkPrecision precision scale
  | _ => .error .takesAtMostTwo

def exact (build : Nat → Nat → SqlType) : TypeConstructor := fun args =>
  (precisionAndScale args).map fun (precision, scale) => build precision scale

/-- A scale is one number; without one it is the largest. -/
def scale : List Nat → Except Rejection Nat
  | [] => .ok maxScale
  | [s] => atMost "scale" maxScale s
  | _ => .error .takesAtMostOne

def scaled (build : Nat → SqlType) : TypeConstructor := fun args =>
  (scale args).map build

def standardTypes : List (String × TypeConstructor) :=
  [("Bit", plain .bit), ("TinyInt", plain .tinyInt), ("SmallInt", plain .smallInt),
    ("Int", plain .int), ("BigInt", plain .bigInt), ("Float", plain .float),
    ("Real", plain .real), ("Money", plain .money), ("Decimal", exact .decimal),
    ("Numeric", exact .numeric), ("Char", sized .char), ("NChar", sized .nChar),
    ("VarChar", sized .varChar), ("NVarChar", sized .nVarChar), ("Text", plain .text),
    ("NText", plain .nText), ("Binary", sized .binary), ("VarBinary", sized .varBinary),
    ("Date", plain .date), ("DateTime", plain .dateTime), ("DateTime2", scaled .dateTime2),
    ("DateTimeOffset", scaled .dateTimeOffset), ("Time", scaled .time),
    ("UniqueIdentifier", plain .uniqueIdentifier), ("Xml", plain .xml)]

def standard : TypeRegistry :=
  ofList standardTypes

def construct (registry : TypeRegistry) (name : String) (args : List Nat) :
    Except ExecError SqlType :=
  match registry.constructors.find? name with
  | none => .error (.unknownType name)
  | some constructor => (constructor args).mapError (.typeArguments name args)

def describe (registry : TypeRegistry) : String :=
  "TypeRegistry \x7b types: ["
    ++ ", ".intercalate (registry.constructors.map fun (name, _) => Text.Quoted.quote name)
    ++ "] \x7d"

end TypeRegistry

end QueryRouting
