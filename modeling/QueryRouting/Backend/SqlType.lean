/-!
Parameter types of SQL Server.
-/

namespace QueryRouting

inductive Length
  | max
  | fixed (n : Nat)
  deriving DecidableEq, Repr

def Length.text : Length → String
  | .max => "Max"
  | .fixed n => "Fixed(" ++ toString n ++ ")"

inductive SqlType
  | bit
  | tinyInt
  | smallInt
  | int
  | bigInt
  | float
  | real
  | decimal (precision scale : Nat)
  | numeric (precision scale : Nat)
  | money
  | char (length : Length)
  | nChar (length : Length)
  | varChar (length : Length)
  | nVarChar (length : Length)
  | text
  | nText
  | binary (length : Length)
  | varBinary (length : Length)
  | date
  | dateTime
  | dateTime2 (scale : Nat)
  | dateTimeOffset (scale : Nat)
  | time (scale : Nat)
  | uniqueIdentifier
  | xml
  deriving DecidableEq, Repr

namespace SqlType

def braced (name fields : String) : String :=
  name ++ " \x7b " ++ fields ++ " \x7d"

def precisionAndScale (name : String) (precision scale : Nat) : String :=
  braced name ("precision: " ++ toString precision ++ ", scale: " ++ toString scale)

def scaled (name : String) (scale : Nat) : String :=
  braced name ("scale: " ++ toString scale)

def sized (name : String) (length : Length) : String :=
  name ++ "(" ++ length.text ++ ")"

/-- A type with its numbers, as it is shown. -/
def describe : SqlType → String
  | .bit => "Bit"
  | .tinyInt => "TinyInt"
  | .smallInt => "SmallInt"
  | .int => "Int"
  | .bigInt => "BigInt"
  | .float => "Float"
  | .real => "Real"
  | .decimal p s => precisionAndScale "Decimal" p s
  | .numeric p s => precisionAndScale "Numeric" p s
  | .money => "Money"
  | .char n => sized "Char" n
  | .nChar n => sized "NChar" n
  | .varChar n => sized "VarChar" n
  | .nVarChar n => sized "NVarChar" n
  | .text => "Text"
  | .nText => "NText"
  | .binary n => sized "Binary" n
  | .varBinary n => sized "VarBinary" n
  | .date => "Date"
  | .dateTime => "DateTime"
  | .dateTime2 s => scaled "DateTime2" s
  | .dateTimeOffset s => scaled "DateTimeOffset" s
  | .time s => scaled "Time" s
  | .uniqueIdentifier => "UniqueIdentifier"
  | .xml => "Xml"

end SqlType

end QueryRouting
