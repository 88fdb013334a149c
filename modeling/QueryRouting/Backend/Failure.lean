/-!
Why a query fails in a backend.
-/

namespace QueryRouting

/-- Why a type refuses its arguments. -/
inductive Rejection
  | takesNone
  | takesAtMostOne
  | takesAtMostTwo
  | lengthNotPositive
  | exceeds (quantity : String) (max : Nat)
  | scaleExceedsPrecision
  | other (reason : String)
  deriving DecidableEq, Repr

def Rejection.message : Rejection → String
  | .takesNone => "takes no arguments"
  | .takesAtMostOne => "takes at most one argument"
  | .takesAtMostTwo => "takes at most two arguments"
  | .lengthNotPositive => "length must be positive"
  | .exceeds quantity max => quantity ++ " must be at most " ++ toString max
  | .scaleExceedsPrecision => "scale must not exceed a positive precision"
  | .other reason => reason

inductive ExecError
  | database
  | driver (text : String)
  | unknownType (name : String)
  | typeArguments (type : String) (args : List Nat) (reason : Rejection)
  | unsupportedUrl (url : String)
  deriving DecidableEq, Repr

namespace ExecError

def argumentList (args : List Nat) : String :=
  "[" ++ ", ".intercalate (args.map toString) ++ "]"

def message : ExecError → String
  | .database => "database error"
  | .driver text => text
  | .unknownType name => "unknown parameter type \x60" ++ name ++ "\x60"
  | .typeArguments type args reason =>
    "parameter type \x60" ++ type ++ "\x60 rejected arguments " ++ argumentList args ++ ": "
      ++ reason.message
  | .unsupportedUrl url => "unsupported database url \x60" ++ url ++ "\x60"

end ExecError

end QueryRouting
