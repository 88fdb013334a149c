import QueryRouting.Backend.Failure
import QueryRouting.Query.Failure

/-!
Why a route cannot be bound, and why a step fails.
-/

namespace QueryRouting

inductive PathFault
  | empty
  | noLeadingSlash
  | colonSegment
  | starSegment
  deriving DecidableEq, Repr

def PathFault.message : PathFault → String
  | .empty => "must not be empty"
  | .noLeadingSlash => "must start with \x60/\x60"
  | .colonSegment => "parameters are written \x60\x7bname\x7d\x60, not \x60:name\x60"
  | .starSegment => "wildcards are written \x60\x7b*name\x7d\x60"

/-- A kind of JSON value that no argument is written as. -/
inductive UnusableValue
  | boolean
  | array
  | nonStatusNumber
  | objectOfNonStrings
  deriving DecidableEq, Repr

def UnusableValue.message : UnusableValue → String
  | .boolean => "a boolean"
  | .array => "an array"
  | .nonStatusNumber => "a non status number"
  | .objectOfNonStrings => "an object with non string values"

/-- Found when a route is declared. -/
inductive BindError
  | invalidPath (path : String) (fault : PathFault)
  | invalidStatus (code : UInt16)
  | unclassifiable (value : UnusableValue)
  | invalidMethod (name : String)
  deriving DecidableEq, Repr

def BindError.message : BindError → String
  | .invalidPath path fault => "invalid route path \x60" ++ path ++ "\x60: " ++ fault.message
  | .invalidStatus code => "invalid status code " ++ toString code.toNat
  | .unclassifiable value => "cannot use " ++ value.message ++ " as a route argument"
  | .invalidMethod name => "invalid HTTP method \x60" ++ name ++ "\x60"

/-- Found while a request runs; it ends the chain. -/
inductive StepError
  | template (e : TemplateError)
  | execute (e : ExecError)
  /-- A deferred argument could not be compiled. -/
  | bind (e : BindError)
  | application (text : String)
  | body (text : String)
  | payloadTooLarge (limit : Nat)
  deriving DecidableEq, Repr

def StepError.message : StepError → String
  | .template e => e.message
  | .execute e => e.message
  | .bind e => e.message
  | .application text => "application error: " ++ text
  | .body text => "invalid request body: " ++ text
  | .payloadTooLarge limit => "request body exceeds " ++ toString limit ++ " bytes"

end QueryRouting
