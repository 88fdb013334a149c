import QueryRouting.Chain.Failure
import QueryRouting.Message.Method
import QueryRouting.Text.Blank

/-!
Which request methods a route accepts.
-/

namespace QueryRouting

inductive MethodMatcher
  | any
  | only (method : Method)
  deriving DecidableEq, Repr

namespace MethodMatcher

/-- A route for GET also accepts HEAD. -/
def accepts : MethodMatcher → Method → Bool
  | .any, _ => true
  | .only expected, method =>
    expected == method || (expected == Method.get && method == Method.head)

def anyName : String := "ALL"

/-- The matcher of a configured name, in any case; `ALL` accepts every method. -/
def parse (name : String) : Except BindError MethodMatcher :=
  let upper := (Text.trim name.toList).map Char.toUpper
  if upper = anyName.toList then .ok .any
  else
    match Method.ofName? upper with
    | some method => .ok (.only method)
    | none => .error (.invalidMethod name)

def text : MethodMatcher → String
  | .any => anyName
  | .only method => method.name

end MethodMatcher

end QueryRouting
