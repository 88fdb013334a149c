import QueryRouting.Chain.QueryMap
import QueryRouting.Text.Quoted

/-!
Route arguments, their classification from JSON, and the steps they compile to.
-/

namespace QueryRouting

/-- What a function step gets: request and response, and the previous result. -/
structure FunctionInput where
  request : RequestView
  response : ResponseState
  data : Option Json

structure FunctionEffect where
  request : RequestView
  response : ResponseState
  events : List Event

mutual

inductive Argument
  | clear
  /-- Replaces the result by the output of a function. -/
  | map (f : FunctionInput → FunctionOutput)
  | query (template : String)
  | queryMap (queries : List (String × String))
  | status (code : UInt16)
  | raw (step : Step)

inductive FunctionOutput
  | fail (effect : FunctionEffect) (text : String)
  /-- The value is the new result. -/
  | direct (effect : FunctionEffect) (value : Json)
  /-- The argument runs in place of the function. -/
  | defer (effect : FunctionEffect) (argument : Argument)

end

namespace Context

/-- The context that a function leaves; its result slot is empty. -/
def apply (cx : Context) (effect : FunctionEffect) : Context :=
  { cx with request := effect.request, response := effect.response, result := none }

def functionInput (cx : Context) : FunctionInput :=
  ⟨cx.request, cx.response, cx.result⟩

end Context

mutual

/-- The step of an argument. Only a status can be refused. -/
def Argument.compile (executor : Executor) : Argument → Except BindError Step
  | .clear => .ok Step.clear
  | .map f => .ok fun cx => (f cx.functionInput).continue executor cx
  | .query template => .ok (Step.query executor template)
  | .queryMap queries => .ok (QueryMap.step executor queries)
  | .status code =>
    match Status.ofCode? code.toNat with
    | some status => .ok (Step.setStatus status)
    | none => .error (.invalidStatus code)
  | .raw step => .ok step

/-- What happens after a function has given its output. -/
def FunctionOutput.continue (executor : Executor) : FunctionOutput → Step
  | .fail effect text => fun cx =>
    (StepRun.failed (cx.apply effect) (.application text)).after effect.events
  | .direct effect value => fun cx =>
    (StepRun.done ((cx.apply effect).setResult value) .next).after effect.events
  | .defer effect argument => fun cx =>
    match argument.compile executor with
    | .ok step => (step (cx.apply effect)).after effect.events
    | .error e => (StepRun.failed (cx.apply effect) (.bind e)).after effect.events

end

namespace Argument

/-- The steps of arguments; the first one that is refused is reported. -/
def compileAll (executor : Executor) : List Argument → Except BindError (List Step)
  | [] => .ok []
  | argument :: rest => do
    let step ← argument.compile executor
    let steps ← compileAll executor rest
    return step :: steps

/-- The templates of an object, if all its values are strings. -/
def templates? : List (String × Json) → Option (List (String × String))
  | [] => some []
  | (key, .str template) :: rest => (templates? rest).map ((key, template) :: ·)
  | _ => none

/--
An argument by the kind of a JSON value: null clears, a string is a query, an integer a status, an
object of strings a query map.
-/
def classify : Json → Except BindError Argument
  | .null => .ok .clear
  | .str template => .ok (.query template)
  | .int n =>
    if 0 ≤ n ∧ n < Word.size 16 then .ok (.status (UInt16.ofNat n.toNat))
    else .error (.unclassifiable .nonStatusNumber)
  | .double _ => .error (.unclassifiable .nonStatusNumber)
  | .obj fields =>
    match templates? fields with
    | some queries => .ok (.queryMap queries)
    | none => .error (.unclassifiable .objectOfNonStrings)
  | .bool _ => .error (.unclassifiable .boolean)
  | .arr _ => .error (.unclassifiable .array)

def classifyAll : List Json → Except BindError (List Argument)
  | [] => .ok []
  | v :: rest => do
    let argument ← classify v
    let others ← classifyAll rest
    return argument :: others

/-- The shape of an argument and its texts, as it is shown. -/
def describe : Argument → String
  | .clear => "Clear"
  | .map _ => "Map(..)"
  | .query template => "Query(" ++ Text.Quoted.quote template ++ ")"
  | .queryMap queries =>
    "QueryMap([" ++ ", ".intercalate (queries.map fun (key, template) =>
      "(" ++ Text.Quoted.quote key ++ ", " ++ Text.Quoted.quote template ++ ")") ++ "])"
  | .status code => "Status(" ++ toString code.toNat ++ ")"
  | .raw _ => "Raw(..)"

end Argument

end QueryRouting
