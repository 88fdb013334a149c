import QueryRouting.Chain.Step
import QueryRouting.Route.MethodMatcher

/-!
Running the steps of one path: router-level steps, parameter hooks, then the routes that accept
the method.
-/

namespace QueryRouting

/-- Runs with the value of a path parameter. -/
abbrev ParamHook := Context → String → StepRun

structure Route where
  matcher : MethodMatcher
  steps : List Step

/-- What all paths of a router have in common. -/
structure Shared where
  steps : List Step
  hooks : List (String × ParamHook)

namespace StepRun

/-- Goes on with another run if the flow passes. -/
def andThen (run : StepRun) (passes : Flow → Bool) (next : Step) : StepRun :=
  match run.outcome with
  | .ok flow => if passes flow then (next run.context).after run.events else run
  | .error _ => run

end StepRun

namespace Flow

def isNext (flow : Flow) : Bool :=
  flow == .next

/-- Outside a route there is none to skip. -/
def isNextOrSkip (flow : Flow) : Bool :=
  flow == .next || flow == .skipRoute

end Flow

namespace Step

/-- Runs steps one after the other as long as their flow passes. -/
def chain (passes : Flow → Bool) : List Step → Step
  | [] => fun cx => .done cx .next
  | step :: rest => fun cx => (step cx).andThen passes (chain passes rest)

/-- The first step of every route. -/
def mark : Step := fun cx =>
  .done cx.markMatched .next

end Step

namespace ParamHook

/-- The step of a hook: it runs only if its parameter is a string. -/
def step (name : String) (hook : ParamHook) : Step := fun cx =>
  match cx.request.param? name with
  | some value => hook cx value
  | none => .done cx .next

end ParamHook

namespace Route

/-- Runs a route. Skipping it ends the route and not the chain. -/
def run (route : Route) : Step := fun cx =>
  let run := Step.chain Flow.isNext (Step.mark :: route.steps) cx
  match run.outcome with
  | .ok .skipRoute => { run with outcome := .ok .next }
  | _ => run

end Route

namespace Shared

def runSteps (shared : Shared) : Step :=
  Step.chain Flow.isNextOrSkip shared.steps

def runHooks (shared : Shared) : Step :=
  Step.chain Flow.isNextOrSkip (shared.hooks.map fun (name, hook) => hook.step name)

end Shared

/-- The routes of a path that accept a method, in declaration order. -/
def acceptingRoutes (routes : List Route) (method : Method) : List Route :=
  routes.filter (·.matcher.accepts method)

/-- Runs the hooks and the routes that accept the method, if there is such a route. -/
def Shared.serve (shared : Shared) (routes : List Route) : Step := fun cx =>
  match acceptingRoutes routes cx.request.method with
  | [] => .done cx .next
  | accepting =>
    (shared.runHooks cx).andThen Flow.isNext (Step.chain Flow.isNext (accepting.map Route.run))

/--
Runs everything that applies. The method that the router-level steps leave decides which routes
do.
-/
def runTable (shared : Shared) (routes : List Route) : Step := fun cx =>
  (shared.runSteps cx).andThen Flow.isNext (shared.serve routes)

end QueryRouting
