import QueryRouting.Chain.Argument
import QueryRouting.Message.Percent
import QueryRouting.Route.Exchange
import QueryRouting.Route.Pattern

/-!
Declaring routes, and the router that they make.
-/

namespace QueryRouting

/-- A route declared in configuration, its steps as JSON. -/
structure RouteConfig where
  method : String
  path : String
  steps : List Json

structure Binding where
  path : String
  route : Route

structure Builder where
  executor : Executor
  bindings : List Binding
  shared : Shared
  collaborators : Collaborators
  /-- Headers to set on every response, in declaration order. -/
  responseHeaders : List (String × Bytes)
  bodyLimit : Nat

namespace Builder

/-- Bodies up to 2 MiB are buffered. -/
def defaultBodyLimit : Nat := 2 * 1024 * 1024

def new (executor : Executor) : Builder where
  executor
  bindings := []
  shared := ⟨[], []⟩
  collaborators := ⟨ErrorHandler.default, none⟩
  responseHeaders := []
  bodyLimit := defaultBodyLimit

/-- The binding of arguments to a path. The path is checked before the arguments. -/
def binding (executor : Executor) (matcher : MethodMatcher) (path : String)
    (arguments : List Argument) : Except BindError Binding := do
  checkPath path
  return ⟨path, matcher, ← Argument.compileAll executor arguments⟩

def push (b : Builder) (binding : Binding) : Builder :=
  { b with bindings := b.bindings ++ [binding] }

def bind (b : Builder) (matcher : MethodMatcher) (path : String) (arguments : List Argument) :
    Except BindError Builder :=
  (binding b.executor matcher path arguments).map b.push

def configuredBinding (executor : Executor) (route : RouteConfig) : Except BindError Binding := do
  let matcher ← MethodMatcher.parse route.method
  let arguments ← Argument.classifyAll route.steps
  binding executor matcher route.path arguments

/-- Binds routes until one fails; those before it stay bound. -/
def bindRoutes (b : Builder) : List RouteConfig → Builder × Except BindError Unit
  | [] => (b, .ok ())
  | route :: rest =>
    match configuredBinding b.executor route with
    | .ok binding => (b.push binding).bindRoutes rest
    | .error e => (b, .error e)

/-- A step that runs for every request, before any route. -/
def useStep (b : Builder) (step : Step) : Builder :=
  { b with shared := { b.shared with steps := b.shared.steps ++ [step] } }

def useHook (b : Builder) (name : String) (hook : ParamHook) : Builder :=
  { b with shared := { b.shared with hooks := b.shared.hooks ++ [(name, hook)] } }

def setResponseHeader (b : Builder) (name : String) (value : Bytes) : Builder :=
  { b with responseHeaders := b.responseHeaders ++ [(name, value)] }

def setFallback (b : Builder) (fallback : Fallback) : Builder :=
  { b with collaborators := { b.collaborators with fallback := some fallback } }

def setErrorHandler (b : Builder) (handler : ErrorHandler) : Builder :=
  { b with collaborators := { b.collaborators with handler } }

end Builder

structure PathTable where
  path : String
  routes : List Route

/-- The paths in the order of their first bindings, and the routes that each one has. -/
structure Grouping where
  order : List String
  routes : Keyed (List Route)

namespace Grouping

def empty : Grouping := ⟨[], []⟩

/-- Binds a route. A path gets its place in the order when it has no routes. -/
def add (g : Grouping) (binding : Binding) : Grouping :=
  match g.routes.find? binding.path with
  | some routes => { g with routes := g.routes.insert binding.path (routes ++ [binding.route]) }
  | none => ⟨g.order ++ [binding.path], g.routes.insert binding.path [binding.route]⟩

/-- Takes the routes of paths out, path by path. -/
def tables (routes : Keyed (List Route)) : List String → List PathTable
  | [] => []
  | path :: order =>
    ⟨path, (routes.find? path).getD []⟩ :: tables (routes.remove path) order

end Grouping

/-- One table for each path, with its bindings in declaration order. -/
def groupByPath (bindings : List Binding) : List PathTable :=
  let g := bindings.foldl Grouping.add .empty
  Grouping.tables g.routes g.order

structure RegisteredPath where
  pattern : Pattern
  routes : List Route

/-- Adds paths to those that are registered; `none` if one is malformed or conflicts. -/
def registerAll (registered : List RegisteredPath) : List PathTable → Option (List RegisteredPath)
  | [] => some registered
  | table :: rest =>
    match Pattern.ofString? table.path with
    | none => none
    | some pattern =>
      if registered.any (·.pattern.conflicts pattern) then none
      else registerAll (registered ++ [⟨pattern, table.routes⟩]) rest

/-- Answers a request; the text is the id that it gets if it has none. -/
abbrev Service := String → Request → Exchange

/-- A path that matches a request path, with what it captures. -/
structure PathMatch where
  entry : RegisteredPath
  captures : List (String × String)

namespace PathMatch

def all (paths : List RegisteredPath) (path : List Char) : List PathMatch :=
  paths.filterMap fun entry => (entry.pattern.capture path).map (⟨entry, ·⟩)

/-- The match whose pattern precedes all others. -/
def best? : List PathMatch → Option PathMatch
  | [] => none
  | m :: rest =>
    match best? rest with
    | none => some m
    | some other => if other.entry.pattern.precedes m.entry.pattern then some other else some m

/-- Parameters whose names begin like this match but are not seen. -/
def hiddenNames : List String :=
  ["__private__axum_nest_tail_param", "__private__axum_fallback"]

def isHidden (name : String) : Bool :=
  hiddenNames.any fun start => start.toList.isPrefixOf name.toList

/-- The captured parameters, decoded; if one that is seen is not UTF-8 there are none at all. -/
def params (m : PathMatch) : List (String × String) :=
  ((m.captures.filter (!isHidden ·.1)).mapM fun (c : String × String) =>
    (Percent.decodeText? c.2).map fun value => (c.1, value)).getD []

end PathMatch

structure Router where
  paths : List RegisteredPath
  shared : Shared
  collaborators : Collaborators
  responseHeaders : List (String × Bytes)
  bodyLimit : Nat

namespace Router

/-- The router of what was declared; `none` if its paths cannot all be registered. -/
def ofBuilder? (b : Builder) : Option Router :=
  (registerAll [] (groupByPath b.bindings)).map fun paths =>
    ⟨paths, b.shared, b.collaborators, b.responseHeaders, b.bodyLimit⟩

/-- Requests to an unknown path still pass the router-level steps. -/
def dispatch (router : Router) : Service := fun fresh request =>
  let m := PathMatch.best? (PathMatch.all router.paths request.target.path.toList)
  let routes := (m.map (·.entry.routes)).getD []
  let params := (m.map (·.params)).getD []
  exchange router.collaborators router.bodyLimit (runTable router.shared routes) params fresh
    request

def addHeaders (headers : List (String × Bytes)) (response : Response) : Response :=
  { response with
    headers := headers.foldl (fun hs (name, value) => hs.insert name value) response.headers }

/-- Responses to HEAD, and successful ones to CONNECT, have no body. -/
def stripBody (method : Method) (response : Response) : Response :=
  if method = Method.head ∨ (method = Method.connect ∧ response.status.isSuccess) then
    { response with body := [] }
  else response

def serve (router : Router) : Service := fun fresh request =>
  let answer := router.dispatch fresh request
  { answer with
    response := stripBody request.method (addHeaders router.responseHeaders answer.response) }

end Router

end QueryRouting
