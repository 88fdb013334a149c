import QueryRouting.Backend.Database
import QueryRouting.Settings.Schema
import QueryRouting.Settings.SocketAddress

/-!
Checking settings. Every check is made, and each one that fails is reported under its key.
-/

namespace QueryRouting

structure ValidationError where
  key : String
  message : String
  deriving DecidableEq, Repr

namespace ValidationError

def text (e : ValidationError) : String :=
  e.key ++ ": " ++ e.message

end ValidationError

namespace Config

/-- The error of a check that failed. -/
def report (failed : Bool) (key message : String) : List ValidationError :=
  if failed then [⟨key, message⟩] else []

def positive (key : String) (n : Nat) : List ValidationError :=
  report (n == 0) key "must be > 0"

/-- The error of a check that gives a reason. -/
def reportError (key : String) : Except BindError α → List ValidationError
  | .ok _ => []
  | .error e => [⟨key, e.message⟩]

def serverErrors (c : ServerConfig) : List ValidationError :=
  report (SocketAddress.parse? c.bindAddress).isNone "server.bind_address"
      ("\x60" ++ c.bindAddress ++ "\x60 is not a socket address")
    ++ positive "server.request_timeout_secs" c.requestTimeoutSecs
    ++ positive "server.body_limit_bytes" c.bodyLimitBytes

def databaseErrors (c : DatabaseConfig) : List ValidationError :=
  report (DatabaseKind.ofUrl? c.url).isNone "database.url"
      (ExecError.unsupportedUrl c.url).message
    ++ positive "database.max_connections" c.maxConnections
    ++ positive "database.acquire_timeout_secs" c.acquireTimeoutSecs

def routeKey (i : Nat) : String :=
  "routes[" ++ toString i ++ "]"

/-- Errors of steps, the first one at the given place. -/
def stepErrors (route : String) (j : Nat) : List Json → List ValidationError
  | [] => []
  | v :: rest =>
    reportError (route ++ ".steps[" ++ toString j ++ "]") (Argument.classify v)
      ++ stepErrors route (j + 1) rest

def routeErrors (i : Nat) (route : RouteConfig) : List ValidationError :=
  reportError (routeKey i ++ ".method") (MethodMatcher.parse route.method)
    ++ reportError (routeKey i ++ ".path") (checkPath route.path)
    ++ stepErrors (routeKey i) 0 route.steps

/-- Errors of routes, the first one at the given place. -/
def routesErrors (i : Nat) : List RouteConfig → List ValidationError
  | [] => []
  | route :: rest => routeErrors i route ++ routesErrors (i + 1) rest

/-- All errors, in the order of the keys in the schema. -/
def errors (c : Config) : List ValidationError :=
  serverErrors c.server ++ databaseErrors c.database ++ routesErrors 0 c.routes

/-- Settings without errors, or all errors. -/
def validate (c : Config) : Except (List ValidationError) Config :=
  match c.errors with
  | [] => .ok c
  | errors => .error errors

end Config

end QueryRouting
