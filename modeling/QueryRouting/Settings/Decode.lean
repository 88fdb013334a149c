import QueryRouting.Settings.Schema

/-!
Reading settings from a JSON value.

A record is an object, or an array of its fields in their order. A field that is absent has its
default, and an unknown one is ignored; null is a value and no absence. The steps of a route may be
any values.
-/

namespace QueryRouting.Settings

/-- Whether more items than a record has fields are ignored, and members behind embedded text. -/
abbrev Surplus := Bool

/-- Whether a value can be a record of so many fields. -/
def isRecord (surplus : Surplus) (arity : Nat) : Json → Bool
  | .obj _ => true
  | .arr items => surplus || items.length ≤ arity
  | _ => false

/-- The field of a record by its name and place. -/
def field? (v : Json) (name : String) (place : Nat) : Option Json :=
  match v with
  | .obj fields => Keyed.find? name fields
  | .arr items => items[place]?
  | _ => none

def bool? : Json → Option Bool
  | .bool b => some b
  | _ => none

/-- An integer of so many bits, without a sign. -/
def natural? (bits : Nat) : Json → Option Nat
  | .int n => if 0 ≤ n ∧ n < Word.size bits then some n.toNat else none
  | _ => none

def array? : Json → Option (List Json)
  | .arr items => some items
  | _ => none

/-- A field with a default. -/
def optional (read : Json → Option α) (default : α) : Option Json → Option α
  | none => some default
  | some v => read v

/-- A field without one. -/
def required (read : Json → Option α) (v : Option Json) : Option α :=
  v.bind read

def server? (surplus : Surplus) (v : Json) : Option ServerConfig :=
  let default : ServerConfig := {}
  if isRecord surplus 4 v then do
    return ⟨← optional Json.string? default.bindAddress (field? v "bind_address" 0),
      ← optional (natural? 64) default.requestTimeoutSecs (field? v "request_timeout_secs" 1),
      ← optional (natural? 64) default.bodyLimitBytes (field? v "body_limit_bytes" 2),
      ← optional bool? default.requestId (field? v "request_id" 3)⟩
  else none

def database? (surplus : Surplus) (v : Json) : Option DatabaseConfig :=
  let default : DatabaseConfig := {}
  if isRecord surplus 3 v then do
    return ⟨← optional Json.string? default.url (field? v "url" 0),
      ← optional (natural? 32) default.maxConnections (field? v "max_connections" 1),
      ← optional (natural? 64) default.acquireTimeoutSecs (field? v "acquire_timeout_secs" 2)⟩
  else none

def observability? (surplus : Surplus) (v : Json) : Option ObservabilityConfig :=
  let default : ObservabilityConfig := {}
  if isRecord surplus 3 v then do
    return ⟨← optional Json.string? default.logLevel (field? v "log_level" 0),
      ← optional bool? default.traceRequests (field? v "trace_requests" 1),
      ← optional bool? default.metricsEnabled (field? v "metrics_enabled" 2)⟩
  else none

def steps? (surplus : Surplus) (v : Json) : Option (List Json) :=
  (array? v).bind (Json.resolveItems? surplus)

/-- Only the steps of a route may be absent. -/
def route? (surplus : Surplus) (v : Json) : Option RouteConfig :=
  if isRecord surplus 3 v then do
    return ⟨← required Json.string? (field? v "method" 0),
      ← required Json.string? (field? v "path" 1),
      ← optional (steps? surplus) [] (field? v "steps" 2)⟩
  else none

def routes? (surplus : Surplus) (v : Json) : Option (List RouteConfig) :=
  (array? v).bind fun items => items.mapM (route? surplus)

def config? (surplus : Surplus) (v : Json) : Option Config :=
  if isRecord surplus 4 v then do
    return ⟨← optional (server? surplus) {} (field? v "server" 0),
      ← optional (database? surplus) {} (field? v "database" 1),
      ← optional (observability? surplus) {} (field? v "observability" 2),
      ← optional (routes? surplus) [] (field? v "routes" 3)⟩
  else none

end QueryRouting.Settings
