import QueryRouting.Route.Router

/-!
Settings of a service, and their defaults.
-/

namespace QueryRouting

structure ServerConfig where
  bindAddress : String := "0.0.0.0:8080"
  requestTimeoutSecs : Nat := 30
  bodyLimitBytes : Nat := 2 * 1024 * 1024
  /-- Whether requests get an id that their responses repeat. -/
  requestId : Bool := true

structure DatabaseConfig where
  url : String := "sqlite::memory:"
  maxConnections : Nat := 10
  acquireTimeoutSecs : Nat := 5

structure ObservabilityConfig where
  logLevel : String := "info"
  traceRequests : Bool := true
  metricsEnabled : Bool := true

structure Config where
  server : ServerConfig := {}
  database : DatabaseConfig := {}
  observability : ObservabilityConfig := {}
  routes : List RouteConfig := []

def ServerConfig.toJson (c : ServerConfig) : Json :=
  .ofPairs [("bind_address", .str c.bindAddress),
    ("request_timeout_secs", .ofNat c.requestTimeoutSecs),
    ("body_limit_bytes", .ofNat c.bodyLimitBytes), ("request_id", .bool c.requestId)]

def DatabaseConfig.toJson (c : DatabaseConfig) : Json :=
  .ofPairs [("url", .str c.url), ("max_connections", .ofNat c.maxConnections),
    ("acquire_timeout_secs", .ofNat c.acquireTimeoutSecs)]

def ObservabilityConfig.toJson (c : ObservabilityConfig) : Json :=
  .ofPairs [("log_level", .str c.logLevel), ("trace_requests", .bool c.traceRequests),
    ("metrics_enabled", .bool c.metricsEnabled)]

def RouteConfig.toJson (r : RouteConfig) : Json :=
  .ofPairs [("method", .str r.method), ("path", .str r.path), ("steps", .arr r.steps)]

def Config.toJson (c : Config) : Json :=
  .ofPairs [("server", c.server.toJson), ("database", c.database.toJson),
    ("observability", c.observability.toJson), ("routes", .arr (c.routes.map (·.toJson)))]

end QueryRouting
