import QueryRouting.Settings.Schema

/-!
Counters of queries and requests.
-/

namespace QueryRouting

inductive Metric
  | queries (backend : String) (succeeded : Bool)
  /-- One sample for each query. -/
  | queryDurations (backend : String)
  | requests (departure : Departure)
  deriving DecidableEq, Repr

def Departure.label : Departure → String
  | .error => "error"
  | .sent => "sent"
  | .forwarded => "forwarded"
  | .result => "result"

namespace Metric

def labelled (name : String) (labels : List (String × String)) : String :=
  name ++ "\x7b" ++ ",".intercalate (labels.map fun (key, value) => key ++ "=" ++ value) ++ "\x7d"

def text : Metric → String
  | .queries backend succeeded =>
    labelled "krauter_queries_total"
      [("backend", backend), ("outcome", if succeeded then "ok" else "error")]
  | .queryDurations backend => labelled "krauter_query_duration_seconds" [("backend", backend)]
  | .requests departure => labelled "krauter_requests_total" [("outcome", departure.label)]

def ofEvent : Event → List Metric
  | .finished backend _ succeeded => [.queries backend succeeded, .queryDurations backend]
  | _ => []

/-- Each increment of an exchange. A request that never got to the router counts nothing. -/
def ofExchange (x : Exchange) : List Metric :=
  x.events.flatMap ofEvent ++ (x.departure.map .requests).toList

end Metric

/-- Increments so far, if recording is on. -/
structure Recorder where
  enabled : Bool
  increments : List Metric

namespace Recorder

def record (r : Recorder) (x : Exchange) : Recorder :=
  if r.enabled then { r with increments := r.increments ++ Metric.ofExchange x } else r

def count (r : Recorder) (m : Metric) : Nat :=
  r.increments.count m

/-- All counters above zero, by text. -/
def snapshot (r : Recorder) : Keyed Nat :=
  Keyed.ofList (r.increments.map fun m => (m.text, r.count m))

end Recorder

end QueryRouting
