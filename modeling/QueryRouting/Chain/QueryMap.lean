import QueryRouting.Chain.Step

/-!
Query maps: several queries that run at the same time, with their results stored by key.

All templates are read before any query starts. Queries then take turns in the order of
declaration: one starts with its first turn, and ends with the turn after which it has no more to
wait for. Each one that starts is driven to its end, also when another one has failed.
-/

namespace QueryRouting.QueryMap

/-- Keeps the last template of each key, in the order of these last ones. -/
def lastOfEachKey : List (String × String) → List (String × String)
  | [] => []
  | (key, template) :: rest =>
    if rest.any (·.1 = key) then lastOfEachKey rest
    else (key, template) :: lastOfEachKey rest

/-- The queries of the templates; the first template that fails decides the error. -/
def describe (cx : Context) : List (String × String) →
    Except TemplateError (List (String × Descriptor))
  | [] => .ok []
  | (key, template) :: rest => do
    let query ← (Template.ofString template).describe cx.lookup
    let others ← describe cx rest
    return (key, query) :: others

/-- How many turns a query has to wait for, by its place in the map. -/
abbrev Delays := Nat → Descriptor → Nat

/-- A query that has not ended. -/
structure Pending where
  key : String
  query : Descriptor
  execution : Execution
  started : Bool
  left : Nat

namespace Pending

/-- What happens in a turn: the first one starts the query, and the last one ends it. -/
def turnEvents (p : Pending) (backend : String) : List Event :=
  (if p.started then [] else p.execution.startEvents backend p.query) ++
    if p.left = 0 then [p.execution.endEvent backend p.query] else []

/-- The query after a turn that does not end it. -/
def wait (p : Pending) : Pending :=
  { p with started := true, left := p.left - 1 }

end Pending

/-- What the queries that have ended leave: results by key, and the first failure. -/
structure Gathered where
  results : Keyed Json
  failure : Option ExecError

namespace Gathered

def empty : Gathered :=
  ⟨[], none⟩

/-- After a failure nothing more counts. -/
def add (g : Gathered) (key : String) (result : Except ExecError Json) : Gathered :=
  match g.failure, result with
  | some _, _ => g
  | none, .ok v => { g with results := g.results.insert key v }
  | none, .error e => { g with failure := some e }

end Gathered

/-- The number of turns that these queries still take. -/
def turnsLeft : List Pending → Nat
  | [] => 0
  | p :: rest => p.left + 1 + turnsLeft rest

theorem turnsLeft_append (line rest : List Pending) :
    turnsLeft (line ++ rest) = turnsLeft line + turnsLeft rest := by
  induction line with
  | nil => exact (Nat.zero_add _).symm
  | cons p line ih =>
    rw [List.cons_append, turnsLeft, turnsLeft, ih]
    omega

theorem turnsLeft_wait {p : Pending} (h : p.left ≠ 0) (rest : List Pending) :
    turnsLeft (rest ++ [p.wait]) < turnsLeft (p :: rest) := by
  rw [turnsLeft_append]
  simp only [turnsLeft, Pending.wait]
  omega

/--
Gives turns until every query has ended. The first in line has the next turn, and goes to the end
of the line if it needs another one.
-/
def drain (backend : String) (g : Gathered) : List Pending → Gathered × List Event
  | [] => (g, [])
  | p :: rest =>
    if p.left = 0 then
      let (g, events) := drain backend (g.add p.key p.execution.result) rest
      (g, p.turnEvents backend ++ events)
    else
      let (g, events) := drain backend g (rest ++ [p.wait])
      (g, p.turnEvents backend ++ events)
termination_by line => turnsLeft line
decreasing_by
  · rw [turnsLeft]
    exact Nat.lt_add_of_pos_left (Nat.succ_pos _)
  · exact turnsLeft_wait ‹_› rest

/-- The query at a place of the map, in line for its first turn. -/
def enqueue (executor : Executor) (delays : Delays) (i : Nat) (query : String × Descriptor) :
    Pending :=
  ⟨query.1, query.2, executor.execute query.2, false, delays i query.2⟩

def lineUp (executor : Executor) (delays : Delays) (queries : List (String × Descriptor)) :
    List Pending :=
  queries.mapIdx (enqueue executor delays)

/-- Runs queries until all have ended. A failure leaves the context as it was. -/
def runAll (executor : Executor) (delays : Delays) (queries : List (String × Descriptor)) : Step :=
  fun cx =>
    let (g, events) := drain executor.backend .empty (lineUp executor delays queries)
    match g.failure with
    | some e => ⟨cx, .error (.execute e), events⟩
    | none => ⟨cx.setResult (.obj g.results), .ok .next, events⟩

def stepUnder (executor : Executor) (delays : Delays) (queries : List (String × String)) : Step :=
  fun cx =>
    match describe cx (lastOfEachKey queries) with
    | .error e => .failed cx (.template e)
    | .ok queries => runAll executor delays queries cx

/-- Runs the queries of a map under the delays of their executor. -/
def step (executor : Executor) (queries : List (String × String)) : Step :=
  stepUnder executor (fun _ query => (executor.execute query).delay) queries

end QueryRouting.QueryMap
