import QueryRouting.Proofs.Chain.Query

namespace QueryRouting

/-- What no step writes that neither calls a function nor is custom. -/
structure Context.Untouched (cx final : Context) : Prop where
  request : final.request = cx.request
  matched : final.matched = cx.matched
  requestId : final.requestId = cx.requestId
  headers : final.response.headers = cx.response.headers
  sent : final.response.sent = cx.response.sent

/--
How an executor treats the queries of one run of a step. What becomes of a query may depend on its
place among them, so that the same query can turn out in several ways.
-/
structure Conduct where
  backend : String
  execution : Nat → Descriptor → Execution

def Executor.conduct (executor : Executor) : Conduct :=
  ⟨executor.backend, fun _ => executor.execute⟩

namespace QueryMap

/-- The query at a place of the map, in line for its first turn. -/
def enqueueUnder (conduct : Conduct) (i : Nat) (query : String × Descriptor) : Pending :=
  ⟨query.1, query.2, conduct.execution i query.2, false, (conduct.execution i query.2).delay⟩

/-- What is left of a map when all of its queries have ended. -/
def conclude (cx : Context) (drained : Gathered × List Event) : StepRun :=
  match drained.1.failure with
  | some e => ⟨cx, .error (.execute e), drained.2⟩
  | none => ⟨cx.setResult (.obj drained.1.results), .ok .next, drained.2⟩

def stepOf (conduct : Conduct) (queries : List (String × String)) : Step := fun cx =>
  match describe cx (lastOfEachKey queries) with
  | .error e => .failed cx (.template e)
  | .ok queries =>
    conclude cx (drain conduct.backend .empty (queries.mapIdx (enqueueUnder conduct)))

theorem stepOf_conduct (executor : Executor) (queries : List (String × String)) :
    stepOf executor.conduct queries = step executor queries := by
  funext cx
  rw [stepOf, step, stepUnder]
  cases describe cx (lastOfEachKey queries) with
  | error e => rfl
  | ok queries => rfl

end QueryMap

namespace Argument

/-- The step of an argument that neither calls a function nor is custom, if it has one. -/
def stepOf? (conduct : Conduct) : Argument → Option Step
  | .clear => some Step.clear
  | .query template => some (Step.query ⟨conduct.backend, conduct.execution 0⟩ template)
  | .queryMap queries => some (QueryMap.stepOf conduct queries)
  | .status code => (Status.ofCode? code.toNat).map Step.setStatus
  | .map _ | .raw _ => none

def IsPlain : Argument → Prop
  | .map _ | .raw _ => False
  | .clear | .query _ | .queryMap _ | .status _ => True

variable {argument : Argument} {executor : Executor} {conduct : Conduct} {step : Step}
  {cx : Context}

theorem stepOf?_conduct (h : argument.IsPlain) (hc : argument.compile executor = .ok step) :
    argument.stepOf? executor.conduct = some step := by
  cases argument with
  | clear =>
    cases hc
    rfl
  | map f => exact h.elim
  | query template =>
    cases hc
    rfl
  | queryMap queries =>
    cases hc
    rw [stepOf?, QueryMap.stepOf_conduct]
  | status code =>
    rw [compile] at hc
    rw [stepOf?]
    split at hc
    · rename_i status hs
      cases hc
      rw [hs, Option.map_some]
    · cases hc
  | raw step => exact h.elim

/-- The context that the step of an argument leaves if it succeeds: one thing is written. -/
inductive Writes (cx : Context) : Argument → Context → Prop
  | clear : Writes cx .clear { cx with result := none }
  | query (template : String) (v : Json) : Writes cx (.query template) { cx with result := some v }
  | queryMap (queries : List (String × String)) (results : Keyed Json) :
      Writes cx (.queryMap queries) { cx with result := some (.obj results) }
  | status (code : UInt16) (status : Status) (h : status.code = code.toNat) :
      Writes cx (.status code) { cx with response := { cx.response with status } }

theorem Writes.untouched {final : Context} (h : argument.Writes cx final) :
    cx.Untouched final := by
  cases h with
  | clear | query | queryMap | status => exact ⟨rfl, rfl, rfl, rfl, rfl⟩

/-- A run that writes what its argument is about, or fails and writes nothing. -/
structure Framed (argument : Argument) (cx : Context) (run : StepRun) : Prop where
  untouched : cx.Untouched run.context
  success : ∀ flow, run.outcome = .ok flow → flow = .next ∧ argument.Writes cx run.context
  /-- Only where there are queries can a run fail. -/
  failure : ∀ e, run.outcome = .error e → run.context = cx ∧ ∃ templates, argument.Queries templates

theorem Framed.of_writes {final : Context} (h : argument.Writes cx final) (events : List Event) :
    argument.Framed cx ⟨final, .ok .next, events⟩ where
  untouched := h.untouched
  success := by
    rintro _ ⟨⟩
    exact ⟨rfl, h⟩
  failure := nofun

theorem Framed.of_failure {templates : List String} (h : argument.Queries templates)
    (e : StepError) (events : List Event) : argument.Framed cx ⟨cx, .error e, events⟩ where
  untouched := ⟨rfl, rfl, rfl, rfl, rfl⟩
  success := nofun
  failure _ _ := ⟨rfl, templates, h⟩

theorem framed_query (executor : Executor) (template : String) (cx : Context) :
    (query template).Framed cx (Step.query executor template cx) := by
  have hq : (query template).Queries [template] := .query template
  cases hd : (Template.ofString template).describe cx.lookup with
  | error e =>
    rw [Step.query_of_error hd]
    exact .of_failure hq _ _
  | ok descriptor =>
    cases hr : (executor.execute descriptor).result with
    | error e =>
      rw [Step.query_of_failure hd hr]
      exact .of_failure hq _ _
    | ok v =>
      rw [Step.query_of_value hd hr]
      exact .of_writes (.query template v) _

theorem framed_queryMap (conduct : Conduct) (queries : List (String × String)) (cx : Context) :
    (queryMap queries).Framed cx (QueryMap.stepOf conduct queries cx) := by
  have hq : (queryMap queries).Queries _ := .queryMap queries
  rw [QueryMap.stepOf]
  cases QueryMap.describe cx (QueryMap.lastOfEachKey queries) with
  | error e => exact .of_failure hq _ _
  | ok described =>
    dsimp only
    rw [QueryMap.conclude]
    split
    · exact .of_failure hq _ _
    · exact .of_writes (.queryMap queries _) _

theorem framed_stepOf? (h : argument.stepOf? conduct = some step) (cx : Context) :
    argument.Framed cx (step cx) := by
  cases argument with
  | clear =>
    cases h
    exact .of_writes .clear _
  | map f => cases h
  | query template =>
    cases h
    exact framed_query _ template cx
  | queryMap queries =>
    cases h
    exact framed_queryMap conduct queries cx
  | status code =>
    obtain ⟨status, hs, rfl⟩ := Option.map_eq_some_iff.1 h
    exact .of_writes (.status code status (Status.code_of_ofCode? hs)) _
  | raw step => cases h

/--
The function of an argument, or one that it defers to, breaks off: it fails, or defers to an
argument that is refused. It leaves this effect.
-/
inductive BreaksOff (executor : Executor) :
    Argument → Context → FunctionEffect → StepError → Prop
  | fail {f : FunctionInput → FunctionOutput} {cx : Context} {effect : FunctionEffect}
      {text : String} (h : f cx.functionInput = .fail effect text) :
      BreaksOff executor (.map f) cx effect (.application text)
  | refuse {f : FunctionInput → FunctionOutput} {cx : Context} {effect : FunctionEffect}
      {argument : Argument} {e : BindError} (h : f cx.functionInput = .defer effect argument)
      (hc : argument.compile executor = .error e) :
      BreaksOff executor (.map f) cx effect (.bind e)
  | defer {f : FunctionInput → FunctionOutput} {cx : Context} {effect last : FunctionEffect}
      {argument : Argument} {e : StepError} (h : f cx.functionInput = .defer effect argument)
      (hb : BreaksOff executor argument (cx.apply effect) last e) :
      BreaksOff executor (.map f) cx last e

end Argument

/-- The context is as a function left it, and there is no result. -/
structure Context.LeftBy (cx : Context) (effect : FunctionEffect) (final : Context) : Prop where
  request : final.request = effect.request
  response : final.response = effect.response
  matched : final.matched = cx.matched
  requestId : final.requestId = cx.requestId
  result : final.result = none

namespace Argument

theorem BreaksOff.run {argument : Argument} {executor : Executor} {cx : Context}
    {effect : FunctionEffect} {e : StepError} (h : argument.BreaksOff executor cx effect e) :
    ∃ step, argument.compile executor = .ok step ∧ (step cx).outcome = .error e ∧
      cx.LeftBy effect (step cx).context := by
  induction h with
  | fail h => exact ⟨_, rfl, by rw [h]; rfl, by rw [h]; exact ⟨rfl, rfl, rfl, rfl, rfl⟩⟩
  | refuse h hc =>
    refine ⟨_, rfl, ?_⟩
    simp only [h, FunctionOutput.continue, hc]
    exact ⟨rfl, rfl, rfl, rfl, rfl, rfl⟩
  | defer h hb ih =>
    obtain ⟨step, hc, ho, hl⟩ := ih
    refine ⟨_, rfl, ?_⟩
    simp only [h, FunctionOutput.continue, hc]
    exact ⟨ho, hl.request, hl.response, hl.matched, hl.requestId, hl.result⟩

/--
Steps write what they are for, and no failure leaves a trace. The step of an argument that neither
calls a function nor is custom writes one thing if it succeeds and nothing if it fails, whatever its
executor makes of its queries, even of the same one. Where a function breaks off, be it deferred to,
the context is as it left it and without a result.
-/
theorem compile_frame {argument : Argument} {executor : Executor} {step : Step}
    (hc : argument.compile executor = .ok step) (cx : Context) :
    (argument.IsPlain → argument.Framed cx (step cx) ∧
      argument.stepOf? executor.conduct = some step) ∧
    (∀ conduct step', argument.stepOf? conduct = some step' → argument.Framed cx (step' cx)) ∧
    ∀ effect e, argument.BreaksOff executor cx effect e →
      (step cx).outcome = .error e ∧ cx.LeftBy effect (step cx).context := by
  refine ⟨fun h => ?_, fun conduct step' h => framed_stepOf? h cx, fun effect e h => ?_⟩
  · have hs := stepOf?_conduct h hc
    exact ⟨framed_stepOf? hs cx, hs⟩
  · obtain ⟨step', hc', ho, hl⟩ := h.run
    cases hc.symm.trans hc'
    exact ⟨ho, hl⟩

/-- One query fails at once, and all others succeed late. -/
def halfFailing : Executor := .custom fun query =>
  if query.text = "fail" then .ofResult (.error (.driver "boom")) else ⟨.ok (.str "late"), 3, []⟩

def withResult : Context :=
  (Context.ofView (RequestView.ofTarget Method.get "/") "").setResult (.str "before")

def effectOfCreated : FunctionEffect :=
  ⟨withResult.request, withResult.response.setStatus ⟨201, by decide⟩, []⟩

theorem compile_frame_of_half_failing :
    (∃ step, (queryMap [("bad", "fail"), ("slow", "wait")]).compile halfFailing = .ok step ∧
      (step withResult).outcome = .error (.execute (.driver "boom")) ∧
      (step withResult).context = withResult) ∧
    ∃ step, (map fun _ => .defer effectOfCreated (.status 42)).compile halfFailing = .ok step ∧
      (step withResult).outcome = .error (.bind (.invalidStatus 42)) ∧
      withResult.LeftBy effectOfCreated (step withResult).context := by
  constructor
  · have hc : (queryMap [("bad", "fail"), ("slow", "wait")]).compile halfFailing = .ok _ := rfl
    obtain ⟨hframed, -⟩ := compile_frame hc withResult
    have ho : (QueryMap.step halfFailing [("bad", "fail"), ("slow", "wait")] withResult).outcome =
        .error (.execute (.driver "boom")) := by decide +kernel
    exact ⟨_, hc, ho, ((hframed trivial).1.failure _ ho).1⟩
  · have hc : (map fun _ => .defer effectOfCreated (.status 42)).compile halfFailing = .ok _ :=
      rfl
    obtain ⟨-, -, hbreaks⟩ := compile_frame hc withResult
    exact ⟨_, hc, hbreaks _ _ (.refuse rfl rfl)⟩

end Argument

end QueryRouting
