import QueryRouting.Proofs.Chain.Frame

namespace QueryRouting

namespace Event

def opening? : Event → Option (String × Descriptor)
  | .started backend query => some (backend, query)
  | _ => none

def ending? : Event → Option (String × Descriptor × Bool)
  | .finished backend query succeeded => some (backend, query, succeeded)
  | _ => none

def OfBackend (backend : String) : Event → Prop
  | .started name _ => name = backend
  | .finished name _ _ => name = backend
  | .sent _ | .note _ => True

variable {backend : String} {events : List Event}

theorem filterMap_opening? (h : ∀ event ∈ events, event.OfBackend backend) :
    events.filterMap opening? = (events.filterMap started?).map (backend, ·) := by
  rw [List.map_filterMap]
  apply List.filterMap_congr
  intro event hm
  cases event with
  | started name query =>
    cases h _ hm
    rfl
  | sent request | finished name query succeeded | note value => rfl

theorem filterMap_ending? (h : ∀ event ∈ events, event.OfBackend backend) :
    events.filterMap ending? = (events.filterMap finished?).map (backend, ·) := by
  rw [List.map_filterMap]
  apply List.filterMap_congr
  intro event hm
  cases event with
  | finished name query succeeded =>
    cases h _ hm
    rfl
  | started name query | sent request | note value => rfl

end Event

/-- A query that is handed to an executor, at its place among those of a step. -/
structure QueryCall where
  conduct : Conduct
  place : Nat
  query : Descriptor

namespace QueryCall

def succeeded (call : QueryCall) : Bool :=
  (call.conduct.execution call.place call.query).succeeded

def opening (call : QueryCall) : String × Descriptor :=
  (call.conduct.backend, call.query)

def ending (call : QueryCall) : String × Descriptor × Bool :=
  (call.conduct.backend, call.query, call.succeeded)

end QueryCall

/-- The queries that one run of a step hands to its executor. -/
structure Batch where
  conduct : Conduct
  queries : List Descriptor

def Batch.calls (batch : Batch) : List QueryCall :=
  batch.queries.mapIdx (⟨batch.conduct, ·, ·⟩)

theorem Batch.map_opening (batch : Batch) :
    batch.calls.map QueryCall.opening = batch.queries.map (batch.conduct.backend, ·) := by
  apply Traversal.map_mapIdx
  exact fun _ _ => rfl

/-- How the queries of a batch end, each at its place. -/
def Batch.endings (batch : Batch) : List (Descriptor × Bool) :=
  batch.queries.mapIdx fun i query => (query, (batch.conduct.execution i query).succeeded)

theorem Batch.map_ending (batch : Batch) :
    batch.calls.map QueryCall.ending = batch.endings.map (batch.conduct.backend, ·) := by
  rw [calls, endings, List.mapIdx_eq_zipIdx_map, List.mapIdx_eq_zipIdx_map, List.map_map,
    List.map_map]
  rfl

/-- The calls behind these events: they start in their order, and each one ends as it has to. -/
structure Accounted (conducts : Conduct → Prop) (batches : List Batch) (events : List Event) :
    Prop where
  known : ∀ batch ∈ batches, conducts batch.conduct
  started : events.filterMap Event.opening? =
    (batches.flatMap Batch.calls).map QueryCall.opening
  ended : (events.filterMap Event.ending?).Perm
    ((batches.flatMap Batch.calls).map QueryCall.ending)

namespace Accounted

variable {conducts : Conduct → Prop} {conduct : Conduct} {batches later : List Batch}
  {events others : List Event}

theorem nil : Accounted conducts [] [] :=
  ⟨nofun, rfl, .nil⟩

theorem append (h : Accounted conducts batches events) (h' : Accounted conducts later others) :
    Accounted conducts (batches ++ later) (events ++ others) where
  known := List.forall_mem_append.2 ⟨h.known, h'.known⟩
  started := by
    rw [List.filterMap_append, List.flatMap_append, List.map_append, h.started, h'.started]
  ended := by
    rw [List.filterMap_append, List.flatMap_append, List.map_append]
    exact h.ended.append h'.ended

theorem exists_flatMap {f : α → List Event} {l : List α}
    (h : ∀ a ∈ l, ∃ batches, Accounted conducts batches (f a)) :
    ∃ batches, Accounted conducts batches (l.flatMap f) := by
  induction l with
  | nil => exact ⟨[], .nil⟩
  | cons a l ih =>
    rw [List.forall_mem_cons] at h
    obtain ⟨batches, hb⟩ := h.1
    obtain ⟨later, hl⟩ := ih h.2
    exact ⟨batches ++ later, hb.append hl⟩

/-- What is seen of the queries of one executor does not have to be told apart by its label. -/
theorem of_batch {batch : Batch} (hc : conducts batch.conduct)
    (hb : ∀ event ∈ events, event.OfBackend batch.conduct.backend)
    (hs : events.filterMap Event.started? = batch.queries)
    (hf : (events.filterMap Event.finished?).Perm batch.endings) :
    Accounted conducts [batch] events where
  known := List.forall_mem_singleton.2 hc
  started := by
    rw [Event.filterMap_opening? hb, hs, List.flatMap_singleton, batch.map_opening]
  ended := by
    rw [Event.filterMap_ending? hb, List.flatMap_singleton, batch.map_ending]
    exact hf.map _

end Accounted

/-- The events of a step are those of calls that go as these conducts say, whatever its context. -/
def Step.Accounts (conducts : Conduct → Prop) (step : Step) : Prop :=
  ∀ cx, ∃ batches, Accounted conducts batches (step cx).events

section Conduct

variable {conducts : Conduct → Prop} {conduct : Conduct}

theorem Execution.ofBackend_startEvents (execution : Execution) (backend : String)
    (query : Descriptor) :
    ∀ event ∈ execution.startEvents backend query, event.OfBackend backend := by
  intro event he
  rcases List.mem_cons.1 he with rfl | he
  · exact rfl
  · obtain ⟨request, -, rfl⟩ := List.mem_map.1 he
    trivial

theorem Step.query_accounts (hc : conducts conduct) (template : String) :
    (Step.query ⟨conduct.backend, conduct.execution 0⟩ template).Accounts conducts := by
  intro cx
  cases hd : (Template.ofString template).describe cx.lookup with
  | error e =>
    rw [query_of_error hd]
    exact ⟨[], .nil⟩
  | ok query =>
    rw [query_events hd]
    refine ⟨[⟨conduct, [query]⟩], .of_batch hc ?_ (started_queryEvents _ query) ?_⟩
    · intro event hm
      rcases List.mem_append.1 hm with hm | hm
      · exact Execution.ofBackend_startEvents _ _ _ event hm
      · rw [List.mem_singleton.1 hm]
        exact rfl
    · rw [finished_queryEvents]
      exact .refl _

namespace QueryMap

theorem Pending.ofBackend_turnEvents (p : Pending) (backend : String) :
    ∀ event ∈ p.turnEvents backend, event.OfBackend backend := by
  intro event hm
  rw [turnEvents] at hm
  rcases List.mem_append.1 hm with hm | hm <;> split at hm
  · cases hm
  · exact Execution.ofBackend_startEvents _ _ _ event hm
  · rw [List.mem_singleton.1 hm]
    exact rfl
  · cases hm

theorem drain_ofBackend (backend : String) (g : Gathered) (line : List Pending) :
    ∀ event ∈ (drain backend g line).2, event.OfBackend backend := by
  induction g, line using drain_induction with
  | done g =>
    rw [drain_nil]
    nofun
  | last g p rest h ih =>
    rw [drain_last h]
    exact List.forall_mem_append.2 ⟨p.ofBackend_turnEvents backend, ih⟩
  | wait g p rest h ih =>
    rw [drain_wait h]
    exact List.forall_mem_append.2 ⟨p.ofBackend_turnEvents backend, ih⟩

theorem conclude_events (cx : Context) (drained : Gathered × List Event) :
    (conclude cx drained).events = drained.2 := by
  rw [conclude]
  split <;> rfl

theorem stepOf_accounts (hc : conducts conduct) (queries : List (String × String)) :
    (stepOf conduct queries).Accounts conducts := by
  intro cx
  rw [stepOf]
  cases describe cx (lastOfEachKey queries) with
  | error e => exact ⟨[], .nil⟩
  | ok described =>
    dsimp only
    rw [conclude_events]
    have hline : ∀ p ∈ described.mapIdx (enqueueUnder conduct), p.started = false := by
      intro p hp
      obtain ⟨i, hi, rfl⟩ := List.mem_mapIdx.1 hp
      rfl
    have hall : (described.mapIdx (enqueueUnder conduct)).filter (!·.started) =
        described.mapIdx (enqueueUnder conduct) := by
      rw [List.filter_eq_self]
      intro p hp
      rw [hline p hp]
      rfl
    have hendings : (described.mapIdx (enqueueUnder conduct)).map
        (fun p => (p.query, p.execution.succeeded)) =
          Batch.endings ⟨conduct, described.map (·.2)⟩ := by
      apply List.ext_getElem?
      intro i
      simp [Batch.endings, List.getElem?_mapIdx, Function.comp_def, enqueueUnder]
    refine ⟨[⟨conduct, described.map (·.2)⟩], .of_batch hc (drain_ofBackend _ _ _) ?_ ?_⟩
    · rw [drain_started, hall]
      apply Traversal.map_mapIdx
      exact fun _ _ => rfl
    · rw [← hendings]
      exact drain_finished _ _

end QueryMap

end Conduct

/-- The runs that the step of an argument may have, each under one of these conducts. -/
inductive Argument.MayRun (conducts : Conduct → Prop) : Argument → Context → StepRun → Prop
  | plain {argument : Argument} {conduct : Conduct} {step : Step} (hc : conducts conduct)
      (h : argument.stepOf? conduct = some step) (cx : Context) :
      MayRun conducts argument cx (step cx)
  | raw (step : Step) (cx : Context) : MayRun conducts (.raw step) cx (step cx)
  | fail {f : FunctionInput → FunctionOutput} {cx : Context} {effect : FunctionEffect}
      {text : String} (h : f cx.functionInput = .fail effect text) :
      MayRun conducts (.map f) cx
        ((StepRun.failed (cx.apply effect) (.application text)).after effect.events)
  | direct {f : FunctionInput → FunctionOutput} {cx : Context} {effect : FunctionEffect}
      {value : Json} (h : f cx.functionInput = .direct effect value) :
      MayRun conducts (.map f) cx
        ((StepRun.done ((cx.apply effect).setResult value) .next).after effect.events)
  | refuse {f : FunctionInput → FunctionOutput} {cx : Context} {effect : FunctionEffect}
      {argument : Argument} {executor : Executor} {e : BindError}
      (h : f cx.functionInput = .defer effect argument)
      (hc : argument.compile executor = .error e) :
      MayRun conducts (.map f) cx
        ((StepRun.failed (cx.apply effect) (.bind e)).after effect.events)
  | defer {f : FunctionInput → FunctionOutput} {cx : Context} {effect : FunctionEffect}
      {argument : Argument} {run : StepRun} (h : f cx.functionInput = .defer effect argument)
      (hr : MayRun conducts argument (cx.apply effect) run) :
      MayRun conducts (.map f) cx (run.after effect.events)

mutual

theorem Argument.mayRun_of_compile {conducts : Conduct → Prop} {executor : Executor}
    (hx : conducts executor.conduct) : ∀ {argument : Argument} {step : Step},
      argument.compile executor = .ok step → ∀ cx, argument.MayRun conducts cx (step cx)
  | .clear, _, hc => .plain hx (Argument.stepOf?_conduct trivial hc)
  | .map f, _, hc => by
    cases hc
    exact fun cx => FunctionOutput.mayRun_continue hx rfl
  | .query _, _, hc => .plain hx (Argument.stepOf?_conduct trivial hc)
  | .queryMap _, _, hc => .plain hx (Argument.stepOf?_conduct trivial hc)
  | .status _, _, hc => .plain hx (Argument.stepOf?_conduct trivial hc)
  | .raw _, _, hc => by
    cases hc
    exact .raw _

theorem FunctionOutput.mayRun_continue {conducts : Conduct → Prop} {executor : Executor}
    (hx : conducts executor.conduct) : ∀ {output : FunctionOutput} {cx : Context}
      {f : FunctionInput → FunctionOutput}, f cx.functionInput = output →
        (Argument.map f).MayRun conducts cx (output.continue executor cx)
  | .fail _ _, _, _, h => .fail h
  | .direct _ _, _, _, h => .direct h
  | .defer effect argument, cx, f, h => by
    rw [FunctionOutput.continue]
    split
    · rename_i step hc
      exact .defer h (Argument.mayRun_of_compile hx hc _)
    · rename_i e hc
      exact .refuse h hc

end

theorem Argument.Queries.events_of_template {argument : Argument} {templates : List String}
    {conducts : Conduct → Prop} {cx : Context} {run : StepRun} {e : TemplateError}
    (h : argument.Queries templates) (hr : argument.MayRun conducts cx run)
    (he : run.outcome = .error (.template e)) : run.events = [] := by
  cases hr with
  | @plain _ conduct step hc hs cx =>
    cases h with
    | query template =>
      cases hs
      cases hd : (Template.ofString template).describe cx.lookup with
      | error e' => rw [Step.query_of_error hd]; rfl
      | ok query =>
        cases hr : (conduct.execution 0 query).result with
        | error e' =>
          rw [Step.query_of_failure hd hr] at he
          cases he
        | ok v =>
          rw [Step.query_of_value hd hr] at he
          cases he
    | queryMap queries =>
      cases hs
      rw [QueryMap.stepOf] at he ⊢
      split at he
      · rfl
      · rw [QueryMap.conclude] at he
        split at he <;> cases he
  | raw | fail | direct | refuse | defer => cases h

mutual

/-- What functions and custom steps do with executors is accounted, also if it is deferred. -/
def Argument.Accounts (conducts : Conduct → Prop) : Argument → Prop
  | .map f => ∀ input, (f input).Accounts conducts
  | .raw step => step.Accounts conducts
  | .clear | .query _ | .queryMap _ | .status _ => True

def FunctionOutput.Accounts (conducts : Conduct → Prop) : FunctionOutput → Prop
  | .fail effect _ => ∃ batches, Accounted conducts batches effect.events
  | .direct effect _ => ∃ batches, Accounted conducts batches effect.events
  | .defer effect argument =>
    (∃ batches, Accounted conducts batches effect.events) ∧ argument.Accounts conducts

end

section Accounts

variable {conducts : Conduct → Prop} {conduct : Conduct} {argument : Argument}

theorem StepRun.accounted_after {run : StepRun} {earlier : List Event}
    (h : ∃ batches, Accounted conducts batches earlier)
    (h' : ∃ batches, Accounted conducts batches run.events) :
    ∃ batches, Accounted conducts batches (run.after earlier).events := by
  obtain ⟨batches, h⟩ := h
  obtain ⟨later, h'⟩ := h'
  exact ⟨batches ++ later, h.append h'⟩

theorem Argument.stepOf?_accounts {step : Step} (hc : conducts conduct)
    (h : argument.stepOf? conduct = some step) : step.Accounts conducts := by
  cases argument with
  | clear =>
    cases h
    exact fun cx => ⟨[], .nil⟩
  | map f => cases h
  | query template =>
    cases h
    exact Step.query_accounts hc template
  | queryMap queries =>
    cases h
    exact QueryMap.stepOf_accounts hc queries
  | status code =>
    obtain ⟨status, -, rfl⟩ := Option.map_eq_some_iff.1 h
    exact fun cx => ⟨[], .nil⟩
  | raw step => cases h

theorem Argument.MayRun.accounted {cx : Context} {run : StepRun}
    (h : argument.MayRun conducts cx run) (ha : argument.Accounts conducts) :
    ∃ batches, Accounted conducts batches run.events := by
  induction h with
  | plain hc h cx => exact stepOf?_accounts hc h cx
  | raw step cx => exact ha cx
  | @fail f cx _ _ h =>
    have hf := ha cx.functionInput
    rw [h] at hf
    exact StepRun.accounted_after hf ⟨[], .nil⟩
  | @direct f cx _ _ h =>
    have hf := ha cx.functionInput
    rw [h] at hf
    exact StepRun.accounted_after hf ⟨[], .nil⟩
  | @refuse f cx _ _ _ _ h hc =>
    have hf := ha cx.functionInput
    rw [h] at hf
    exact StepRun.accounted_after hf.1 ⟨[], .nil⟩
  | @defer f cx _ _ _ h hr ih =>
    have hf := ha cx.functionInput
    rw [h] at hf
    exact StepRun.accounted_after hf.1 (ih hf.2)

end Accounts

end QueryRouting
