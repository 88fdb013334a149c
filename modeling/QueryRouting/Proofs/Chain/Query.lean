import QueryRouting.Chain.Argument
import QueryRouting.Proofs.Chain.QueryMap
import QueryRouting.Proofs.Query.Description

namespace QueryRouting

def Event.sent? : Event → Option SqlServer.Request
  | .sent request => some request
  | _ => none

namespace Step

variable {executor : Executor} {template : String} {cx : Context} {query : Descriptor}

/-- The start of a query, what its client gets, and its end. -/
def queryEvents (executor : Executor) (query : Descriptor) : List Event :=
  (executor.execute query).startEvents executor.backend query ++
    [(executor.execute query).endEvent executor.backend query]

theorem query_of_error {e : TemplateError}
    (h : (Template.ofString template).describe cx.lookup = .error e) :
    Step.query executor template cx = .failed cx (.template e) := by
  rw [Step.query, h]

theorem query_of_unbound
    (h : ∃ r ∈ (Template.ofString template).references, ¬ r.Binds cx.lookup) :
    ∃ e, FirstFailure cx.lookup (Template.ofString template).references e ∧
      Step.query executor template cx = .failed cx (.template e) := by
  cases hd : (Template.ofString template).describe cx.lookup with
  | error e => exact ⟨e, Template.describe_eq_error_iff.1 hd, query_of_error hd⟩
  | ok query =>
    obtain ⟨r, hr, hn⟩ := h
    exact absurd (Template.describe_isOk_iff.1 ⟨query, hd⟩ r hr) hn

theorem query_of_value {v : Json}
    (h : (Template.ofString template).describe cx.lookup = .ok query)
    (hv : (executor.execute query).result = .ok v) :
    Step.query executor template cx = ⟨cx.setResult v, .ok .next, queryEvents executor query⟩ := by
  simp only [Step.query, h, hv, queryEvents]

theorem query_of_failure {e : ExecError}
    (h : (Template.ofString template).describe cx.lookup = .ok query)
    (he : (executor.execute query).result = .error e) :
    Step.query executor template cx = ⟨cx, .error (.execute e), queryEvents executor query⟩ := by
  simp only [Step.query, h, he, queryEvents]

theorem query_events (h : (Template.ofString template).describe cx.lookup = .ok query) :
    (Step.query executor template cx).events = queryEvents executor query := by
  cases hr : (executor.execute query).result with
  | ok v => rw [query_of_value h hr]
  | error e => rw [query_of_failure h hr]

theorem started_queryEvents (executor : Executor) (query : Descriptor) :
    (queryEvents executor query).filterMap Event.started? = [query] := by
  simp [queryEvents, Execution.startEvents, Execution.endEvent, Event.started?,
    List.filterMap_map, Function.comp_def]

theorem finished_queryEvents (executor : Executor) (query : Descriptor) :
    (queryEvents executor query).filterMap Event.finished? =
      [(query, (executor.execute query).succeeded)] := by
  have hsent : ((executor.execute query).sent.map Event.sent).filterMap Event.finished? = [] := by
    simp [List.filterMap_map, Function.comp_def, Event.finished?]
  rw [queryEvents, List.filterMap_append, Execution.startEvents, List.filterMap_cons_none rfl,
    hsent]
  rfl

theorem sent_queryEvents (executor : Executor) (query : Descriptor) :
    (queryEvents executor query).filterMap Event.sent? = (executor.execute query).sent := by
  have hs : ((executor.execute query).sent.map Event.sent).filterMap Event.sent? =
      (executor.execute query).sent := by
    rw [List.filterMap_map]
    exact List.filterMap_some
  rw [queryEvents, List.filterMap_append, Execution.startEvents, List.filterMap_cons_none rfl, hs]
  exact List.append_nil _

end Step

/-- The templates of an argument that runs queries; of a repeated key only the last one counts. -/
inductive Argument.Queries : Argument → List String → Prop
  | query (template : String) : Queries (.query template) [template]
  | queryMap (queries : List (String × String)) :
      Queries (.queryMap queries) ((QueryMap.lastOfEachKey queries).map (·.2))

theorem Argument.Queries.started {argument : Argument} {templates : List String}
    {executor : Executor} {step : Step} (h : argument.Queries templates)
    (hc : argument.compile executor = .ok step) (cx : Context) :
    (∃ template ∈ templates, ∃ e, (Template.ofString template).describe cx.lookup = .error e ∧
      step cx = .failed cx (.template e)) ∨
    templates.map (fun template => (Template.ofString template).describe cx.lookup) =
      ((step cx).events.filterMap Event.started?).map .ok := by
  cases h with
  | query template =>
    cases hc
    cases hd : (Template.ofString template).describe cx.lookup with
    | error e => exact .inl ⟨template, List.mem_cons_self, e, hd, Step.query_of_error hd⟩
    | ok query =>
      apply Or.inr
      rw [Step.query_events hd, Step.started_queryEvents, List.map_singleton, hd,
        List.map_singleton]
  | queryMap queries =>
    cases hc
    cases hd : QueryMap.describe cx (QueryMap.lastOfEachKey queries) with
    | error e =>
      obtain ⟨before, q, after, hl, -, hq⟩ := QueryMap.describe_eq_error_iff.1 hd
      have hm : q ∈ QueryMap.lastOfEachKey queries := by
        rw [hl]
        exact List.mem_append_right _ List.mem_cons_self
      exact .inl ⟨q.2, List.mem_map_of_mem hm, e, hq, QueryMap.stepUnder_of_error hd⟩
    | ok described =>
      apply Or.inr
      rw [QueryMap.step, QueryMap.stepUnder_of_ok hd, QueryMap.runAll_started, List.map_map,
        List.map_map]
      exact (QueryMap.describe_eq_ok_iff.1 hd).2

end QueryRouting
