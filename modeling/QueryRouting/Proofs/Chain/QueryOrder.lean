import QueryRouting.Proofs.Chain.Query

namespace QueryRouting

/-- Runs that an observer tells apart by the order of events at most. -/
structure StepRun.Alike (run run' : StepRun) : Prop where
  context : run.context = run'.context
  outcome : run.outcome = run'.outcome
  events : run.events.Perm run'.events

/-- Executors that differ at most in the time that queries take. -/
structure Executor.Agrees (executor executor' : Executor) : Prop where
  backend : executor.backend = executor'.backend
  result : ∀ query, (executor.execute query).result = (executor'.execute query).result
  sent : ∀ query, (executor.execute query).sent = (executor'.execute query).sent

namespace StepRun

theorem Alike.refl (run : StepRun) : run.Alike run :=
  ⟨rfl, rfl, .refl _⟩

theorem alike_of_eq {run run' : StepRun} (h : run = run') : run.Alike run' :=
  h ▸ .refl run

end StepRun

section Agrees

variable {executor executor' : Executor}

theorem Executor.Agrees.queryEvents (h : executor.Agrees executor') (query : Descriptor) :
    Step.queryEvents executor query = Step.queryEvents executor' query := by
  simp only [Step.queryEvents, Execution.startEvents, Execution.endEvent, Execution.succeeded,
    h.backend, h.result, h.sent]

theorem Executor.Agrees.query (h : executor.Agrees executor') (template : String) (cx : Context) :
    Step.query executor template cx = Step.query executor' template cx := by
  cases hd : (Template.ofString template).describe cx.lookup with
  | error e => rw [Step.query_of_error hd, Step.query_of_error hd]
  | ok query =>
    cases hr : (executor.execute query).result with
    | ok v =>
      have hr' := (h.result query).symm.trans hr
      rw [Step.query_of_value hd hr, Step.query_of_value hd hr', h.queryEvents]
    | error e =>
      have hr' := (h.result query).symm.trans hr
      rw [Step.query_of_failure hd hr, Step.query_of_failure hd hr', h.queryEvents]

end Agrees

namespace QueryMap

open Traversal

/-- What is still to happen with a query: its start, unless it has started, and its end. -/
def Pending.eventsLeft (p : Pending) (backend : String) : List Event :=
  (if p.started then [] else p.execution.startEvents backend p.query) ++
    [p.execution.endEvent backend p.query]

theorem drain_events {backend : String} (g : Gathered) (line : List Pending) :
    (drain backend g line).2.Perm (line.flatMap (·.eventsLeft backend)) := by
  induction g, line using drain_induction with
  | done g =>
    rw [drain_nil]
    exact .refl _
  | last g p rest h ih =>
    have he : p.turnEvents backend = p.eventsLeft backend := by
      rw [Pending.turnEvents, Pending.eventsLeft, if_pos h]
    rw [drain_last h, List.flatMap_cons, he]
    exact ih.append_left _
  | wait g p rest h ih =>
    have he : p.eventsLeft backend = p.turnEvents backend ++ p.wait.eventsLeft backend := by
      rw [Pending.turnEvents, Pending.eventsLeft, if_neg h, List.append_nil]
      rfl
    rw [List.flatMap_append, List.flatMap_singleton] at ih
    rw [drain_wait h, List.flatMap_cons, he, List.append_assoc]
    exact (ih.trans List.perm_append_comm).append_left _

section Described

variable {executor executor' : Executor} {described described' : List (String × Descriptor)}
  (delays delays' : Delays) (cx : Context)

theorem runAll_events_perm : (runAll executor delays described cx).events.Perm
    (described.flatMap fun d => Step.queryEvents executor d.2) := by
  have hp : (drained executor delays described).2.Perm _ :=
    drain_events .empty (lineUp executor delays described)
  rw [List.flatMap_def, lineUp_map (·.eventsLeft executor.backend)
    (fun d => Step.queryEvents executor d.2) (fun _ _ => rfl), ← List.flatMap_def] at hp
  rw [runAll_events]
  exact hp

/-- The value of a query that has one. -/
def valueOf (executor : Executor) (query : Descriptor) : Json :=
  match (executor.execute query).result with
  | .ok v => v
  | .error _ => .null

theorem runAll_of_values (hk : (described.map (·.1)).Nodup)
    (hv : ∀ d ∈ described, ∃ v, (executor.execute d.2).result = .ok v) :
    (runAll executor delays described cx).outcome = .ok .next ∧
      (runAll executor delays described cx).context =
        cx.setResult
          (.obj (Keyed.ofList (described.map fun d => (d.1, valueOf executor d.2)))) := by
  have hvs : (described.map (·.2)).map (fun d => (executor.execute d).result) =
      (described.map fun d => valueOf executor d.2).map .ok := by
    rw [List.map_map, List.map_map]
    apply List.map_congr_left
    intro d hd
    obtain ⟨v, hv⟩ := hv d hd
    simp only [Function.comp_apply, valueOf, hv]
  have hdriven : Driven executor delays _ _ cx (runAll executor delays described cx) :=
    runAll_driven hk
  obtain ⟨hout, hcx, -⟩ := hdriven.merges _ hvs
  rw [List.zip_map'] at hcx
  exact ⟨hout, hcx⟩

theorem runAll_of_failure_alone (hk : (described.map (·.1)).Nodup) {d : String × Descriptor}
    {e : ExecError} (hd : d ∈ described) (he : (executor.execute d.2).result = .error e)
    (hone : ∀ d' ∈ described, (∃ e', (executor.execute d'.2).result = .error e') → d' = d) :
    (runAll executor delays described cx).outcome = .error (.execute e) ∧
      (runAll executor delays described cx).context = cx := by
  have hdriven : Driven executor delays _ _ cx (runAll executor delays described cx) :=
    runAll_driven hk
  obtain ⟨hcx, e', hout, i, d', hi, hd', -⟩ :=
    hdriven.fails ⟨d.2, List.mem_map_of_mem hd, e, he⟩
  rw [List.getElem?_map, Option.map_eq_some_iff] at hi
  obtain ⟨x, hx, rfl⟩ := hi
  obtain rfl := hone x (List.mem_of_getElem? hx) ⟨e', hd'⟩
  cases he.symm.trans hd'
  exact ⟨hout, hcx⟩

theorem runAll_alike (hx : executor.Agrees executor') (hp : described.Perm described')
    (hk : (described.map (·.1)).Nodup)
    (hone : ∀ d ∈ described, ∀ d' ∈ described, (∃ e, (executor.execute d.2).result = .error e) →
      (∃ e, (executor.execute d'.2).result = .error e) → d = d') :
    (runAll executor delays described cx).Alike (runAll executor' delays' described' cx) := by
  have hk' : (described'.map (·.1)).Nodup := (hp.map _).nodup_iff.1 hk
  have hevents : (runAll executor delays described cx).events.Perm
      (runAll executor' delays' described' cx).events := by
    have hsame : (described.flatMap fun d => Step.queryEvents executor d.2).Perm
        (described'.flatMap fun d => Step.queryEvents executor' d.2) := by
      simp only [hx.queryEvents]
      exact hp.flatMap_right _
    exact ((runAll_events_perm delays cx).trans hsame).trans (runAll_events_perm delays' cx).symm
  by_cases hf : ∃ d ∈ described, ∃ e, (executor.execute d.2).result = .error e
  · obtain ⟨d, hd, e, he⟩ := hf
    have hone' : ∀ d' ∈ described', (∃ e', (executor'.execute d'.2).result = .error e') →
        d' = d := by
      intro d' hd' hf'
      rw [← hx.result] at hf'
      exact hone d' (hp.mem_iff.2 hd') d hd hf' ⟨e, he⟩
    obtain ⟨hout, hcx⟩ := runAll_of_failure_alone delays cx hk hd he fun d' hd' hf' =>
      hone d' hd' d hd hf' ⟨e, he⟩
    obtain ⟨hout', hcx'⟩ := runAll_of_failure_alone delays' cx hk' (hp.mem_iff.1 hd)
      ((hx.result d.2).symm.trans he) hone'
    exact ⟨hcx.trans hcx'.symm, hout.trans hout'.symm, hevents⟩
  · have hv : ∀ d ∈ described, ∃ v, (executor.execute d.2).result = .ok v := by
      intro d hd
      cases hr : (executor.execute d.2).result with
      | ok v => exact ⟨v, rfl⟩
      | error e => exact absurd ⟨d, hd, e, hr⟩ hf
    have hv' : ∀ d ∈ described', ∃ v, (executor'.execute d.2).result = .ok v := by
      intro d hd
      rw [← hx.result]
      exact hv d (hp.mem_iff.2 hd)
    have hvalue : valueOf executor = valueOf executor' := by
      funext query
      rw [valueOf, valueOf, hx.result]
    have hresults : Keyed.ofList (described.map fun d => (d.1, valueOf executor d.2)) =
        Keyed.ofList (described'.map fun d => (d.1, valueOf executor' d.2)) := by
      rw [hvalue]
      apply Keyed.insertAll_perm (hp.map _)
      rwa [List.map_map]
    obtain ⟨hout, hcx⟩ := runAll_of_values delays cx hk hv
    obtain ⟨hout', hcx'⟩ := runAll_of_values delays' cx hk' hv'
    refine ⟨?_, hout.trans hout'.symm, hevents⟩
    rw [hcx, hcx', hresults]

end Described

/-- A query fails at its template or, when all the queries of its map run, as it is executed. -/
inductive Fails (executor : Executor) (cx : Context) (queries : List (String × String))
    (q : String × String) : Prop
  | template {e : TemplateError} (h : (Template.ofString q.2).describe cx.lookup = .error e) :
      Fails executor cx queries q
  | execution {query : Descriptor} {e : ExecError}
      (hall : ∀ x ∈ queries, ∃ d, (Template.ofString x.2).describe cx.lookup = .ok d)
      (hd : (Template.ofString q.2).describe cx.lookup = .ok query)
      (he : (executor.execute query).result = .error e) : Fails executor cx queries q

/-- No two queries of a map fail in this context; of a repeated key only the last one counts. -/
def AtMostOneFails (executor : Executor) (queries : List (String × String)) (cx : Context) :
    Prop :=
  ∀ q ∈ lastOfEachKey queries, ∀ q' ∈ lastOfEachKey queries,
    Fails executor cx (lastOfEachKey queries) q → Fails executor cx (lastOfEachKey queries) q' →
      q = q'

theorem lastOfEachKey_sublist (queries : List (String × String)) :
    (lastOfEachKey queries).Sublist queries := by
  induction queries with
  | nil => exact .slnil
  | cons q rest ih =>
    by_cases h : q.1 ∈ rest.map (·.1)
    · rw [lastOfEachKey_cons_of_mem h]
      exact ih.cons _
    · rw [lastOfEachKey_cons_of_notMem h]
      exact ih.cons_cons _

theorem nodup_lastOfEachKey (queries : List (String × String)) :
    ((lastOfEachKey queries).map (·.1)).Nodup := by
  induction queries with
  | nil => exact .nil
  | cons q rest ih =>
    by_cases h : q.1 ∈ rest.map (·.1)
    · rw [lastOfEachKey_cons_of_mem h]
      exact ih
    · rw [lastOfEachKey_cons_of_notMem h, List.map_cons, List.nodup_cons]
      exact ⟨fun hm => h (((lastOfEachKey_sublist rest).map _).subset hm), ih⟩

theorem ofList_lastOfEachKey (queries : List (String × String)) :
    Keyed.ofList (lastOfEachKey queries) = Keyed.ofList queries := by
  have hall (entries : Keyed String) : Keyed.insertAll entries (lastOfEachKey queries) =
      Keyed.insertAll entries queries := by
    induction queries generalizing entries with
    | nil => rfl
    | cons q rest ih =>
      by_cases h : q.1 ∈ rest.map (·.1)
      · rw [lastOfEachKey_cons_of_mem h, Keyed.insertAll_cons, ih,
          Keyed.insertAll_insert_of_mem h]
      · rw [lastOfEachKey_cons_of_notMem h, Keyed.insertAll_cons, Keyed.insertAll_cons, ih]
  exact hall []

theorem perm_ofList (queries : List (String × String)) :
    (Keyed.ofList queries).Perm (lastOfEachKey queries) := by
  rw [← ofList_lastOfEachKey]
  exact Keyed.ofList_perm (nodup_lastOfEachKey queries)

section Step

variable {executor executor' : Executor} {queries entries : List (String × String)} {cx : Context}

theorem eq_of_described {described : List (String × Descriptor)}
    (hone : AtMostOneFails executor queries cx)
    (hd : describe cx (lastOfEachKey queries) = .ok described) :
    ∀ d ∈ described, ∀ d' ∈ described, (∃ e, (executor.execute d.2).result = .error e) →
      (∃ e, (executor.execute d'.2).result = .error e) → d = d' := by
  rw [describe_eq_mapM] at hd
  have hall : ∀ x ∈ lastOfEachKey queries,
      ∃ d, (Template.ofString x.2).describe cx.lookup = .ok d := by
    intro x hx
    obtain ⟨b, hb⟩ := mapM_isOk_iff.1 ⟨_, hd⟩ x hx
    obtain ⟨d, hd, -⟩ := map_eq_ok_iff.1 hb
    exact ⟨d, hd⟩
  have hfails {d : String × Descriptor} (hm : d ∈ described)
      (hf : ∃ e, (executor.execute d.2).result = .error e) :
      ∃ q ∈ lastOfEachKey queries, Fails executor cx (lastOfEachKey queries) q ∧
        ((Template.ofString q.2).describe cx.lookup).map (q.1, ·) = .ok d := by
    obtain ⟨e, he⟩ := hf
    obtain ⟨q, hq, hqd⟩ := exists_of_forall₂ (mapM_eq_ok_iff_forall₂.1 hd).flip hm
    obtain ⟨query, hquery, rfl⟩ := map_eq_ok_iff.1 hqd
    exact ⟨q, hq, .execution hall hquery he, hqd⟩
  intro d hm d' hm' hf hf'
  obtain ⟨q, hq, hfq, hqd⟩ := hfails hm hf
  obtain ⟨q', hq', hfq', hqd'⟩ := hfails hm' hf'
  obtain rfl := hone q hq q' hq' hfq hfq'
  exact Except.ok.inj (hqd.symm.trans hqd')

/-- A map goes alike in every order of its queries, unless two of them fail. -/
theorem stepUnder_alike (hx : executor.Agrees executor') (delays delays' : Delays)
    (hp : entries.Perm (lastOfEachKey queries)) (hone : AtMostOneFails executor queries cx) :
    (stepUnder executor delays queries cx).Alike (stepUnder executor' delays' entries cx) := by
  have hk := nodup_lastOfEachKey queries
  have hentries : lastOfEachKey entries = entries :=
    lastOfEachKey_of_nodup ((hp.map _).nodup_iff.2 hk)
  have htemplate {q : String × String}
      (hf : ∃ e, ((Template.ofString q.2).describe cx.lookup).map (q.1, ·) = .error e) :
      Fails executor cx (lastOfEachKey queries) q := by
    obtain ⟨e, he⟩ := hf
    exact .template (map_eq_error_iff.1 he)
  rcases mapM_perm hp.symm fun q hq q' hq' hf hf' =>
    hone q hq q' hq' (htemplate hf) (htemplate hf') with ⟨e, he, he'⟩ | ⟨ds, ds', hd, hd', hds⟩
  · rw [← describe_eq_mapM] at he he'
    rw [stepUnder_of_error he, stepUnder_of_error (by rw [hentries]; exact he')]
    exact .refl _
  · rw [← describe_eq_mapM] at hd hd'
    have hkeys := (describe_eq_ok_iff.1 hd).1
    rw [stepUnder_of_ok hd, stepUnder_of_ok (by rw [hentries]; exact hd')]
    exact runAll_alike delays delays' cx hx hds (by rw [hkeys]; exact hk) (eq_of_described hone hd)

theorem step_alike (hx : executor.Agrees executor') (hp : entries.Perm (lastOfEachKey queries))
    (hone : AtMostOneFails executor queries cx) :
    (step executor queries cx).Alike (step executor' entries cx) :=
  stepUnder_alike hx _ _ hp hone

end Step

end QueryMap

end QueryRouting
