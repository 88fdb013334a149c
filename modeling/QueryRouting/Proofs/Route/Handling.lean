import QueryRouting.Proofs.Chain.Argument
import QueryRouting.Proofs.Route.FlowTable
import QueryRouting.Proofs.Route.Params

namespace QueryRouting

theorem Chained.keeps {p : Context → Prop} {cx final : Context} {calls : List Call}
    (h : Chained cx calls final) (hcx : p cx)
    (hk : ∀ c ∈ calls, p c.before → p c.run.context) : p final := by
  induction calls generalizing cx with
  | nil => exact h ▸ hcx
  | cons call calls ih =>
    rw [List.forall_mem_cons] at hk
    apply ih h.2
    · apply hk.1
      rw [h.1]
      exact hcx
    · exact hk.2

/-- What every call keeps holds before each of them. -/
theorem Chained.keeps_before {p : Context → Prop} {cx final : Context} {calls : List Call}
    (h : Chained cx calls final) (hcx : p cx)
    (hk : ∀ c ∈ calls, p c.before → p c.run.context) : ∀ c ∈ calls, p c.before := by
  induction calls generalizing cx with
  | nil => exact fun c hc => absurd hc List.not_mem_nil
  | cons call calls ih =>
    rw [List.forall_mem_cons] at hk ⊢
    have hbefore : p call.before := by
      rw [h.1]
      exact hcx
    exact ⟨hbefore, ih h.2 (hk.1 hbefore) hk.2⟩

theorem Chained.last {cx final : Context} {earlier : List Call} {call : Call}
    (h : Chained cx (earlier ++ [call]) final) : final = call.run.context := by
  induction earlier generalizing cx with
  | nil => exact h.2
  | cons c earlier ih => exact ih h.2

theorem EndsAtFirstStop.of_stops {cx final : Context} {calls : List Call} {call : Call}
    {outcome : Except StepError Flow} (h : EndsAtFirstStop calls outcome)
    (hc : Chained cx calls final) (hm : call ∈ calls) (hs : Stops call.run.outcome) :
    outcome = call.run.outcome ∧ final = call.run.context := by
  rcases h with ⟨hall, -⟩ | ⟨earlier, last, rfl, hall, -, he⟩
  · exact absurd hs (hall call hm)
  · rcases List.mem_append.1 hm with hm | hm
    · exact absurd hs (hall call hm)
    · cases List.mem_singleton.1 hm
      exact ⟨he, hc.last⟩

theorem EndsAtFirstStop.exists_of_error {calls : List Call} {e : StepError}
    (h : EndsAtFirstStop calls (.error e)) : ∃ c ∈ calls, c.run.outcome = .error e := by
  rcases h with ⟨-, he⟩ | ⟨earlier, last, rfl, -, -, he⟩
  · cases he
  · exact ⟨last, List.mem_append_right _ List.mem_cons_self, he.symm⟩

theorem exists_of_mem_routeTasks {routes : List Route} {method : Method} {task : Task}
    (h : task ∈ routeTasks routes method) : ∃ route ∈ routes, ∃ r, task ∈ route.tasks r := by
  obtain ⟨⟨route, r⟩, hm, ht⟩ := List.mem_flatMap.1 h
  have hr := (List.mem_filter.1 hm).1
  exact ⟨route, (List.mem_zipIdx' hr).2 ▸ List.getElem_mem _, r, ht⟩

namespace FollowsTable

variable {shared : Shared} {routes : List Route} {cx final : Context} {calls : List Call}
  {outcome : Except StepError Flow}

/-- What holds of every router-level step, hook, mark and step of a route holds of each call. -/
theorem forall_call {p : Site → Context → StepRun → Prop}
    (h : FollowsTable shared routes cx calls final outcome)
    (hsteps : ∀ step ∈ shared.steps, ∀ i cx, p (.shared i) cx (step cx))
    (hhooks : ∀ hook ∈ shared.hooks, ∀ i cx value, p (.hook i) cx (hook.2 cx value))
    (hmark : ∀ r cx, p (.route r 0) cx (Step.mark cx))
    (hroutes : ∀ route ∈ routes, ∀ step ∈ route.steps, ∀ r j cx,
      p (.route r (j + 1)) cx (step cx)) :
    ∀ c ∈ calls, p c.site c.before c.run := by
  obtain ⟨method, hcalled⟩ := h.called
  intro c hc
  obtain ⟨task, ht, hs, hcall⟩ := hcalled c hc
  rw [← hs]
  -- The task is a router-level step, a hook, or one of a route, whose first one is its mark.
  rcases List.mem_append.1 ht with ht | ht
  · obtain ⟨i, hi, rfl⟩ := List.mem_mapIdx.1 ht
    rw [← Option.some.inj hcall]
    exact hsteps _ (List.getElem_mem hi) i _
  · rcases List.mem_append.1 ht with ht | ht
    · obtain ⟨i, hi, rfl⟩ := List.mem_mapIdx.1 ht
      obtain ⟨value, -, hv⟩ := Option.map_eq_some_iff.1 hcall
      rw [← hv]
      exact hhooks _ (List.getElem_mem hi) i _ value
    · obtain ⟨route, hr, r, ht⟩ := exists_of_mem_routeTasks ht
      obtain ⟨j, hj, rfl⟩ := List.mem_mapIdx.1 ht
      rw [← Option.some.inj hcall]
      cases j with
      | zero => exact hmark r _
      | succ j => exact hroutes route hr _ (List.getElem_mem (Nat.lt_of_succ_lt_succ hj)) r j _

end FollowsTable

/--
Router-level steps and hooks move between related contexts, and the steps of routes come from
arguments whose functions and custom steps do.
-/
structure Router.Within (R : Context → Context → Prop) (router : Router) : Prop where
  steps : ∀ step ∈ router.shared.steps, ∀ cx, R cx (step cx).context
  hooks : ∀ hook ∈ router.shared.hooks, ∀ cx value, R cx (hook.2 cx value).context
  arguments : ∀ entry ∈ router.paths, ∀ route ∈ entry.routes, ∀ step ∈ route.steps,
    ∃ executor argument, Argument.compile executor argument = .ok step ∧ argument.Within R

namespace Router

/-- The routes of the path that a request is for; there may be none. -/
def routesFor (router : Router) (request : Request) : List Route :=
  ((PathMatch.best? (PathMatch.all router.paths request.target.path.toList)).map
    (·.entry.routes)).getD []

theorem exists_entry_of_mem_routesFor {router : Router} {request : Request} {route : Route}
    (h : route ∈ router.routesFor request) : ∃ entry ∈ router.paths, route ∈ entry.routes := by
  rw [routesFor] at h
  cases hb : PathMatch.best? (PathMatch.all router.paths request.target.path.toList) with
  | none =>
    rw [hb] at h
    cases h
  | some m =>
    rw [hb] at h
    obtain ⟨entry, he, hm⟩ := List.mem_filterMap.1 (PathMatch.mem_of_best? hb)
    obtain ⟨captures, -, rfl⟩ := Option.map_eq_some_iff.1 hm
    exact ⟨entry, he, h⟩

/-- The context of a request before its body is read. -/
def start (router : Router) (fresh : String) (request : Request) : Context :=
  .ofRequest request
    (((PathMatch.best? (PathMatch.all router.paths request.target.path.toList)).map
      (·.params)).getD []) fresh

inductive Refuses (router : Router) (request : Request) : BodyError → Prop
  | unread (h : Body.read router.bodyLimit request.body = .error e) : Refuses router request e
  | unparsed (hb : Body.read router.bodyLimit request.body = .ok bytes)
      (h : Body.parse request.headers bytes = .error e) : Refuses router request e

/-- The run of a request whose body can be read: its bytes, its start, its calls and its end. -/
structure Handles (router : Router) (fresh : String) (request : Request) (bytes : Bytes)
    (cx : Context) (calls : List Call) (final : Context) (outcome : Except StepError Flow) :
    Prop where
  read : Body.read router.bodyLimit request.body = .ok bytes
  parsed : ∃ body, Body.parse request.headers bytes = .ok body ∧
    cx = (router.start fresh request).setBody body
  follows : FollowsTable router.shared (router.routesFor request) cx calls final outcome

variable {router : Router} {fresh : String} {request : Request} {bytes : Bytes}
  {cx final : Context} {calls : List Call} {outcome : Except StepError Flow}

theorem refuses_or_handles (router : Router) (fresh : String) (request : Request) :
    (∃ e, router.Refuses request e) ∨ ∃ bytes cx calls final outcome,
      router.Handles fresh request bytes cx calls final outcome := by
  cases hr : Body.read router.bodyLimit request.body with
  | error e => exact .inl ⟨e, .unread hr⟩
  | ok bytes =>
    cases hp : Body.parse request.headers bytes with
    | error e => exact .inl ⟨e, .unparsed hr hp⟩
    | ok body =>
      obtain ⟨calls, hf, -⟩ := runTable_records router.shared (router.routesFor request)
        ((router.start fresh request).setBody body)
      exact .inr ⟨bytes, _, calls, _, _, hr, ⟨body, hp, rfl⟩, hf⟩

theorem Handles.forall_call {p : Site → Context → StepRun → Prop}
    (h : router.Handles fresh request bytes cx calls final outcome)
    (hsteps : ∀ step ∈ router.shared.steps, ∀ i cx, p (.shared i) cx (step cx))
    (hhooks : ∀ hook ∈ router.shared.hooks, ∀ i cx value, p (.hook i) cx (hook.2 cx value))
    (hmark : ∀ r cx, p (.route r 0) cx (Step.mark cx))
    (hroutes : ∀ entry ∈ router.paths, ∀ route ∈ entry.routes, ∀ step ∈ route.steps, ∀ r j cx,
      p (.route r (j + 1)) cx (step cx)) : ∀ c ∈ calls, p c.site c.before c.run := by
  apply h.follows.forall_call hsteps hhooks hmark
  intro route hr step hs
  obtain ⟨entry, he, hm⟩ := exists_entry_of_mem_routesFor hr
  exact hroutes entry he route hm step hs

/-- Each call is the mark of a route or moves between related contexts. -/
theorem Handles.call_cases {R : Context → Context → Prop}
    (h : router.Handles fresh request bytes cx calls final outcome) (hw : router.Within R)
    (hR : Permits R) : ∀ c ∈ calls, (∃ r, c.site = .route r 0) ∧ c.run = Step.mark c.before ∨
      R c.before c.run.context := by
  apply h.forall_call
    (p := fun site cx run => (∃ r, site = .route r 0) ∧ run = Step.mark cx ∨ R cx run.context)
  · intro step hs i cx
    exact .inr (hw.steps step hs cx)
  · intro hook hh i cx value
    exact .inr (hw.hooks hook hh cx value)
  · intro r cx
    exact .inl ⟨⟨r, rfl⟩, rfl⟩
  · intro entry he route hr step hs r j cx
    obtain ⟨executor, argument, hc, ha⟩ := hw.arguments entry he route hr step hs
    exact .inr (ha.compile hR hc cx)

/-- What the finalizer gets to see: the bytes of the body, and the run or the body's failure. -/
def handled (router : Router) (fresh : String) (request : Request) : Bytes × StepRun :=
  runWithBody router.bodyLimit request (router.start fresh request)
    (runTable router.shared (router.routesFor request))

theorem dispatch_eq (router : Router) (fresh : String) (request : Request) :
    router.dispatch fresh request =
      let answer := router.collaborators.finalize
        { request with body := [.chunk (router.handled fresh request).1] }
        (router.handled fresh request).2
      ⟨answer.1, some answer.2, (router.handled fresh request).2.events⟩ := rfl

theorem Handles.handled_eq (h : router.Handles fresh request bytes cx calls final outcome) :
    router.handled fresh request =
      (bytes, runTable router.shared (router.routesFor request) cx) := by
  obtain ⟨body, hp, rfl⟩ := h.parsed
  rw [Router.handled, runWithBody, h.read]
  simp only [hp]

theorem Handles.handled (h : router.Handles fresh request bytes cx calls final outcome) :
    (router.handled fresh request).1 = bytes ∧ (router.handled fresh request).2.context = final ∧
      (router.handled fresh request).2.outcome = outcome := by
  obtain ⟨calls', hf, -⟩ := runTable_records router.shared (router.routesFor request) cx
  obtain ⟨-, hfinal, hout⟩ := h.follows.unique hf
  rw [h.handled_eq]
  exact ⟨rfl, hfinal.symm, hout.symm⟩

theorem Handles.events (h : router.Handles fresh request bytes cx calls final outcome) :
    (router.dispatch fresh request).events = calls.flatMap (·.run.events) := by
  obtain ⟨calls', hf, he⟩ := runTable_records router.shared (router.routesFor request) cx
  obtain ⟨rfl, -⟩ := h.follows.unique hf
  rw [dispatch_eq, h.handled_eq]
  exact he

theorem Refuses.handled {e : BodyError} (h : router.Refuses request e) :
    (router.handled fresh request).2 = .failed (router.start fresh request) (.ofBody e) := by
  cases h with
  | unread hr => rw [Router.handled, runWithBody, hr]
  | unparsed hb hp =>
    rw [Router.handled, runWithBody, hb]
    simp only [hp]

theorem Refuses.events {e : BodyError} (h : router.Refuses request e) :
    (router.dispatch fresh request).events = [] := by
  rw [dispatch_eq, h.handled]
  rfl

variable {flow : Flow}

theorem Handles.dispatch_of_error {e : StepError}
    (h : router.Handles fresh request bytes cx calls final (.error e)) :
    (router.dispatch fresh request).response = router.collaborators.handler e final ∧
      (router.dispatch fresh request).departure = some .error := by
  obtain ⟨-, rfl, ho⟩ := h.handled
  rw [dispatch_eq]
  simp only [Collaborators.finalize, ho, and_self]

theorem Handles.dispatch_of_sent {response : Response}
    (h : router.Handles fresh request bytes cx calls final (.ok flow))
    (hs : final.response.sent = some response) :
    (router.dispatch fresh request).response = response ∧
      (router.dispatch fresh request).departure = some .sent := by
  obtain ⟨-, rfl, ho⟩ := h.handled
  rw [dispatch_eq]
  simp only [Collaborators.finalize, ho, hs, and_self]

theorem Handles.dispatch_of_forwarded
    (h : router.Handles fresh request bytes cx calls final (.ok flow))
    (hs : final.response.sent = none) (hf : flow = .exitRouter ∨ final.matched = false) :
    (router.dispatch fresh request).response =
        router.collaborators.forward { request with body := [.chunk bytes] } ∧
      (router.dispatch fresh request).departure = some .forwarded := by
  obtain ⟨rfl, rfl, ho⟩ := h.handled
  rw [← Bool.not_eq_true'] at hf
  rw [dispatch_eq]
  simp only [Collaborators.finalize, ho, hs, if_pos hf, and_self]

theorem Handles.dispatch_of_result
    (h : router.Handles fresh request bytes cx calls final (.ok flow))
    (hs : final.response.sent = none) (hf : flow ≠ .exitRouter) (hm : final.matched = true) :
    (router.dispatch fresh request).response = final.renderResult ∧
      (router.dispatch fresh request).departure = some .result := by
  obtain ⟨-, rfl, ho⟩ := h.handled
  have hc : ¬ (flow = .exitRouter ∨ (!(router.handled fresh request).2.context.matched) = true) :=
    by simp only [hf, hm, Bool.not_true, Bool.false_eq_true, or_self, not_false_eq_true]
  rw [dispatch_eq]
  simp only [Collaborators.finalize, ho, hs, if_neg hc, and_self]

theorem Refuses.dispatch {e : BodyError} (h : router.Refuses request e) :
    (router.dispatch fresh request).response =
        router.collaborators.handler (.ofBody e) (router.start fresh request) ∧
      (router.dispatch fresh request).departure = some .error := by
  rw [dispatch_eq]
  simp only [h.handled, Collaborators.finalize, StepRun.failed, and_self]

end Router

end QueryRouting
