import QueryRouting.Proofs.Route.Handling

namespace QueryRouting

theorem Context.markMatched_of_matched {cx : Context} (h : cx.matched = true) :
    cx.markMatched = cx := by
  rw [markMatched, ← h]

namespace Step

theorem chain_append (steps later : List Step) (cx : Context) :
    chain Flow.isNext (steps ++ later) cx =
      (chain Flow.isNext steps cx).andThen Flow.isNext (chain Flow.isNext later) := by
  induction steps generalizing cx with
  | nil => rfl
  | cons step steps ih =>
    rw [List.cons_append, chain_cons, chain_cons, StepRun.andThen_andThen]
    exact StepRun.andThen_congr fun _ => ih _

end Step

namespace Route

variable {first second : Route} {cx : Context}

/-- The route with the steps of two. -/
def join (first second : Route) : Route :=
  ⟨first.matcher, first.steps ++ second.steps⟩

theorem run_eq (route : Route) (cx : Context) :
    route.run cx = (Step.chain Flow.isNext route.steps cx.markMatched).unskipped := rfl

theorem run_join {run : StepRun}
    (hr : Step.chain Flow.isNext (Step.mark :: first.steps) cx = run)
    (hs : run.outcome ≠ .ok .skipRoute)
    (hm : run.outcome = .ok .next → run.context.matched = true) :
    (first.join second).run cx = (first.run cx).andThen Flow.isNext second.run := by
  have hr : Step.chain Flow.isNext first.steps cx.markMatched = run := hr
  rw [run_eq, run_eq, join, Step.chain_append, hr]
  rcases stops_or run.outcome with hn | hc | hc
  · -- The second mark finds the one that the first route has made.
    rw [StepRun.unskipped_of_next hn, StepRun.andThen_of_next hn, StepRun.andThen_of_next hn,
      StepRun.unskipped_after, run_eq, Context.markMatched_of_matched (hm hn)]
  · exact absurd hc hs
  · rw [StepRun.unskipped_of_stops hc, StepRun.andThen_of_stops hc, StepRun.andThen_of_stops hc,
      StepRun.unskipped_of_stops hc]

end Route

namespace Follows

variable {agenda rest : List Task} {cx final : Context} {calls : List Call}
  {outcome : Except StepError Flow}

/-- Where no call skips, a chain of the tasks ends as the calls do. -/
theorem chain (h : Follows agenda cx calls final outcome)
    (hs : ∀ c ∈ calls, c.run.outcome ≠ .ok .skipRoute) :
    (Step.chain Flow.isNext (agenda.map Task.step) cx).context = final ∧
      (Step.chain Flow.isNext (agenda.map Task.step) cx).outcome = outcome := by
  induction h with
  | done => exact ⟨rfl, rfl⟩
  | pass hc _ ih =>
    rw [List.map_cons, Step.chain_cons, Task.step_of_none hc, StepRun.andThen_of_next rfl]
    exact ih hs
  | @go task rest left cx final run calls outcome hc hl _ ih =>
    rw [List.forall_mem_cons] at hs
    rw [List.map_cons, Step.chain_cons, Task.step_of_some hc]
    rcases stops_or run.outcome with hn | hskip | hstop
    · rw [hn] at hl
      cases hl
      rw [StepRun.andThen_of_next hn]
      exact ih hs.2
    · exact absurd hskip hs.1
    · cases (Task.remaining?_eq_none_iff.2 hstop).symm.trans hl
  | stop hc hl =>
    rw [List.map_cons, Step.chain_cons, Task.step_of_some hc,
      StepRun.andThen_of_stops (Task.remaining?_eq_none_iff.1 hl)]
    exact ⟨rfl, rfl⟩

theorem of_step {site : Site} {step : Step}
    (h : Follows (.ofStep site step :: rest) cx calls final outcome) :
    ∃ later, calls = ⟨site, cx, step cx⟩ :: later ∧
      ((step cx).outcome = .ok .next → Follows rest (step cx).context later final outcome) := by
  cases h with
  | pass hc => cases hc
  | go hc hl tail =>
    cases hc
    refine ⟨_, rfl, fun hn => ?_⟩
    rw [hn] at hl
    cases hl
    exact tail
  | stop hc hl =>
    cases hc
    refine ⟨_, rfl, fun hn => ?_⟩
    rw [hn] at hl
    cases hl

theorem exists_front (h : Follows (agenda ++ rest) cx calls final outcome)
    (ha : Task.Apart agenda rest) : ∃ earlier later middle ending, calls = earlier ++ later ∧
      Follows agenda cx earlier middle ending := by
  rcases h.split ha with ⟨h, -⟩ | ⟨earlier, middle, later, rfl, h, -⟩
  · exact ⟨calls, [], final, outcome, (List.append_nil _).symm, h⟩
  · exact ⟨earlier, later, middle, _, rfl, h⟩

end Follows

section Table

variable {shared : Shared} {before after : List Route} {first second : Route} {cx : Context}

theorem acceptingRoutes_append (routes later : List Route) (method : Method) :
    acceptingRoutes (routes ++ later) method =
      acceptingRoutes routes method ++ acceptingRoutes later method :=
  List.filter_append ..

/-- The tasks of routes that stand in a table from this place on. -/
def tasksFrom (place : Nat) (routes : List Route) (method : Method) : List Task :=
  ((routes.zipIdx place).filter fun route => route.1.matcher.Serves method).flatMap fun route =>
    route.1.tasks route.2

theorem site_of_mem_tasksFrom {place : Nat} {routes : List Route} {method : Method} {task : Task}
    (h : task ∈ tasksFrom place routes method) :
    ∃ r j, task.site = .route r j ∧ place ≤ r ∧ r < place + routes.length := by
  obtain ⟨⟨route, r⟩, hm, ht⟩ := List.mem_flatMap.1 h
  obtain ⟨hl, hu, -⟩ := List.mem_zipIdx (List.mem_filter.1 hm).1
  obtain ⟨j, hj⟩ := Route.site_of_mem_tasks ht
  exact ⟨r, j, hj, hl, hu⟩

theorem routeTasks_append (before later : List Route) (method : Method) :
    routeTasks (before ++ later) method =
      routeTasks before method ++ tasksFrom before.length later method := by
  rw [routeTasks, servingRoutes, List.zipIdx_append, List.filter_append, List.flatMap_append,
    Nat.zero_add]
  rfl

theorem tasksFrom_cons_of_serves {method : Method} (h : first.matcher.Serves method) (place : Nat)
    (later : List Route) : tasksFrom place (first :: later) method =
      first.tasks place ++ tasksFrom (place + 1) later method := by
  rw [tasksFrom, List.zipIdx_cons, List.filter_cons_of_pos (by simpa using h), List.flatMap_cons]
  rfl

theorem apart_routeTasks (before later : List Route) (method : Method) :
    Task.Apart (routeTasks before method) (tasksFrom before.length later method) := by
  intro s hs t ht
  obtain ⟨r, i, hi, -, hr⟩ := @site_of_mem_tasksFrom 0 _ _ _ hs
  obtain ⟨r', j, hj, hr', -⟩ := site_of_mem_tasksFrom ht
  rw [hi, hj]
  exact beq_false_of_ne (by omega)

theorem Route.apart_tasksFrom (route : Route) (place : Nat) (later : List Route)
    (method : Method) :
    Task.Apart (route.tasks place) (tasksFrom (place + 1) later method) := by
  intro s hs t ht
  obtain ⟨i, hi⟩ := Route.site_of_mem_tasks hs
  obtain ⟨r, j, hj, hr, -⟩ := site_of_mem_tasksFrom ht
  rw [hi, hj]
  exact beq_false_of_ne (by omega)

theorem acceptingRoutes_cons_of_serves {route : Route} {method : Method}
    (h : route.matcher.Serves method) (later : List Route) :
    acceptingRoutes (route :: later) method = route :: acceptingRoutes later method :=
  List.filter_cons_of_pos (MethodMatcher.accepts_iff.2 h)

theorem acceptingRoutes_cons_of_not_serves {route : Route} {method : Method}
    (h : ¬ route.matcher.Serves method) (later : List Route) :
    acceptingRoutes (route :: later) method = acceptingRoutes later method :=
  List.filter_cons_of_neg (mt MethodMatcher.accepts_iff.1 h)

/-- What runs before later routes of a path: the hooks, and the routes before them. -/
def Shared.serveBefore (shared : Shared) (before : List Route) : Step := fun cx =>
  (shared.runHooks cx).andThen Flow.isNext
    (Step.chain Flow.isNext ((acceptingRoutes before cx.request.method).map Route.run))

theorem Shared.serve_append {later : List Route}
    (h : ∃ route ∈ later, route.matcher.Serves cx.request.method) :
    shared.serve (before ++ later) cx = (shared.serveBefore before cx).andThen Flow.isNext
      (Step.chain Flow.isNext ((acceptingRoutes later cx.request.method).map Route.run)) := by
  obtain ⟨route, hr, hs⟩ := h
  rw [serve_of_served ⟨route, List.mem_append_right _ hr, hs⟩, acceptingRoutes_append,
    List.map_append, serveBefore, StepRun.andThen_andThen]
  exact StepRun.andThen_congr fun _ => Step.chain_append ..

theorem Shared.records_serveBefore (shared : Shared) (before : List Route) (cx : Context) :
    Records (shared.hookTasks ++ routeTasks before cx.request.method) cx
      (shared.serveBefore before cx) :=
  (shared.records_runHooks cx).andThen (fun _ => records_routes before cx.request.method _)
    (apart_hookTasks shared _)

/-- Where the run comes to later routes, their calls end those of the table. -/
theorem FollowsTable.of_routes {later : List Route} {final : Context} {calls : List Call}
    {outcome : Except StepError Flow} (hsteps : (shared.runSteps cx).outcome = .ok .next)
    (hserve : ∃ route ∈ later,
      route.matcher.Serves (shared.runSteps cx).context.request.method)
    (hbefore : (shared.serveBefore before (shared.runSteps cx).context).outcome = .ok .next)
    (h : Follows (tasksFrom before.length later (shared.runSteps cx).context.request.method)
      (shared.serveBefore before (shared.runSteps cx).context).context calls final outcome) :
    ∃ earlier, FollowsTable shared (before ++ later) cx (earlier ++ calls) final outcome := by
  obtain ⟨route, hm, hs⟩ := hserve
  obtain ⟨calls₁, hf₁, -⟩ := shared.records_runSteps cx
  obtain ⟨calls₂, hf₂, -⟩ := shared.records_serveBefore before (shared.runSteps cx).context
  rw [hsteps] at hf₁
  rw [hbefore] at hf₂
  have hroutes :=
    hf₂.append ((apart_hookTasks shared _).append (apart_routeTasks before later _)) h
  rw [List.append_assoc, ← routeTasks_append] at hroutes
  refine ⟨calls₁ ++ calls₂, ?_⟩
  rw [List.append_assoc]
  exact .served hf₁ ⟨route, List.mem_append_right _ hm, hs⟩ hroutes

/--
Tables run in a related way if they differ in a route and what is behind it, and run in a related
way from there. The relation is one that goes through `andThen`.
-/
theorem runTable_related {R : StepRun → StepRun → Prop} {later later' : List Route}
    {first' : Route} (hR : ∀ run, R run run)
    (hthen : ∀ (run : StepRun) (next next' : Step),
      (run.outcome = .ok .next → R (next run.context) (next' run.context)) →
        R (run.andThen Flow.isNext next) (run.andThen Flow.isNext next'))
    (hm : first'.matcher = first.matcher)
    (hrest : ∀ method, ¬ first.matcher.Serves method →
      acceptingRoutes later method = acceptingRoutes later' method)
    (hfrom : ∀ method start calls final outcome, first.matcher.Serves method →
      Follows (tasksFrom before.length (first :: later) method) start calls final outcome →
      (∃ earlier, FollowsTable shared (before ++ first :: later) cx (earlier ++ calls) final
        outcome) →
      R (Step.chain Flow.isNext (first.run :: (acceptingRoutes later method).map Route.run) start)
        (Step.chain Flow.isNext (first'.run :: (acceptingRoutes later' method).map Route.run)
          start)) :
    R (runTable shared (before ++ first :: later) cx)
      (runTable shared (before ++ first' :: later') cx) := by
  rw [runTable, runTable]
  apply hthen
  intro hsteps
  by_cases hserves : first.matcher.Serves (shared.runSteps cx).context.request.method
  · have hserves' : first'.matcher.Serves (shared.runSteps cx).context.request.method := by
      rwa [hm]
    rw [Shared.serve_append ⟨first, List.mem_cons_self, hserves⟩,
      Shared.serve_append ⟨first', List.mem_cons_self, hserves'⟩,
      acceptingRoutes_cons_of_serves hserves, acceptingRoutes_cons_of_serves hserves']
    apply hthen
    intro hbefore
    obtain ⟨calls, final, outcome, hf⟩ := Follows.total
      (tasksFrom before.length (first :: later) (shared.runSteps cx).context.request.method)
      (shared.serveBefore before (shared.runSteps cx).context).context
    have htable := FollowsTable.of_routes hsteps ⟨first, List.mem_cons_self, hserves⟩ hbefore hf
    exact hfrom _ _ _ _ _ hserves hf htable
  · have hserves' : ¬ first'.matcher.Serves (shared.runSteps cx).context.request.method := by
      rwa [hm]
    rw [Shared.serve, Shared.serve, acceptingRoutes_append, acceptingRoutes_append,
      acceptingRoutes_cons_of_not_serves hserves, acceptingRoutes_cons_of_not_serves hserves',
      hrest _ hserves]
    exact hR _

/--
No call of the route at this place skips the route, and where the run goes on to the next one from
there, that one finds the mark of the first.
-/
structure HandsOver (r : Nat) (calls : List Call) : Prop where
  unskipped : ∀ c ∈ calls, ∀ j, c.site = .route r j → c.run.outcome ≠ .ok .skipRoute
  marked : ∀ c ∈ calls, c.site = .route (r + 1) 0 → c.before.matched = true

theorem HandsOver.of_append {r : Nat} {earlier calls : List Call}
    (h : HandsOver r (earlier ++ calls)) : HandsOver r calls where
  unskipped c hc := h.unskipped c (List.mem_append_right _ hc)
  marked c hc := h.marked c (List.mem_append_right _ hc)

theorem HandsOver.chain {start final : Context} {calls : List Call} {r : Nat} {rest : List Task}
    {outcome : Except StepError Flow} (hs : HandsOver r calls)
    (h : Follows (first.tasks r ++ (second.tasks (r + 1) ++ rest)) start calls final outcome)
    (ha : Task.Apart (first.tasks r) (second.tasks (r + 1) ++ rest)) :
    ∃ run, Step.chain Flow.isNext (Step.mark :: first.steps) start = run ∧
      run.outcome ≠ .ok .skipRoute ∧ (run.outcome = .ok .next → run.context.matched = true) := by
  have hskip {calls : List Call} {middle : Context} {ending : Except StepError Flow}
      (hf : Follows (first.tasks r) start calls middle ending)
      (hs : ∀ c ∈ calls, ∀ j, c.site = .route r j → c.run.outcome ≠ .ok .skipRoute) :
      ∀ c ∈ calls, c.run.outcome ≠ .ok .skipRoute := by
    intro c hc
    obtain ⟨j, hj⟩ := hf.forall_site (fun site => ∃ j, site = .route r j)
      (fun _ ht => Route.site_of_mem_tasks ht) c hc
    exact hs c hc j hj
  rw [← first.map_step_tasks r]
  refine ⟨_, rfl, ?_⟩
  rcases h.split ha with ⟨hf, hstops⟩ | ⟨earlier, middle, later, rfl, hf, hl⟩
  · obtain ⟨-, hout⟩ := hf.chain (hskip hf hs.unskipped)
    rw [hout]
    refine ⟨?_, ?_⟩
    · rintro rfl
      cases hstops
    · rintro rfl
      cases hstops
  · obtain ⟨hfinal, hout⟩ := hf.chain
      (hskip hf fun c hc => hs.unskipped c (List.mem_append_left _ hc))
    rw [hout, hfinal]
    refine ⟨nofun, fun _ => ?_⟩
    -- The first call behind the route is the mark of the next one.
    rw [Route.tasks, List.mapIdx_cons, List.cons_append] at hl
    obtain ⟨calls, rfl, -⟩ := hl.of_step
    exact hs.marked _ (List.mem_append_right _ List.mem_cons_self) rfl

theorem runTable_join (hm : second.matcher = first.matcher)
    (hs : ∀ calls final outcome,
      FollowsTable shared (before ++ first :: second :: after) cx calls final outcome →
        HandsOver before.length calls) :
    runTable shared (before ++ first.join second :: after) cx =
      runTable shared (before ++ first :: second :: after) cx := by
  symm
  apply runTable_related Eq.refl
  · exact fun _ _ _ => StepRun.andThen_congr
  · rfl
  · intro method hn
    exact acceptingRoutes_cons_of_not_serves (by rwa [hm]) after
  · rintro method start calls final outcome hserves hf ⟨earlier, htable⟩
    have hserves' : second.matcher.Serves method := by rwa [hm]
    have ha := first.apart_tasksFrom before.length (second :: after) method
    rw [tasksFrom_cons_of_serves hserves, tasksFrom_cons_of_serves hserves'] at hf
    rw [tasksFrom_cons_of_serves hserves'] at ha
    obtain ⟨run, hrun, hskip, hmatched⟩ := (hs _ _ _ htable).of_append.chain hf ha
    rw [acceptingRoutes_cons_of_serves hserves', List.map_cons, Step.chain_cons,
      Step.chain_cons, Route.run_join hrun hskip hmatched, StepRun.andThen_andThen]
    rfl

end Table

end QueryRouting
