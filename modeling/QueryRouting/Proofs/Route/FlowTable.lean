import QueryRouting.Proofs.Route.Records
import QueryRouting.Proofs.Traversal

namespace QueryRouting

namespace MethodMatcher

/-- A route for GET also serves HEAD. -/
def Serves (matcher : MethodMatcher) (method : Method) : Prop :=
  matcher = .any ∨ matcher = .only method ∨ matcher = .only Method.get ∧ method = Method.head

theorem accepts_iff {matcher : MethodMatcher} {method : Method} :
    matcher.accepts method = true ↔ matcher.Serves method := by
  cases matcher <;> simp [accepts, Serves]

instance (matcher : MethodMatcher) (method : Method) : Decidable (matcher.Serves method) :=
  decidable_of_iff _ accepts_iff

end MethodMatcher

def Task.ofStep (site : Site) (step : Step) : Task :=
  ⟨site, fun cx => some (step cx)⟩

/-- A hook is called with the value of its parameter, and passed over unless this is a string. -/
def Task.ofHook (site : Site) (name : String) (hook : ParamHook) : Task :=
  ⟨site, fun cx => (cx.request.param? name).map (hook cx)⟩

theorem Task.ofStep_step (site : Site) (step : Step) : (Task.ofStep site step).step = step := rfl

theorem Task.ofHook_step (site : Site) (name : String) (hook : ParamHook) :
    (Task.ofHook site name hook).step = hook.step name := by
  funext cx
  cases h : cx.request.param? name <;> simp only [Task.step, Task.ofHook, ParamHook.step, h] <;> rfl

def Shared.stepTasks (shared : Shared) : List Task :=
  shared.steps.mapIdx fun i step => .ofStep (.shared i) step

def Shared.hookTasks (shared : Shared) : List Task :=
  shared.hooks.mapIdx fun i hook => .ofHook (.hook i) hook.1 hook.2

def Route.tasks (route : Route) (r : Nat) : List Task :=
  (Step.mark :: route.steps).mapIdx fun j step => .ofStep (.route r j) step

def servingRoutes (routes : List Route) (method : Method) : List (Route × Nat) :=
  routes.zipIdx.filter fun route => route.1.matcher.Serves method

/-- The tasks of the routes that serve a method, in order of declaration. -/
def routeTasks (routes : List Route) (method : Method) : List Task :=
  (servingRoutes routes method).flatMap fun route => route.1.tasks route.2

/-- The calls of a path table, with the context and the outcome at their end. -/
inductive FollowsTable (shared : Shared) (routes : List Route) (cx : Context) :
    List Call → Context → Except StepError Flow → Prop
  | stopped {calls : List Call} {final : Context} {outcome : Except StepError Flow}
      (h : Follows shared.stepTasks cx calls final outcome) (hs : Stops outcome) :
      FollowsTable shared routes cx calls final outcome
  | unserved {calls : List Call} {final : Context}
      (h : Follows shared.stepTasks cx calls final (.ok .next))
      (hm : ∀ route ∈ routes, ¬ route.matcher.Serves final.request.method) :
      FollowsTable shared routes cx calls final (.ok .next)
  /-- That method decides which routes run, whatever becomes of it later. -/
  | served {earlier later : List Call} {middle final : Context} {outcome : Except StepError Flow}
      (h : Follows shared.stepTasks cx earlier middle (.ok .next))
      (hm : ∃ route ∈ routes, route.matcher.Serves middle.request.method)
      (h' : Follows (shared.hookTasks ++ routeTasks routes middle.request.method) middle later
        final outcome) :
      FollowsTable shared routes cx (earlier ++ later) final outcome

def Site.IsOutside : Site → Prop
  | .route _ _ => False
  | _ => True

theorem Site.IsOutside.sameRoute {s : Site} (h : s.IsOutside) (t : Site) :
    s.sameRoute t = false := by
  cases s with
  | shared i | hook i => rfl
  | route r j => cases h

theorem Task.pairwise_of_isOutside {tasks : List Task} (h : ∀ t ∈ tasks, t.site.IsOutside) :
    tasks.Pairwise fun s t => s.site.sameRoute t.site = false :=
  List.pairwise_of_forall_mem_list fun s hs t _ => (h s hs).sameRoute t.site

namespace Shared

variable (shared : Shared) (cx : Context)

theorem isOutside_of_mem_stepTasks {task : Task} (h : task ∈ shared.stepTasks) :
    task.site.IsOutside := by
  obtain ⟨i, hi, rfl⟩ := List.mem_mapIdx.1 h
  trivial

theorem isOutside_of_mem_hookTasks {task : Task} (h : task ∈ shared.hookTasks) :
    task.site.IsOutside := by
  obtain ⟨i, hi, rfl⟩ := List.mem_mapIdx.1 h
  trivial

theorem records_runSteps : Records shared.stepTasks cx (shared.runSteps cx) := by
  have hmap : shared.stepTasks.map Task.step = shared.steps.map id :=
    Traversal.map_mapIdx (fun i step => Task.ofStep_step (.shared i) step) shared.steps
  rw [runSteps, ← List.map_id shared.steps, ← hmap]
  exact Task.records_chain
    (Task.pairwise_of_isOutside fun _ h => shared.isOutside_of_mem_stepTasks h) cx

theorem records_runHooks : Records shared.hookTasks cx (shared.runHooks cx) := by
  have hmap : shared.hookTasks.map Task.step =
      shared.hooks.map fun hook => hook.2.step hook.1 :=
    Traversal.map_mapIdx (fun i hook => Task.ofHook_step (.hook i) hook.1 hook.2) shared.hooks
  have hrun : shared.runHooks = Step.chain Flow.isNextOrSkip (shared.hookTasks.map Task.step) := by
    rw [hmap]
    rfl
  rw [hrun]
  exact Task.records_chain
    (Task.pairwise_of_isOutside fun _ h => shared.isOutside_of_mem_hookTasks h) cx

end Shared

theorem Route.site_of_mem_tasks {route : Route} {r : Nat} {task : Task}
    (h : task ∈ route.tasks r) : ∃ j, task.site = .route r j := by
  obtain ⟨j, hj, rfl⟩ := List.mem_mapIdx.1 h
  exact ⟨j, rfl⟩

theorem Route.map_step_tasks (route : Route) (r : Nat) :
    (route.tasks r).map Task.step = Step.mark :: route.steps := by
  have hmap : (route.tasks r).map Task.step = (Step.mark :: route.steps).map id :=
    Traversal.map_mapIdx (fun j step => Task.ofStep_step (.route r j) step) _
  rw [hmap, List.map_id]

theorem Route.records_run (route : Route) (r : Nat) (cx : Context) :
    Records (route.tasks r) cx (route.run cx) := by
  have hrun : route.run cx =
      (Step.chain Flow.isNext ((route.tasks r).map Task.step) cx).unskipped := by
    rw [route.map_step_tasks]
    rfl
  rw [hrun]
  apply Task.records_route
  intro s hs t ht
  obtain ⟨i, hi⟩ := site_of_mem_tasks hs
  obtain ⟨j, hj⟩ := site_of_mem_tasks ht
  rw [hi, hj]
  exact BEq.rfl

theorem Route.apart_tasks {route other : Route} {r s : Nat} (h : r ≠ s) :
    Task.Apart (route.tasks r) (other.tasks s) := by
  intro t ht u hu
  obtain ⟨i, hi⟩ := site_of_mem_tasks ht
  obtain ⟨j, hj⟩ := site_of_mem_tasks hu
  rw [hi, hj]
  exact beq_false_of_ne h

theorem map_servingRoutes (routes : List Route) (method : Method) :
    (servingRoutes routes method).map (·.1) = acceptingRoutes routes method := by
  have hs : (fun route : Route => decide (route.matcher.Serves method)) =
      fun route => route.matcher.accepts method := by
    funext route
    rw [Bool.eq_iff_iff, decide_eq_true_iff, MethodMatcher.accepts_iff]
  have hz : (routes.zipIdx.map (·.1)).filter (fun route => route.matcher.Serves method) =
      (servingRoutes routes method).map (·.1) := List.filter_map
  rw [← hz, List.zipIdx_map_fst, hs]
  rfl

theorem pairwise_servingRoutes (routes : List Route) (method : Method) :
    (servingRoutes routes method).Pairwise fun a b => a.2 ≠ b.2 := by
  apply List.Pairwise.filter
  rw [← List.pairwise_map, List.zipIdx_map_snd]
  exact List.nodup_range'

theorem records_routes (routes : List Route) (method : Method) (cx : Context) :
    Records (routeTasks routes method) cx
      (Step.chain Flow.isNext ((acceptingRoutes routes method).map Route.run) cx) := by
  rw [← map_servingRoutes, List.map_map]
  apply Records.chain fun route _ cx => route.1.records_run route.2 cx
  exact (pairwise_servingRoutes routes method).imp Route.apart_tasks

theorem acceptingRoutes_eq_nil_iff {routes : List Route} {method : Method} :
    acceptingRoutes routes method = [] ↔ ∀ route ∈ routes, ¬ route.matcher.Serves method := by
  rw [acceptingRoutes, List.filter_eq_nil_iff]
  simp only [MethodMatcher.accepts_iff]

theorem apart_hookTasks (shared : Shared) (tasks : List Task) :
    Task.Apart shared.hookTasks tasks :=
  fun _ hs t _ => (shared.isOutside_of_mem_hookTasks hs).sameRoute t.site

theorem Shared.serve_of_unserved {shared : Shared} {routes : List Route} {cx : Context}
    (h : ∀ route ∈ routes, ¬ route.matcher.Serves cx.request.method) :
    shared.serve routes cx = .done cx .next := by
  rw [serve, acceptingRoutes_eq_nil_iff.2 h]

theorem Shared.serve_of_served {shared : Shared} {routes : List Route} {cx : Context}
    (h : ∃ route ∈ routes, route.matcher.Serves cx.request.method) :
    shared.serve routes cx = (shared.runHooks cx).andThen Flow.isNext
      (Step.chain Flow.isNext ((acceptingRoutes routes cx.request.method).map Route.run)) := by
  have hne : acceptingRoutes routes cx.request.method ≠ [] := by
    rw [Ne, acceptingRoutes_eq_nil_iff]
    obtain ⟨route, hm, hs⟩ := h
    exact fun hall => hall route hm hs
  rw [serve]
  split
  · exact absurd ‹_› hne
  · rfl

theorem Shared.nodup_stepSites (shared : Shared) : (shared.stepTasks.map (·.site)).Nodup := by
  apply Traversal.nodup_map_mapIdx Site.shared
  · exact fun _ _ => rfl
  · exact fun _ _ => Site.shared.inj

theorem Shared.nodup_hookSites (shared : Shared) : (shared.hookTasks.map (·.site)).Nodup := by
  apply Traversal.nodup_map_mapIdx Site.hook
  · exact fun _ _ => rfl
  · exact fun _ _ => Site.hook.inj

theorem Route.nodup_sites (route : Route) (r : Nat) :
    ((route.tasks r).map (·.site)).Nodup := by
  apply Traversal.nodup_map_mapIdx (Site.route r)
  · exact fun _ _ => rfl
  · exact fun _ _ h => (Site.route.inj h).2

theorem nodup_routeSites (routes : List Route) (method : Method) :
    ((routeTasks routes method).map (·.site)).Nodup := by
  rw [routeTasks, List.map_flatMap, List.nodup_flatMap]
  constructor
  · exact fun route _ => route.1.nodup_sites route.2
  · apply (pairwise_servingRoutes routes method).imp
    intro a b hab
    apply List.disjoint_left.2
    intro site ha hb
    obtain ⟨s, hs, rfl⟩ := List.mem_map.1 ha
    obtain ⟨t, ht, he⟩ := List.mem_map.1 hb
    obtain ⟨i, hi⟩ := Route.site_of_mem_tasks hs
    obtain ⟨j, hj⟩ := Route.site_of_mem_tasks ht
    rw [hi, hj] at he
    exact hab (Site.route.inj he).1.symm

theorem mem_routeTasks {routes : List Route} {method : Method} {task : Task}
    (h : task ∈ routeTasks routes method) : ∃ r j, task.site = .route r j := by
  obtain ⟨route, hm, ht⟩ := List.mem_flatMap.1 h
  obtain ⟨j, hj⟩ := Route.site_of_mem_tasks ht
  exact ⟨route.2, j, hj⟩

theorem nodup_tableSites (shared : Shared) (routes : List Route) (method : Method) :
    ((shared.stepTasks ++ (shared.hookTasks ++ routeTasks routes method)).map
      (·.site)).Nodup := by
  have hstep {task : Task} (h : task ∈ shared.stepTasks) : ∃ i, task.site = .shared i := by
    obtain ⟨i, hi, rfl⟩ := List.mem_mapIdx.1 h
    exact ⟨i, rfl⟩
  have hhook {task : Task} (h : task ∈ shared.hookTasks) : ∃ i, task.site = .hook i := by
    obtain ⟨i, hi, rfl⟩ := List.mem_mapIdx.1 h
    exact ⟨i, rfl⟩
  rw [List.map_append, List.map_append, List.nodup_append, List.nodup_append]
  refine ⟨shared.nodup_stepSites, ⟨shared.nodup_hookSites, nodup_routeSites routes method, ?_⟩, ?_⟩
  · intro a ha b hb
    obtain ⟨s, hs, rfl⟩ := List.mem_map.1 ha
    obtain ⟨t, ht, rfl⟩ := List.mem_map.1 hb
    obtain ⟨i, hi⟩ := hhook hs
    obtain ⟨r, j, hj⟩ := mem_routeTasks ht
    rw [hi, hj]
    exact Site.noConfusion
  · intro a ha b hb
    obtain ⟨s, hs, rfl⟩ := List.mem_map.1 ha
    obtain ⟨i, hi⟩ := hstep hs
    rw [hi]
    rcases List.mem_append.1 hb with hb | hb <;> obtain ⟨t, ht, rfl⟩ := List.mem_map.1 hb
    · obtain ⟨j, hj⟩ := hhook ht
      rw [hj]
      exact Site.noConfusion
    · obtain ⟨r, j, hj⟩ := mem_routeTasks ht
      rw [hj]
      exact Site.noConfusion

/-- The run of a path table has the calls of its flow table, and shows what they show. -/
theorem runTable_records (shared : Shared) (routes : List Route) (cx : Context) :
    ∃ calls, FollowsTable shared routes cx calls (runTable shared routes cx).context
        (runTable shared routes cx).outcome ∧
      (runTable shared routes cx).events = calls.flatMap (·.run.events) := by
  obtain ⟨earlier, hf, he⟩ := shared.records_runSteps cx
  rw [runTable]
  rcases hf.outcome_eq_or with hn | hs
  · rw [StepRun.andThen_of_next hn]
    rw [hn] at hf
    by_cases hm : ∃ route ∈ routes,
        route.matcher.Serves (shared.runSteps cx).context.request.method
    · obtain ⟨later, hf', he'⟩ := (shared.records_runHooks (shared.runSteps cx).context).andThen
        (fun _ => records_routes routes _ _) (apart_hookTasks shared _)
      rw [Shared.serve_of_served hm]
      refine ⟨earlier ++ later, .served hf hm hf', ?_⟩
      rw [StepRun.after, List.flatMap_append, he, he']
    · have hno : ∀ route ∈ routes,
          ¬ route.matcher.Serves (shared.runSteps cx).context.request.method :=
        fun route hr hs => hm ⟨route, hr, hs⟩
      rw [Shared.serve_of_unserved hno]
      refine ⟨earlier, .unserved hf hno, ?_⟩
      rw [StepRun.after, he]
      exact List.append_nil _
  · rw [StepRun.andThen_of_stops hs]
    exact ⟨earlier, .stopped hf hs, he⟩

namespace FollowsTable

variable {shared : Shared} {routes : List Route} {cx final final' : Context}
  {calls calls' : List Call} {outcome outcome' : Except StepError Flow}

theorem unique (h : FollowsTable shared routes cx calls final outcome)
    (h' : FollowsTable shared routes cx calls' final' outcome') :
    calls = calls' ∧ final = final' ∧ outcome = outcome' := by
  -- How the router-level steps end, and the method that they leave, tell the three cases apart.
  cases h with
  | stopped h hs =>
    cases h' with
    | stopped h' => exact h.unique h'
    | unserved h' | served h' =>
      obtain ⟨-, -, rfl⟩ := h.unique h'
      exact absurd hs not_stops_next
  | unserved h hm =>
    cases h' with
    | stopped h' hs =>
      obtain ⟨-, -, rfl⟩ := h.unique h'
      exact absurd hs not_stops_next
    | unserved h' => exact h.unique h'
    | served h' hm' =>
      obtain ⟨-, rfl, -⟩ := h.unique h'
      obtain ⟨route, hr, hs⟩ := hm'
      exact absurd hs (hm route hr)
  | served h hm hf =>
    cases h' with
    | stopped h' hs =>
      obtain ⟨-, -, rfl⟩ := h.unique h'
      exact absurd hs not_stops_next
    | unserved h' hm' =>
      obtain ⟨-, rfl, -⟩ := h.unique h'
      obtain ⟨route, hr, hs⟩ := hm
      exact absurd hs (hm' route hr)
    | served h' hm' hf' =>
      obtain ⟨rfl, rfl, -⟩ := h.unique h'
      obtain ⟨rfl, hend⟩ := hf.unique hf'
      exact ⟨rfl, hend⟩

theorem chained (h : FollowsTable shared routes cx calls final outcome) :
    Chained cx calls final := by
  cases h with
  | stopped h | unserved h => exact h.chained
  | served h _ h' => exact h.chained.append h'.chained

theorem endsAtFirstStop (h : FollowsTable shared routes cx calls final outcome) :
    EndsAtFirstStop calls outcome := by
  cases h with
  | stopped h | unserved h => exact h.endsAtFirstStop
  | served h _ h' => exact h.endsAtFirstStop.append h'.endsAtFirstStop

theorem called (h : FollowsTable shared routes cx calls final outcome) :
    ∃ method, ∀ c ∈ calls,
      ∃ task ∈ shared.stepTasks ++ (shared.hookTasks ++ routeTasks routes method),
        task.site = c.site ∧ task.call? c.before = some c.run := by
  cases h with
  | stopped h | unserved h =>
    refine ⟨cx.request.method, fun c hc => ?_⟩
    obtain ⟨task, ht, hcall⟩ := h.called c hc
    exact ⟨task, List.mem_append_left _ ht, hcall⟩
  | @served _ _ middle _ _ h _ h' =>
    refine ⟨middle.request.method, fun c hc => ?_⟩
    rcases List.mem_append.1 hc with hc | hc
    · obtain ⟨task, ht, hcall⟩ := h.called c hc
      exact ⟨task, List.mem_append_left _ ht, hcall⟩
    · obtain ⟨task, ht, hcall⟩ := h'.called c hc
      exact ⟨task, List.mem_append_right _ ht, hcall⟩

theorem sites_sublist (h : FollowsTable shared routes cx calls final outcome) :
    ∃ method, (calls.map (·.site)).Sublist
      ((shared.stepTasks ++ (shared.hookTasks ++ routeTasks routes method)).map (·.site)) := by
  cases h with
  | stopped h | unserved h =>
    refine ⟨cx.request.method, ?_⟩
    rw [List.map_append]
    exact h.sites_sublist.trans (List.sublist_append_left _ _)
  | @served _ _ middle _ _ h _ h' =>
    refine ⟨middle.request.method, ?_⟩
    rw [List.map_append, List.map_append]
    exact h.sites_sublist.append h'.sites_sublist

theorem nodup_sites (h : FollowsTable shared routes cx calls final outcome) :
    (calls.map (·.site)).Nodup := by
  obtain ⟨method, hsub⟩ := h.sites_sublist
  exact hsub.nodup (nodup_tableSites shared routes method)

end FollowsTable

/--
The run of a path table follows its flow table: its calls are those of the table and no others.
Each step is called at most once, each call sees what the one before it left, and the first one that
stops is the last.
-/
theorem runTable_followsTable (shared : Shared) (routes : List Route) (cx : Context) :
    ∃ calls, FollowsTable shared routes cx calls (runTable shared routes cx).context
        (runTable shared routes cx).outcome ∧
      (runTable shared routes cx).events = calls.flatMap (·.run.events) ∧
      (∀ calls' final outcome, FollowsTable shared routes cx calls' final outcome →
        calls' = calls) ∧
      (calls.map (·.site)).Nodup ∧
      Chained cx calls (runTable shared routes cx).context ∧
      EndsAtFirstStop calls (runTable shared routes cx).outcome := by
  obtain ⟨calls, hf, he⟩ := runTable_records shared routes cx
  exact ⟨calls, hf, he, fun _ _ _ hf' => (hf'.unique hf).1, hf.nodup_sites, hf.chained,
    hf.endsAtFirstStop⟩

end QueryRouting
