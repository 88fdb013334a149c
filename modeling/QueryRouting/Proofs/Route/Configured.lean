import QueryRouting.Proofs.Route.Encoding
import QueryRouting.Proofs.Route.FallThrough

namespace QueryRouting

open Pattern (WrittenAs)

namespace StepRun

variable {run run' : StepRun}

theorem Alike.after (h : run.Alike run') {earlier earlier' : List Event}
    (he : earlier.Perm earlier') : (run.after earlier).Alike (run'.after earlier') :=
  ⟨h.context, h.outcome, he.append h.events⟩

theorem Alike.andThen (h : run.Alike run') {next next' : Step}
    (hn : run.outcome = .ok .next → (next run.context).Alike (next' run.context)) :
    (run.andThen Flow.isNext next).Alike (run'.andThen Flow.isNext next') := by
  have ho := h.outcome
  rcases stops_or run.outcome with hnext | hskip | hstop
  · rw [andThen_of_next hnext, andThen_of_next (ho.symm.trans hnext), ← h.context]
    exact (hn hnext).after h.events
  · rwa [andThen_of_skip hskip, andThen_of_skip (ho.symm.trans hskip)]
  · rw [andThen_of_stops hstop, andThen_of_stops (ho ▸ hstop)]
    exact h

theorem Alike.unskipped (h : run.Alike run') : run.unskipped.Alike run'.unskipped := by
  have ho := h.outcome
  rcases stops_or run.outcome with hnext | hskip | hstop
  · rwa [unskipped_of_next hnext, unskipped_of_next (ho.symm.trans hnext)]
  · rw [unskipped_of_skip hskip, unskipped_of_skip (ho.symm.trans hskip)]
    exact ⟨h.context, rfl, h.events⟩
  · rw [unskipped_of_stops hstop, unskipped_of_stops (ho ▸ hstop)]
    exact h

end StepRun

section Table

variable {executor : Executor} {arguments : List Argument} {steps steps' : List Step}
  {shared : Shared} {before after : List Route} {route route' : Route} {cx : Context}

/-- Steps in their places go alike one after the other if they do where they are called. -/
theorem Argument.Alike.chain (h : Argument.Alike executor arguments steps steps')
    (site : Nat → Site) {calls : List Call} {final : Context} {outcome : Except StepError Flow}
    (hf : Follows (steps.mapIdx fun j step => .ofStep (site j) step) cx calls final outcome)
    (hone : ∀ c ∈ calls, ∀ j argument, c.site = site j → arguments[j]? = some argument →
      argument.AtMostOneFails executor c.before) :
    (Step.chain Flow.isNext steps cx).Alike (Step.chain Flow.isNext steps' cx) := by
  induction h generalizing site cx calls with
  | nil => exact .refl _
  | @cons argument arguments step step' steps steps' h _ ih =>
    rw [List.mapIdx_cons] at hf
    obtain ⟨later, rfl, hnext⟩ := hf.of_step
    rw [Step.chain_cons, Step.chain_cons]
    apply (h cx (hone _ List.mem_cons_self 0 argument rfl rfl)).andThen
    intro hn
    apply ih (fun j => site (j + 1)) (hnext hn)
    intro c hc j
    exact hone c (List.mem_cons_of_mem _ hc) (j + 1)

/-- Whenever a query map of the route at this place is called, at most one of its queries fails. -/
def OneFailsIn (executor : Executor) (arguments : List Argument) (r : Nat) (calls : List Call) :
    Prop :=
  ∀ c ∈ calls, ∀ j argument, c.site = .route r (j + 1) → arguments[j]? = some argument →
    argument.AtMostOneFails executor c.before

theorem Route.run_alike {r : Nat} {calls : List Call} {final : Context}
    {outcome : Except StepError Flow}
    (h : Argument.Alike executor arguments route.steps route'.steps)
    (hf : Follows (route.tasks r) cx calls final outcome)
    (hone : OneFailsIn executor arguments r calls) : (route.run cx).Alike (route'.run cx) := by
  -- The mark is the step of an argument that runs no query.
  have hmark : Argument.Alike executor (.raw Step.mark :: arguments) (Step.mark :: route.steps)
      (Step.mark :: route'.steps) := .cons (fun _ _ => .refl _) h
  apply StepRun.Alike.unskipped
  apply hmark.chain (Site.route r) hf
  intro c hc j argument hs ha
  cases j with
  | zero =>
    cases ha
    nofun
  | succ j => exact hone c hc j argument hs ha

theorem runTable_alike (hm : route'.matcher = route.matcher)
    (h : Argument.Alike executor arguments route.steps route'.steps)
    (hone : ∀ calls final outcome,
      FollowsTable shared (before ++ route :: after) cx calls final outcome →
        OneFailsIn executor arguments before.length calls) :
    (runTable shared (before ++ route :: after) cx).Alike
      (runTable shared (before ++ route' :: after) cx) := by
  apply runTable_related StepRun.Alike.refl
  · exact fun run _ _ => (StepRun.Alike.refl run).andThen
  · exact hm
  · exact fun _ _ => rfl
  · rintro method start calls final outcome hserves hf ⟨earlier, htable⟩
    rw [tasksFrom_cons_of_serves hserves] at hf
    obtain ⟨front, later, middle, ending, rfl, hfront⟩ :=
      hf.exists_front (route.apart_tasksFrom before.length after method)
    have hcalls : OneFailsIn executor arguments before.length front :=
      fun c hc => hone _ _ _ htable c (List.mem_append_right _ (List.mem_append_left _ hc))
    rw [Step.chain_cons, Step.chain_cons]
    exact (Route.run_alike h hfront hcalls).andThen fun _ => .refl _

end Table

/-- Answers that an observer tells apart by the order of events at most. -/
structure Exchange.Alike (answer answer' : Exchange) : Prop where
  response : answer.response = answer'.response
  departure : answer.departure = answer'.departure
  events : answer.events.Perm answer'.events

namespace Router

variable {router : Router} {executor : Executor} {arguments : List Argument} {path : String}
  {before later : List Binding} {bound bound' : Binding}

theorem serve_alike {paths : List RegisteredPath} {fresh : String} {request : Request}
    (hb : (handled { router with paths } fresh request).1 = (router.handled fresh request).1)
    (hr : (router.handled fresh request).2.Alike (handled { router with paths } fresh request).2) :
    (router.serve fresh request).Alike (serve { router with paths } fresh request) := by
  have hfinal : router.collaborators.finalize
        { request with body := [.chunk (router.handled fresh request).1] }
        (router.handled fresh request).2 =
      router.collaborators.finalize
        { request with body := [.chunk (handled { router with paths } fresh request).1] }
        (handled { router with paths } fresh request).2 := by
    simp only [Collaborators.finalize, hb, hr.outcome, hr.context]
  rw [serve, serve, dispatch_eq, dispatch_eq]
  refine ⟨?_, ?_, hr.events⟩
  · simp only [hfinal]
  · simp only [hfinal]

/--
In the run of a request for the path, at most one query fails in each query map of the route at this
place of its table.
-/
def OneFails (router : Router) (executor : Executor) (arguments : List Argument) (path : String)
    (r : Nat) (fresh : String) (request : Request) : Prop :=
  ∀ m cx calls, router.Runs fresh request m cx calls → WrittenAs path m.entry.pattern →
    OneFailsIn executor arguments r calls

theorem oneFails_of_forall (h : ∀ argument ∈ arguments, ∀ cx, argument.AtMostOneFails executor cx)
    (path : String) (r : Nat) (fresh : String) (request : Request) :
    router.OneFails executor arguments path r fresh request :=
  fun _ _ _ _ _ c _ _ argument _ ha => h argument (List.mem_of_getElem? ha) c.before

theorem ofBuilder?_alike (hpath : bound.path = path) (hpath' : bound'.path = path)
    (hm : bound'.route.matcher = bound.route.matcher)
    (h : Argument.Alike executor arguments bound.route.steps bound'.route.steps) (rest : Builder) :
    Option.Rel
      (fun router router' => ∀ fresh request, router.OneFails executor arguments path
          (routesOf before path).length fresh request →
        (router.serve fresh request).Alike (router'.serve fresh request))
      (ofBuilder? { rest with bindings := before ++ bound :: later })
      (ofBuilder? { rest with bindings := before ++ bound' :: later }) := by
  have hd : distinct ((before ++ bound :: later).map (·.path)) =
      distinct ((before ++ bound' :: later).map (·.path)) := by
    simp only [List.map_append, List.map_cons, hpath, hpath']
  cases hr : ofBuilder? { rest with bindings := before ++ bound :: later } with
  | none =>
    cases hr' : ofBuilder? { rest with bindings := before ++ bound' :: later } with
    | none => exact .none
    | some router' =>
      obtain ⟨paths, hs, -⟩ := ofBuilder?_rerouted hd.symm hr'
      cases hr.symm.trans hs
  | some router =>
    obtain ⟨paths, hr', ha⟩ := ofBuilder?_rerouted hd hr
    rw [hr']
    refine .some fun fresh request hone => ?_
    have hother (other : String) (hn : path ≠ other) :
        routesOf (before ++ bound' :: later) other = routesOf (before ++ bound :: later) other := by
      rw [routesOf_insert_of_ne (by rwa [hpath']), routesOf_insert_of_ne (by rwa [hpath])]
    obtain ⟨hbytes, hrun⟩ := handled_rerouted (R := fun run' run => run.Alike run')
      StepRun.Alike.refl ha hother fun m cx hw hruns => by
        rw [routesOf_insert_self hpath] at hruns
        rw [routesOf_insert_self hpath, routesOf_insert_self hpath']
        exact runTable_alike hm h fun calls final outcome hf =>
          hone m cx calls (hruns _ _ _ hf) hw
    exact serve_alike hbytes hrun

/--
Arguments bound in code, and what configuration writes for them under the same name and path: both
are refused for the same reason, or both are bound, and then the routers with either of them answer
each request alike, whatever else is declared, unless two queries of one map fail. The executors may
differ in the time that queries take. Reading what is written gives the arguments back, up to the
order of the keys of a query map.
-/
theorem serve_of_encoded (b : Builder) (path : String) {verb : Verb} {name : String}
    {steps : List Json} (hx : b.executor.Agrees executor) (hname : verb.Named name)
    (hsteps : arguments.mapM Argument.toJson? = some steps) :
    (∃ read, Argument.classifyAll steps = .ok read ∧
      List.Forall₂ Argument.Reordered arguments read) ∧
    ((∃ e, b.bind verb.matcher path arguments = .error e ∧
        Builder.bindRoutes { b with executor } [⟨name, path, steps⟩] =
          ({ b with executor }, .error e)) ∨
      ∃ coded configured, b.bind verb.matcher path arguments = .ok coded ∧
        Builder.bindRoutes { b with executor } [⟨name, path, steps⟩] = (configured, .ok ()) ∧
        ∀ (rest : Builder) (later : List Binding),
          Option.Rel
            (fun router router' => ∀ fresh request, router.OneFails b.executor arguments path
                (routesOf b.bindings path).length fresh request →
              (router.serve fresh request).Alike (router'.serve fresh request))
            (ofBuilder? { rest with bindings := coded.bindings ++ later })
            (ofBuilder? { rest with bindings := configured.bindings ++ later })) := by
  obtain ⟨read, hread, ho⟩ := Argument.classifyAll_of_toJson? hsteps
  refine ⟨⟨read, hread, ho⟩, ?_⟩
  have hfailure : Traversal.failure? (Builder.binding b.executor verb.matcher path arguments) =
      Traversal.failure? (Builder.binding executor verb.matcher path read) := by
    rw [Builder.failure?_binding, Builder.failure?_binding, Argument.filterMap_refusal? ho]
  have hconfigured : Builder.configuredBinding executor ⟨name, path, steps⟩ =
      Builder.binding executor verb.matcher path read := by
    simp only [Builder.configuredBinding, hname.parse, hread]
    rfl
  cases hb : Builder.binding b.executor verb.matcher path arguments with
  | error e =>
    rw [hb, eq_comm, Traversal.failure?, Traversal.failure?_eq_some_iff, ← hconfigured] at hfailure
    exact .inl ⟨e, by rw [Builder.bind, hb, Except.map],
      Builder.bindRoutes_cons_of_error hfailure⟩
  | ok bound =>
    rw [hb, eq_comm, Traversal.failure?, Traversal.failure?_eq_none_iff] at hfailure
    obtain ⟨bound', hb'⟩ := hfailure
    obtain ⟨-, codedSteps, hc, rfl⟩ := Builder.binding_eq_ok_iff.1 hb
    obtain ⟨-, configuredSteps, hc', rfl⟩ := Builder.binding_eq_ok_iff.1 hb'
    rw [Argument.compileAll_eq_mapM, Traversal.mapM_eq_ok_iff_forall₂] at hc hc'
    refine .inr ⟨_, _, by rw [Builder.bind, hb, Except.map],
      Builder.bindRoutes_cons_of_ok (hconfigured.trans hb'), ?_⟩
    intro rest later
    simp only [Builder.push, List.append_assoc, List.cons_append, List.nil_append]
    refine ofBuilder?_alike ?_ ?_ ?_ ?_ rest
    · rfl
    · rfl
    · rfl
    · exact Argument.alike_of_reordered ho hx hc hc'

/-- Answers every query with its text, and takes so many turns for it. -/
def echoing (delay : Nat) : Executor :=
  .custom fun query => ⟨.ok (.str query.text), delay, []⟩

theorem atMostOneFails_echoing (delay : Nat) {argument : Argument}
    (h : ∀ queries, argument = .queryMap queries →
      ∀ q ∈ queries, (Template.ofString q.2).references = []) (cx : Context) :
    argument.AtMostOneFails (echoing delay) cx := by
  rintro queries rfl q hq q' - hf
  cases hf with
  | template he =>
    have hm := (QueryMap.lastOfEachKey_sublist queries).subset hq
    obtain ⟨d, hd⟩ : ∃ d, (Template.ofString q.2).describe cx.lookup = .ok d := by
      rw [Template.describe_isOk_iff, h queries rfl q hm]
      nofun
    cases he.symm.trans hd
  | execution _ _ he => cases he

theorem exists_router_push (executor : Executor) (hpath : bound.path = "/") :
    ∃ router, ofBuilder? ((Builder.new executor).push bound) = some router := by
  have hb : ((Builder.new executor).push bound).bindings = [bound] := rfl
  rw [ofBuilder?_isSome_iff, hb]
  constructor
  · rw [List.forall_mem_singleton, hpath]
    decide +kernel
  · intro x hx y hy hne
    rw [List.mem_singleton.1 hx, List.mem_singleton.1 hy] at hne
    exact absurd rfl hne

/-- A query map whose keys are not in order, and one of them there twice. -/
def unordered : List Argument :=
  [.queryMap [("b", "x"), ("b", "z"), ("a", "y")], .status 201]

theorem serve_of_encoded_unordered : ∃ coded configured router router',
    Builder.bind (.new (echoing 0)) Verb.get.matcher "/" unordered = .ok coded ∧
    Builder.bindRoutes (.new (echoing 3))
        [⟨" get", "/", [.obj [("a", .str "y"), ("b", .str "z")], .int 201]⟩] =
      (configured, .ok ()) ∧
    ofBuilder? coded = some router ∧ ofBuilder? configured = some router' ∧
    ∀ fresh request, (router.serve fresh request).Alike (router'.serve fresh request) := by
  have hx : (Builder.new (echoing 0)).executor.Agrees (echoing 3) :=
    ⟨rfl, fun _ => rfl, fun _ => rfl⟩
  have hname : Verb.get.Named " get" := by
    unfold Verb.Named
    decide
  have hsteps : unordered.mapM Argument.toJson? =
      some [.obj [("a", .str "y"), ("b", .str "z")], .int 201] := rfl
  have hone : ∀ argument ∈ unordered, ∀ cx, argument.AtMostOneFails (echoing 0) cx := by
    intro argument hm
    apply atMostOneFails_echoing
    rintro queries rfl
    rcases List.mem_cons.1 hm with he | hm
    · cases he
      decide +kernel
    · cases List.mem_singleton.1 hm
  have hrooted : checkPath "/" = .ok () := checkPath_eq_ok_iff.2 (by decide +kernel)
  obtain ⟨bound, hbound, hpath⟩ : ∃ bound,
      Builder.binding (echoing 0) Verb.get.matcher "/" unordered = .ok bound ∧ bound.path = "/" :=
    ⟨_, Builder.binding_eq_ok_iff.2 ⟨hrooted, _, rfl, rfl⟩, rfl⟩
  obtain ⟨bound', hbound', hpath'⟩ : ∃ bound, Builder.configuredBinding (echoing 3)
      ⟨" get", "/", [.obj [("a", .str "y"), ("b", .str "z")], .int 201]⟩ = .ok bound ∧
        bound.path = "/" :=
    ⟨_, Builder.configuredBinding_eq_ok_iff.2
      ⟨_, _, hname.parse, rfl, Builder.binding_eq_ok_iff.2 ⟨hrooted, _, rfl, rfl⟩⟩, rfl⟩
  obtain ⟨router, hrouter⟩ := exists_router_push (echoing 0) hpath
  obtain ⟨router', hrouter'⟩ := exists_router_push (echoing 3) hpath'
  obtain ⟨-, ⟨e, he, -⟩ | ⟨coded, configured, hcoded, hconfigured, hrel⟩⟩ :=
    serve_of_encoded _ "/" hx hname hsteps
  · cases he.symm.trans (Traversal.map_eq_ok_iff.2 ⟨_, hbound, rfl⟩)
  · cases hcoded.symm.trans (Traversal.map_eq_ok_iff.2 ⟨_, hbound, rfl⟩)
    cases hconfigured.symm.trans (Builder.bindRoutes_cons_of_ok hbound')
    have hboth : Option.Rel _ (ofBuilder? ((Builder.new (echoing 0)).push bound))
        (ofBuilder? ((Builder.new (echoing 3)).push bound')) := hrel (.new (echoing 0)) []
    rw [hrouter, hrouter'] at hboth
    cases hboth with
    | some h =>
      exact ⟨_, _, router, router', hcoded, hconfigured, hrouter, hrouter', fun fresh request =>
        h fresh request (oneFails_of_forall hone _ _ _ _)⟩

end Router

end QueryRouting
