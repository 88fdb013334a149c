import QueryRouting.Proofs.Route.Binding

namespace QueryRouting

open Traversal

namespace Argument

/-- Why an argument has no step. -/
def refusal? : Argument → Option BindError
  | .status code => if Status.IsCode code then none else some (.invalidStatus code)
  | _ => none

theorem failure?_compile (executor : Executor) (argument : Argument) :
    failure? (argument.compile executor) = argument.refusal? := by
  apply Option.ext
  intro e
  rw [failure?_eq_some_iff, compile_eq_error_iff]
  cases argument with
  | clear | map _ | query _ | queryMap _ | raw _ => simp [refusal?]
  | status code => simp [refusal?, eq_comm]

theorem failure?_compileAll (executor : Executor) (arguments : List Argument) :
    failure? (compileAll executor arguments) = (arguments.filterMap refusal?).head? := by
  rw [compileAll_eq_mapM, failure?_mapM]
  simp only [failure?_compile]

end Argument

namespace RouteConfig

/-- The problem of a step that is read as a status but has no status code. -/
def statusProblem? : Json → Option BindError
  | .int n =>
    if 0 ≤ n ∧ n < 65536 ∧ ¬ (100 ≤ n ∧ n ≤ 999) then some (.invalidStatus (UInt16.ofNat n.toNat))
    else none
  | _ => none

/-- The problems of a route, in the order in which they count. -/
def problems (route : RouteConfig) : List BindError :=
  (failure? (MethodMatcher.parse route.method)).toList ++
    (route.steps.filterMap fun v => failure? (Argument.classify v)) ++
    (failure? (checkPath route.path)).toList ++
    route.steps.filterMap statusProblem?

/-- Whatever a step is read as, it is refused as the argument that it is read as. -/
theorem statusProblem?_of_classify {v : Json} {argument : Argument}
    (h : Argument.classify v = .ok argument) : statusProblem? v = argument.refusal? := by
  cases v with
  | null | str _ =>
    obtain rfl := Except.ok.inj h
    rfl
  | bool _ | arr _ | double _ => cases h
  | obj fields =>
    rw [Argument.classify] at h
    split at h
    · obtain rfl := Except.ok.inj h
      rfl
    · cases h
  | int n =>
    rw [Argument.classify] at h
    split at h
    · rename_i hn
      obtain rfl := Except.ok.inj h
      have hs : (UInt16.ofNat n.toNat).toNat = n.toNat := UInt16.toNat_ofNat_of_lt' (by
        have hw : Word.size 16 = UInt16.size := by decide
        omega)
      have hsize : Word.size 16 = 65536 := by decide
      have hcode : Status.IsCode (UInt16.ofNat n.toNat) ↔ 100 ≤ n ∧ n ≤ 999 := by
        rw [Status.IsCode, hs]
        omega
      simp only [statusProblem?, Argument.refusal?, hcode]
      by_cases hc : 100 ≤ n ∧ n ≤ 999
      · rw [if_pos hc, if_neg fun hno => hno.2.2 hc]
      · rw [if_neg hc, if_pos ⟨hn.1, by omega, hc⟩]
    · cases h

theorem statusProblems_of_classifyAll {steps : List Json} {arguments : List Argument}
    (h : Argument.classifyAll steps = .ok arguments) :
    steps.filterMap statusProblem? = arguments.filterMap Argument.refusal? := by
  rw [Argument.classifyAll_eq_mapM] at h
  have hm := map_eq_map_of_mapM (fun _ _ => statusProblem?_of_classify) h
  have hid := congrArg (List.filterMap id) hm
  rwa [List.filterMap_map, List.filterMap_map] at hid

end RouteConfig

namespace Builder

theorem failure?_binding (executor : Executor) (matcher : MethodMatcher) (path : String)
    (arguments : List Argument) :
    failure? (binding executor matcher path arguments) =
      ((failure? (checkPath path)).toList ++ arguments.filterMap Argument.refusal?).head? := by
  have hbind (steps : Except BindError (List Step)) :
      failure? (steps >>= fun steps => pure (⟨path, matcher, steps⟩ : Binding)) =
        failure? steps := failure?_bind_pure _ _
  rw [binding, List.head?_append, Option.head?_toList, ← Argument.failure?_compileAll executor]
  cases checkPath path with
  | error e => rfl
  | ok _ => exact hbind _

/-- A route fails with the first of its problems, and it is bound if it has none. -/
theorem failure?_configuredBinding (executor : Executor) (route : RouteConfig) :
    failure? (configuredBinding executor route) = route.problems.head? := by
  have hsteps : failure? (Argument.classifyAll route.steps) =
      (route.steps.filterMap fun v => failure? (Argument.classify v)).head? := by
    rw [Argument.classifyAll_eq_mapM, failure?_mapM]
  rw [configuredBinding, RouteConfig.problems, List.append_assoc, List.append_assoc,
    List.head?_append, Option.head?_toList, List.head?_append, ← hsteps]
  cases MethodMatcher.parse route.method with
  | error e => rfl
  | ok matcher =>
    cases ha : Argument.classifyAll route.steps with
    | error e => rfl
    | ok arguments =>
      rw [RouteConfig.statusProblems_of_classifyAll ha]
      exact failure?_binding executor matcher route.path arguments

/-- What a route is bound as: its path and method, and the step of each argument it is read as. -/
structure BoundAs (executor : Executor) (route : RouteConfig) (bound : Binding) : Prop where
  path : bound.path = route.path
  method : MethodMatcher.parse route.method = .ok bound.route.matcher
  steps : ∃ arguments, List.Forall₂ (fun v a => Argument.classify v = .ok a) route.steps arguments ∧
    List.Forall₂ (fun a step => a.compile executor = .ok step) arguments bound.route.steps

theorem boundAs_of_configuredBinding {executor : Executor} {route : RouteConfig} {bound : Binding}
    (h : configuredBinding executor route = .ok bound) : BoundAs executor route bound := by
  obtain ⟨matcher, arguments, hm, ha, hb⟩ := configuredBinding_eq_ok_iff.1 h
  obtain ⟨-, steps, hs, rfl⟩ := binding_eq_ok_iff.1 hb
  rw [Argument.classifyAll_eq_mapM, mapM_eq_ok_iff_forall₂] at ha
  rw [Argument.compileAll_eq_mapM, mapM_eq_ok_iff_forall₂] at hs
  exact ⟨rfl, hm, arguments, ha, hs⟩

/-- The route can be bound where nothing else is. -/
def BindsAlone (executor : Executor) (route : RouteConfig) : Prop :=
  ((new executor).bindRoutes [route]).2 = .ok ()

section Routes

variable {b : Builder} {routes good rest : List RouteConfig} {route : RouteConfig}
  {bound : Binding} {e : BindError}

theorem bindRoutes_cons_of_ok (h : configuredBinding b.executor route = .ok bound) :
    b.bindRoutes (route :: rest) = (b.push bound).bindRoutes rest := by
  rw [bindRoutes, h]

theorem bindRoutes_cons_of_error (h : configuredBinding b.executor route = .error e) :
    b.bindRoutes (route :: rest) = (b, .error e) := by
  rw [bindRoutes, h]

theorem bindsAlone_iff {executor : Executor} :
    BindsAlone executor route ↔ ∃ bound, configuredBinding executor route = .ok bound := by
  rw [BindsAlone, bindRoutes_isOk_iff, List.forall_mem_singleton]
  rfl

theorem bindsAlone_iff_problems {executor : Executor} :
    BindsAlone executor route ↔ route.problems = [] := by
  rw [bindsAlone_iff, ← failure?_eq_none_iff, failure?_configuredBinding, List.head?_eq_none_iff]

/-- Routes that can all be bound are bound in their order, and what follows goes on behind them. -/
theorem bindRoutes_append (h : ∀ r ∈ good, BindsAlone b.executor r) (rest : List RouteConfig) :
    ∃ added, List.Forall₂ (BoundAs b.executor) good added ∧
      b.bindRoutes (good ++ rest) =
        { b with bindings := b.bindings ++ added }.bindRoutes rest := by
  induction good generalizing b with
  | nil => exact ⟨[], .nil, by rw [List.nil_append, List.append_nil]⟩
  | cons route good ih =>
    obtain ⟨bound, hb⟩ := bindsAlone_iff.1 (h route List.mem_cons_self)
    obtain ⟨added, ha, he⟩ :=
      ih (b := b.push bound) fun r hr => h r (List.mem_cons_of_mem _ hr)
    refine ⟨bound :: added, .cons (boundAs_of_configuredBinding hb) ha, ?_⟩
    rw [List.cons_append, bindRoutes_cons_of_ok hb, he, push, List.append_assoc]
    rfl

/-- Binding in place: nothing is bound before the path and all arguments have been accepted. -/
def bindInPlace (b : Builder) (matcher : MethodMatcher) (path : String)
    (arguments : List Argument) : Builder × Except BindError Unit :=
  match checkPath path with
  | .error e => (b, .error e)
  | .ok () =>
    match Argument.compileAll b.executor arguments with
    | .error e => (b, .error e)
    | .ok steps => (b.push ⟨path, matcher, steps⟩, .ok ())

variable {matcher : MethodMatcher} {path : String} {arguments : List Argument}

theorem bindInPlace_of_ok {b' : Builder} (h : b.bind matcher path arguments = .ok b') :
    b.bindInPlace matcher path arguments = (b', .ok ()) := by
  obtain ⟨bound, hb, rfl⟩ := map_eq_ok_iff.1 h
  obtain ⟨hp, steps, hs, rfl⟩ := binding_eq_ok_iff.1 hb
  simp only [bindInPlace, hp, hs]

theorem bindInPlace_of_error (h : b.bind matcher path arguments = .error e) :
    b.bindInPlace matcher path arguments = (b, .error e) := by
  rcases binding_eq_error_iff.1 (map_eq_error_iff.1 h) with hp | ⟨hp, hs⟩
  · simp only [bindInPlace, hp]
  · simp only [bindInPlace, hp, hs]

/-- Binding in place changes the builder as `bind` does, and not at all where `bind` fails. -/
theorem bindInPlace_eq (b : Builder) (matcher : MethodMatcher) (path : String)
    (arguments : List Argument) :
    b.bindInPlace matcher path arguments =
      ((b.bind matcher path arguments).toOption.getD b,
        (b.bind matcher path arguments).map fun _ => ()) := by
  cases h : b.bind matcher path arguments with
  | ok b' => exact bindInPlace_of_ok h
  | error e => exact bindInPlace_of_error h

end Routes

/--
Routes are bound if and only if each can be bound alone, and then each adds one binding, in order.
Otherwise those before the first that cannot be bound stay bound, and the first problem of this one
is the error. Binding in place leaves the builder as it is when it fails.
-/
theorem bindRoutes_prefix (b : Builder) (routes : List RouteConfig) :
    ((b.bindRoutes routes).2 = .ok () ↔ ∀ route ∈ routes, BindsAlone b.executor route) ∧
    ((b.bindRoutes routes).2 = .ok () → ∃ added,
      List.Forall₂ (BoundAs b.executor) routes added ∧
      (b.bindRoutes routes).1 = { b with bindings := b.bindings ++ added }) ∧
    (∀ good route rest, routes = good ++ route :: rest →
      (∀ r ∈ good, BindsAlone b.executor r) → ¬ BindsAlone b.executor route →
      ∃ added e, List.Forall₂ (BoundAs b.executor) good added ∧ route.problems.head? = some e ∧
        b.bindRoutes routes = ({ b with bindings := b.bindings ++ added }, .error e)) ∧
    ∀ matcher path arguments e, (b.bindInPlace matcher path arguments).2 = .error e →
      (b.bindInPlace matcher path arguments).1 = b ∧ b.bind matcher path arguments = .error e := by
  have hall : (b.bindRoutes routes).2 = .ok () ↔ ∀ route ∈ routes, BindsAlone b.executor route := by
    simp only [bindsAlone_iff, bindRoutes_isOk_iff]
  refine ⟨hall, ?_, ?_, ?_⟩
  · intro h
    obtain ⟨added, ha, he⟩ := bindRoutes_append (hall.1 h) []
    rw [List.append_nil] at he
    exact ⟨added, ha, congrArg Prod.fst he⟩
  · rintro good route rest rfl hgood hbad
    obtain ⟨added, ha, he⟩ := bindRoutes_append hgood (route :: rest)
    obtain ⟨e, hp⟩ : ∃ e, route.problems.head? = some e := by
      rw [← Option.isSome_iff_exists, List.isSome_head?]
      simpa using mt bindsAlone_iff_problems.2 hbad
    have hc := failure?_configuredBinding b.executor route
    rw [hp, failure?_eq_some_iff] at hc
    refine ⟨added, e, ha, hp, he.trans ?_⟩
    exact bindRoutes_cons_of_error hc
  · intro matcher path arguments e h
    rw [bindInPlace_eq, map_eq_error_iff] at h
    rw [bindInPlace_of_error h]
    exact ⟨rfl, h⟩

theorem bindRoutes_prefix_unrooted :
    let b := new (.custom fun _ => .ofResult (.ok .null))
    let bound := b.bindRoutes [⟨"get", "/a", [.null]⟩, ⟨"GET", "b", [.int 42]⟩, ⟨"ALL", "/c", []⟩]
    bound.2 = .error (.invalidPath "b" .noLeadingSlash) ∧
      bound.1.bindings.map (·.path) = ["/a"] := by
  intro b bound
  have hgood : RouteConfig.problems ⟨"get", "/a", [.null]⟩ = [] := by decide
  have hbad : RouteConfig.problems ⟨"GET", "b", [.int 42]⟩ =
      [.invalidPath "b" .noLeadingSlash, .invalidStatus 42] := by decide
  obtain ⟨-, -, h, -⟩ := bindRoutes_prefix b
    [⟨"get", "/a", [.null]⟩, ⟨"GET", "b", [.int 42]⟩, ⟨"ALL", "/c", []⟩]
  obtain ⟨added, e, ha, hp, he⟩ := h [⟨"get", "/a", [.null]⟩] _ _ rfl
    (List.forall_mem_singleton.2 (bindsAlone_iff_problems.2 hgood))
    (by rw [bindsAlone_iff_problems, hbad]; exact List.cons_ne_nil _ _)
  obtain rfl : BindError.invalidPath "b" .noLeadingSlash = e := by
    rw [hbad] at hp
    exact Option.some.inj hp
  have hbound : bound = _ := he
  rw [hbound]
  cases ha with
  | cons hb hnil =>
    cases hnil
    exact ⟨rfl, congrArg (fun path => [path]) hb.path⟩

end Builder

end QueryRouting
