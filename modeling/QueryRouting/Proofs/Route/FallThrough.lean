import QueryRouting.Proofs.Route.Answer
import QueryRouting.Proofs.Route.Concatenation
import QueryRouting.Proofs.Route.Registration

namespace QueryRouting

open Pattern (WrittenAs Clash)

theorem Argument.compileAll_append (executor : Executor) (A B : List Argument) :
    compileAll executor (A ++ B) = do
      let steps ← compileAll executor A
      let others ← compileAll executor B
      return steps ++ others := by
  rw [compileAll_eq_mapM, compileAll_eq_mapM, compileAll_eq_mapM, List.mapM_append]

/-- Arguments are bound at once just where they are bound in two parts, or fail alike. -/
theorem Builder.binding_append (executor : Executor) (matcher : MethodMatcher) (path : String)
    (A B : List Argument) :
    binding executor matcher path (A ++ B) = do
      let first ← binding executor matcher path A
      let second ← binding executor matcher path B
      return ⟨path, first.route.join second.route⟩ := by
  rw [binding, binding, binding, Argument.compileAll_append]
  cases checkPath path with
  | error e => rfl
  | ok checked =>
    cases Argument.compileAll executor A with
    | error e => rfl
    | ok steps => cases Argument.compileAll executor B <;> rfl

/-- The same path, registered with the routes of one table and with those of another. -/
def RegisteredPath.Rerouted (routes routes' : String → List Route) (x y : RegisteredPath) : Prop :=
  ∃ path, WrittenAs path x.pattern ∧ x.routes = routes path ∧ y = ⟨x.pattern, routes' path⟩

theorem RegisteredPath.Rerouted.pattern {routes routes' : String → List Route}
    {x y : RegisteredPath} (h : x.Rerouted routes routes' y) : y.pattern = x.pattern := by
  obtain ⟨path, -, -, rfl⟩ := h
  rfl

section Rerouted

variable {routes routes' : String → List Route} {order : List String}
  {entries entries' : List RegisteredPath}

theorem exists_rerouted
    (h : List.Forall₂ (fun path => PathTable.RegisteredAs ⟨path, routes path⟩) order entries) :
    ∃ entries',
      List.Forall₂ (fun path => PathTable.RegisteredAs ⟨path, routes' path⟩) order entries' ∧
        List.Forall₂ (RegisteredPath.Rerouted routes routes') entries entries' := by
  induction h with
  | nil => exact ⟨[], .nil, .nil⟩
  | @cons path x order entries hx _ ih =>
    obtain ⟨entries', hf, ha⟩ := ih
    refine ⟨⟨x.pattern, routes' path⟩ :: entries', .cons ⟨hx.pattern, rfl⟩ hf, .cons ?_ ha⟩
    exact ⟨path, hx.pattern, hx.routes, rfl⟩

theorem map_pattern_rerouted
    (h : List.Forall₂ (RegisteredPath.Rerouted routes routes') entries entries') :
    entries'.map (·.pattern) = entries.map (·.pattern) := by
  induction h with
  | nil => rfl
  | cons hx _ ih => rw [List.map_cons, List.map_cons, ih, hx.pattern]

theorem registerAll_rerouted (routes' : String → List Route)
    (h : registerAll [] (order.map fun path => ⟨path, routes path⟩) = some entries) :
    ∃ entries', registerAll [] (order.map fun path => ⟨path, routes' path⟩) = some entries' ∧
      List.Forall₂ (RegisteredPath.Rerouted routes routes') entries entries' := by
  obtain ⟨entries, rfl, hf, hn, -⟩ := registerAll_eq_some_iff.1 h
  rw [List.forall₂_map_left_iff] at hf
  obtain ⟨entries', hf', ha⟩ := exists_rerouted hf
  rw [← List.pairwise_map (f := fun x : RegisteredPath => x.pattern) (R := fun p q => ¬ Clash p q),
    ← map_pattern_rerouted ha, List.pairwise_map] at hn
  refine ⟨entries', registerAll_eq_some_iff.2 ⟨entries', rfl, ?_, hn, nofun⟩, ha⟩
  rwa [List.forall₂_map_left_iff]

namespace PathMatch

/-- The same match, of a path that is registered with other routes. -/
def Rerouted (routes routes' : String → List Route) (m m' : PathMatch) : Prop :=
  m.entry.Rerouted routes routes' m'.entry ∧ m'.captures = m.captures

theorem Rerouted.params {m m' : PathMatch} (h : m.Rerouted routes routes' m') :
    m'.params = m.params := by
  rw [PathMatch.params, PathMatch.params, h.2]

theorem all_rerouted (h : List.Forall₂ (RegisteredPath.Rerouted routes routes') entries entries')
    (path : List Char) :
    List.Forall₂ (Rerouted routes routes') (all entries path) (all entries' path) := by
  apply List.rel_filterMap _ h
  intro x y hxy
  dsimp only
  rw [hxy.pattern]
  cases x.pattern.capture path with
  | none => exact .none
  | some captures => exact .some ⟨hxy, rfl⟩

theorem best?_rerouted {ms ms' : List PathMatch}
    (h : List.Forall₂ (Rerouted routes routes') ms ms') :
    Option.Rel (Rerouted routes routes') (best? ms) (best? ms') := by
  induction h with
  | nil => exact .none
  | @cons m m' ms ms' hm _ ih =>
    rw [best?, best?]
    generalize best? ms = winner, best? ms' = winner' at ih
    cases ih with
    | none => exact .some hm
    | some hw =>
      simp only [hw.1.pattern, hm.1.pattern]
      split
      · exact .some hw
      · exact .some hm

end PathMatch

end Rerouted

section Split

variable {before middle after : List Binding} {first second joined : Binding} {path : String}

theorem distinct_paths_join (hf : first.path = path) (hs : second.path = path)
    (hj : joined.path = path) :
    distinct ((before ++ first :: (middle ++ second :: after)).map (·.path)) =
      distinct ((before ++ joined :: (middle ++ after)).map (·.path)) := by
  have hm : path ∈ before.map (·.path) ++ path :: middle.map (·.path) :=
    List.mem_append_right _ List.mem_cons_self
  have hd := distinct_append_cons hm (after.map (·.path))
  simp only [List.map_append, List.map_cons, hf, hs, hj]
  simpa only [List.append_assoc, List.cons_append] using hd

theorem routesOf_join_of_ne {other : String} (hf : first.path = path) (hs : second.path = path)
    (hj : joined.path = path) (hn : path ≠ other) :
    routesOf (before ++ joined :: (middle ++ after)) other =
      routesOf (before ++ first :: (middle ++ second :: after)) other := by
  rw [routesOf_insert_of_ne (by rwa [hj]), routesOf_insert_of_ne (by rwa [hf]),
    ← List.append_assoc, ← List.append_assoc, routesOf_insert_of_ne (by rwa [hs])]

theorem routesOf_split (hf : first.path = path) (hs : second.path = path)
    (hm : ∀ x ∈ middle, x.path ≠ path) :
    routesOf (before ++ first :: (middle ++ second :: after)) path =
      routesOf before path ++ first.route :: second.route :: routesOf after path := by
  rw [routesOf_insert_self hf, routesOf_insert_self hs, routesOf_eq_nil hm, List.nil_append]

theorem routesOf_joined (hj : joined.path = path) (hm : ∀ x ∈ middle, x.path ≠ path) :
    routesOf (before ++ joined :: (middle ++ after)) path =
      routesOf before path ++ joined.route :: routesOf after path := by
  rw [routesOf_insert_self hj, routesOf_append, routesOf_eq_nil hm, List.nil_append]

end Split

namespace Router

variable {router : Router} {paths : List RegisteredPath} {fresh : String} {request : Request}

/-- Requests whose runs are related are handled alike, and so are those without a run. -/
theorem handled_congr {R : StepRun → StepRun → Prop} (hR : ∀ run, R run run)
    (hstart : start { router with paths } fresh request = router.start fresh request)
    (hrun : ∀ bytes body, Body.read router.bodyLimit request.body = .ok bytes →
      Body.parse request.headers bytes = .ok body →
        R (runTable router.shared (routesFor { router with paths } request)
            ((router.start fresh request).setBody body))
          (runTable router.shared (router.routesFor request)
            ((router.start fresh request).setBody body))) :
    (handled { router with paths } fresh request).1 = (router.handled fresh request).1 ∧
      R (handled { router with paths } fresh request).2 (router.handled fresh request).2 := by
  rw [handled, handled, hstart, runWithBody, runWithBody]
  cases hread : Body.read router.bodyLimit request.body with
  | error e => exact ⟨rfl, hR _⟩
  | ok bytes =>
    cases hparse : Body.parse request.headers bytes with
    | error e =>
      simp only [hparse, true_and]
      exact hR _
    | ok body =>
      simp only [hparse, true_and]
      exact hrun bytes body hread hparse

theorem serve_of_handled
    (h : handled { router with paths } fresh request = router.handled fresh request) :
    serve { router with paths } fresh request = router.serve fresh request := by
  rw [serve, serve, dispatch_eq, dispatch_eq, h]

/-- In the run of a request for the path, the route at this place of its table hands over. -/
def HandsOver (router : Router) (path : String) (r : Nat) (fresh : String) (request : Request) :
    Prop :=
  ∀ m cx calls, router.Runs fresh request m cx calls → WrittenAs path m.entry.pattern →
    QueryRouting.HandsOver r calls

/-- Other routes for one path change nothing but the runs of requests for it. -/
theorem handled_rerouted {R : StepRun → StepRun → Prop} (hR : ∀ run, R run run)
    {routes routes' : String → List Route} {path : String}
    (ha : List.Forall₂ (RegisteredPath.Rerouted routes routes') router.paths paths)
    (hother : ∀ other, path ≠ other → routes' other = routes other)
    (hrun : ∀ m cx, WrittenAs path m.entry.pattern →
      (∀ calls final outcome, FollowsTable router.shared (routes path) cx calls final outcome →
        router.Runs fresh request m cx calls) →
      R (runTable router.shared (routes' path) cx) (runTable router.shared (routes path) cx)) :
    (handled { router with paths } fresh request).1 = (router.handled fresh request).1 ∧
      R (handled { router with paths } fresh request).2 (router.handled fresh request).2 := by
  have hb := PathMatch.best?_rerouted (PathMatch.all_rerouted ha request.target.path.toList)
  generalize hbest : PathMatch.best? (PathMatch.all router.paths request.target.path.toList) = m,
    hbest' : PathMatch.best? (PathMatch.all paths request.target.path.toList) = m' at hb
  cases hb with
  | none =>
    apply handled_congr hR
    · rw [start, start, hbest, hbest']
    · intro bytes body _ _
      rw [routesFor, routesFor, hbest, hbest']
      exact hR _
  | @some m m' hm' =>
    obtain ⟨written, hw, hr, he⟩ := hm'.1
    have hstart : start { router with paths } fresh request = router.start fresh request := by
      rw [start, start, hbest, hbest', Option.map_some, Option.map_some, hm'.params]
    have hroutes : router.routesFor request = routes written := by
      rw [routesFor, hbest]
      exact hr
    have hroutes' : routesFor { router with paths } request = routes' written := by
      rw [routesFor, hbest', Option.map_some, he]
      rfl
    apply handled_congr hR hstart
    intro bytes body hread hparse
    rw [hroutes, hroutes']
    by_cases hp : path = written
    · subst hp
      apply hrun m _ hw
      intro calls final outcome hf
      have hcx : (router.start fresh request).setBody body =
          (Context.ofRequest request m.params fresh).setBody body := by
        rw [start, hbest]
        rfl
      rw [← hr] at hf
      exact ⟨hbest, ⟨bytes, body, hread, hparse, hcx⟩, final, outcome, hf⟩
    · rw [hother written hp]
      exact hR _

theorem handled_join {routes routes' : String → List Route} {path : String}
    {before after : List Route} {first second : Route}
    (ha : List.Forall₂ (RegisteredPath.Rerouted routes routes') router.paths paths)
    (hsplit : routes path = before ++ first :: second :: after)
    (hjoined : routes' path = before ++ first.join second :: after)
    (hother : ∀ other, path ≠ other → routes' other = routes other)
    (hm : second.matcher = first.matcher)
    (hs : router.HandsOver path before.length fresh request) :
    handled { router with paths } fresh request = router.handled fresh request := by
  have hboth := handled_rerouted (fun run => Eq.refl run) ha hother
    (fun m cx hw hruns => by
      rw [hsplit] at hruns
      rw [hsplit, hjoined]
      exact runTable_join hm fun calls final outcome hf => hs m cx calls (hruns _ _ _ hf) hw)
  exact Prod.ext hboth.1 hboth.2

theorem routes_of_writtenAs {b : Builder} (h : ofBuilder? b = some router) {x : Binding}
    (hx : x ∈ b.bindings) {entry : RegisteredPath} (he : entry ∈ router.paths)
    (hw : WrittenAs x.path entry.pattern) : entry.routes = routesOf b.bindings x.path := by
  obtain ⟨-, hapart⟩ := ofBuilder?_isSome_iff.1 ⟨router, h⟩
  obtain ⟨paths, hr, rfl⟩ := ofBuilder?_eq_some_iff.1 h
  obtain ⟨entries, rfl, hf, -⟩ := registerAll_eq_some_iff.1 hr
  obtain ⟨table, ht, hpattern, hroutes⟩ := Traversal.exists_of_forall₂ hf.flip he
  rw [groupByPath_eq] at ht
  obtain ⟨path, hp, rfl⟩ := List.mem_map.1 ht
  obtain ⟨y, hy, rfl⟩ := List.mem_map.1 (mem_distinct.1 hp)
  rw [hroutes]
  by_cases hxy : x.path = y.path
  · rw [hxy]
  · exact absurd (.refl _) (hapart x hx y hy hxy _ _ hw hpattern)

theorem ofBuilder?_rerouted {b : Builder} {bindings bindings' : List Binding}
    (hd : distinct (bindings.map (·.path)) = distinct (bindings'.map (·.path)))
    (h : ofBuilder? { b with bindings } = some router) :
    ∃ paths, ofBuilder? { b with bindings := bindings' } = some { router with paths } ∧
      List.Forall₂ (RegisteredPath.Rerouted (routesOf bindings) (routesOf bindings')) router.paths
        paths := by
  obtain ⟨entries, hr, rfl⟩ := ofBuilder?_eq_some_iff.1 h
  rw [groupByPath_eq, hd] at hr
  obtain ⟨paths, hr', ha⟩ := registerAll_rerouted (routesOf bindings') hr
  rw [← groupByPath_eq] at hr'
  exact ⟨paths, ofBuilder?_eq_some_iff.2 ⟨paths, hr', rfl⟩, ha⟩

/--
Binding arguments in two parts, one behind the other on the same path, or binding them at once makes
no difference to a request: neither to its run nor to its answer. The steps of the first part only
must not skip its route, nor leave it without its mark for the second; failing, halting and leaving
the router are the same at any place.
-/
theorem serve_of_split {b : Builder} {matcher : MethodMatcher} {path : String}
    {A B : List Argument} {first second : Binding} {before middle after : List Binding}
    (hA : Builder.binding b.executor matcher path A = .ok first)
    (hB : Builder.binding b.executor matcher path B = .ok second)
    (hm : ∀ x ∈ middle, x.path ≠ path) :
    ∃ joined, Builder.binding b.executor matcher path (A ++ B) = .ok joined ∧
      ∀ split, ofBuilder?
          { b with bindings := before ++ first :: (middle ++ second :: after) } = some split →
        ∃ single, ofBuilder? { b with bindings := before ++ joined :: (middle ++ after) } =
            some single ∧
          ∀ fresh request, split.HandsOver path (routesOf before path).length fresh request →
            single.handled fresh request = split.handled fresh request ∧
              single.serve fresh request = split.serve fresh request := by
  obtain ⟨-, steps, -, hf⟩ := Builder.binding_eq_ok_iff.1 hA
  obtain ⟨-, others, -, hs⟩ := Builder.binding_eq_ok_iff.1 hB
  have hfpath : first.path = path := by rw [hf]
  have hspath : second.path = path := by rw [hs]
  have hmatcher : second.route.matcher = first.route.matcher := by rw [hf, hs]
  obtain ⟨joined, hj, hjoined⟩ : ∃ joined, joined = ⟨path, first.route.join second.route⟩ ∧
      Builder.binding b.executor matcher path (A ++ B) = .ok joined := by
    rw [Builder.binding_append, hA, hB]
    exact ⟨_, rfl, rfl⟩
  have hjpath : joined.path = path := by rw [hj]
  refine ⟨joined, hjoined, ?_⟩
  intro split hsplit
  obtain ⟨paths, hsingle, ha⟩ :=
    ofBuilder?_rerouted (distinct_paths_join hfpath hspath hjpath) hsplit
  refine ⟨_, hsingle, ?_⟩
  intro fresh request hover
  have hhandled : handled { split with paths } fresh request = split.handled fresh request := by
    apply handled_join ha (routesOf_split hfpath hspath hm) _ _ hmatcher hover
    · rw [routesOf_joined hjpath hm, hj]
    · exact fun other hn => routesOf_join_of_ne hfpath hspath hjpath hn
  exact ⟨hhandled, serve_of_handled hhandled⟩

/-- Leaves a note and goes on. -/
def noting : Step := fun cx =>
  ⟨cx, .ok .next, [.note (.str "noted")]⟩

def skipping : Step := fun cx =>
  .done cx .skipRoute

/-- A note, behind it on the same path a route that is skipped, and another path between them. -/
def notingBuilder : Builder :=
  { Builder.new (.custom fun _ => .ofResult (.ok .null)) with
    bindings := [⟨"/a", .any, [noting]⟩, ⟨"/b", .any, []⟩, ⟨"/a", .any, [skipping]⟩] }

theorem noting_handsOver {split : Router} (hsplit : ofBuilder? notingBuilder = some split)
    (fresh : String) (request : Request) : split.HandsOver "/a" 0 fresh request := by
  intro m cx calls hruns hw
  obtain ⟨final, outcome, hf⟩ := hruns.follows
  obtain ⟨entry, he, hm⟩ := List.mem_filterMap.1 (PathMatch.mem_of_best? hruns.best)
  obtain ⟨captures, -, rfl⟩ := Option.map_eq_some_iff.1 hm
  rw [routes_of_writtenAs hsplit (x := ⟨"/a", .any, [noting]⟩) List.mem_cons_self he hw] at hf
  obtain ⟨paths, -, rfl⟩ := ofBuilder?_eq_some_iff.1 hsplit
  have hr : routesOf notingBuilder.bindings "/a" = [⟨.any, [noting]⟩, ⟨.any, [skipping]⟩] := rfl
  have hs : Follows (Shared.stepTasks ⟨[], []⟩) cx [] cx (.ok .next) := .done
  have hf' : FollowsTable ⟨[], []⟩ [⟨.any, [noting]⟩, ⟨.any, [skipping]⟩] cx
      [⟨.route 0 0, cx, Step.mark cx⟩, ⟨.route 0 1, cx.markMatched, noting cx.markMatched⟩,
        ⟨.route 1 0, cx.markMatched, Step.mark cx.markMatched⟩,
        ⟨.route 1 1, cx.markMatched, skipping cx.markMatched⟩] cx.markMatched (.ok .next) :=
    FollowsTable.served hs ⟨_, List.mem_cons_self, .inl rfl⟩
      (.go rfl rfl (.go rfl rfl (.go rfl rfl (.go rfl rfl .done))))
  rw [hr] at hf
  obtain ⟨rfl, -, -⟩ := hf.unique hf'
  constructor
  · simp [Step.mark, noting, StepRun.done]
  · simp [Context.markMatched]

theorem noting_serve_of_split : ∃ split single, ofBuilder? notingBuilder = some split ∧
    ofBuilder? { notingBuilder with
      bindings := [⟨"/a", .any, [noting, skipping]⟩, ⟨"/b", .any, []⟩] } = some single ∧
    ∀ fresh request, split.HandsOver "/a" 0 fresh request ∧
      single.serve fresh request = split.serve fresh request := by
  have hrooted : checkPath "/a" = .ok () := checkPath_eq_ok_iff.2 (by decide +kernel)
  have hA : Builder.binding notingBuilder.executor .any "/a" [.raw noting] =
      .ok ⟨"/a", .any, [noting]⟩ := Builder.binding_eq_ok_iff.2 ⟨hrooted, _, rfl, rfl⟩
  have hB : Builder.binding notingBuilder.executor .any "/a" [.raw skipping] =
      .ok ⟨"/a", .any, [skipping]⟩ := Builder.binding_eq_ok_iff.2 ⟨hrooted, _, rfl, rfl⟩
  have hm : ∀ x ∈ [(⟨"/b", .any, []⟩ : Binding)], x.path ≠ "/a" := by decide +kernel
  obtain ⟨split, hsplit⟩ : ∃ split, ofBuilder? notingBuilder = some split := by
    rw [ofBuilder?_isSome_iff]
    decide +kernel
  obtain ⟨joined, hj, hserve⟩ := @serve_of_split notingBuilder .any "/a" _ _ _ _ [] _ [] hA hB hm
  obtain ⟨single, hsingle, hall⟩ := hserve split hsplit
  have hjoined : Builder.binding notingBuilder.executor .any "/a" [.raw noting, .raw skipping] =
      .ok ⟨"/a", .any, [noting, skipping]⟩ := Builder.binding_eq_ok_iff.2 ⟨hrooted, _, rfl, rfl⟩
  cases hj.symm.trans hjoined
  refine ⟨split, single, hsplit, hsingle, fun fresh request => ?_⟩
  have hover := noting_handsOver hsplit fresh request
  exact ⟨hover, (hall fresh request hover).2⟩

theorem ofBuilder?_root {b : Builder} {routes : List Route}
    (hg : groupByPath b.bindings = [⟨"/", routes⟩]) :
    ofBuilder? b = some ⟨[⟨[.literal '/'], routes⟩], b.shared, b.collaborators, b.responseHeaders,
      b.bodyLimit⟩ := by
  have hp : Pattern.ofString? "/" = some [.literal '/'] := by decide +kernel
  rw [ofBuilder?, hg]
  simp only [registerAll, hp]
  rfl

def unbound : Builder :=
  .new (.custom fun _ => .ofResult (.ok .null))

/--
A step that puts a new context in the place of its own takes the mark back, which the second part
makes again and one binding of all does not. And where only one part can be bound, it is left alone.
-/
theorem not_serve_of_split :
    (∃ first both all split single, unbound.bind .any "/" [.raw renew] = .ok first ∧
      first.bind .any "/" [] = .ok both ∧ unbound.bind .any "/" ([.raw renew] ++ []) = .ok all ∧
      ofBuilder? both = some split ∧ ofBuilder? all = some single ∧
      (∀ cx, (renew cx).outcome ≠ .ok .skipRoute) ∧
      (split.serve "" (bare "/")).response = Response.empty Status.ok ∧
      (single.serve "" (bare "/")).response = Response.empty Status.notFound) ∧
    ∃ first split single, unbound.bind .any "/" [.status 201] = .ok first ∧
      first.bind .any "/" [.status 42] = .error (.invalidStatus 42) ∧
      unbound.bind .any "/" ([.status 201] ++ [.status 42]) = .error (.invalidStatus 42) ∧
      ofBuilder? first = some split ∧ ofBuilder? unbound = some single ∧
      (∀ cx, (Step.setStatus ⟨201, by decide⟩ cx).outcome ≠ .ok .skipRoute) ∧
      (split.serve "" (bare "/")).response = Response.empty ⟨201, by decide⟩ ∧
      (single.serve "" (bare "/")).response = Response.empty Status.notFound := by
  constructor
  · refine ⟨_, _, _, _, _, rfl, rfl, rfl, ofBuilder?_root rfl, ofBuilder?_root rfl, nofun, ?_, ?_⟩
    · decide +kernel
    · decide +kernel
  · refine ⟨_, _, _, rfl, rfl, rfl, ofBuilder?_root rfl, rfl, nofun, ?_, ?_⟩
    · decide +kernel
    · decide +kernel

end Router

end QueryRouting
