import QueryRouting.Proofs.Route.Handling

namespace QueryRouting

namespace Site

def isBeforeHook (i : Nat) : Site → Bool
  | .shared _ => true
  | .hook k => k < i
  | .route _ _ => false

def isAfterHook (i : Nat) : Site → Bool
  | .shared _ => false
  | .hook k => i < k
  | .route _ _ => true

theorem ne_hook_of_isBeforeHook {s : Site} {i : Nat} (h : s.isBeforeHook i = true) :
    s ≠ .hook i := by
  rintro rfl
  simp [isBeforeHook] at h

theorem ne_hook_of_isAfterHook {s : Site} {i : Nat} (h : s.isAfterHook i = true) :
    s ≠ .hook i := by
  rintro rfl
  simp [isAfterHook] at h

theorem isBeforeHook_of_isAfterHook {s : Site} {i : Nat} (h : s.isAfterHook i = true) :
    s.isBeforeHook i = false := by
  cases s with
  | shared k => cases h
  | hook k =>
    simp only [isAfterHook, decide_eq_true_eq] at h
    simp only [isBeforeHook, decide_eq_false_iff_not]
    omega
  | route r j => rfl

end Site

/-- The context once it is the turn of a hook. -/
def turn (cx : Context) (calls : List Call) (i : Nat) : Context :=
  ((calls.takeWhile (·.site.isBeforeHook i)).getLast?.map (·.run.context)).getD cx

/-- The hook was called once, before any step of a route, and the run went on. -/
def LetPass (calls : List Call) (i : Nat) : Prop :=
  ∃ before call after, calls = before ++ call :: after ∧ call.site = .hook i ∧
    (call.run.outcome = .ok .next ∨ call.run.outcome = .ok .skipRoute) ∧
    (∀ c ∈ before, c.site ≠ .hook i ∧ ∀ r j, c.site ≠ .route r j) ∧
    ∀ c ∈ after, c.site ≠ .hook i

theorem Chained.getLast? {cx final : Context} {calls : List Call} (h : Chained cx calls final) :
    (calls.getLast?.map (·.run.context)).getD cx = final := by
  induction calls generalizing cx with
  | nil => exact h.symm
  | cons call calls ih =>
    rw [← ih h.2, List.getLast?_cons]
    cases calls.getLast? <;> rfl

theorem Chained.params {cx final : Context} {calls : List Call} (h : Chained cx calls final)
    (hk : ∀ c ∈ calls, c.run.context.request.params = c.before.request.params) :
    final.request.params = cx.request.params := by
  induction calls generalizing cx with
  | nil => rw [show final = cx from h]
  | cons call calls ih =>
    rw [List.forall_mem_cons] at hk
    rw [ih h.2 hk.2, hk.1, h.1]

theorem Shared.hookTasks_split {shared : Shared} {i : Nat} {name : String} {hook : ParamHook}
    (hi : shared.hooks[i]? = some (name, hook)) : ∃ before after,
      shared.hookTasks = before ++ .ofHook (.hook i) name hook :: after ∧
      (∀ t ∈ before, t.site.isBeforeHook i = true) ∧
      ∀ t ∈ after, t.site.isAfterHook i = true := by
  have hsite {k : Nat} {t : Task} (h : shared.hookTasks[k]? = some t) : t.site = .hook k := by
    rw [hookTasks, List.getElem?_mapIdx] at h
    obtain ⟨a, -, rfl⟩ := Option.map_eq_some_iff.1 h
    rfl
  have ht : shared.hookTasks[i]? = some (.ofHook (.hook i) name hook) := by
    rw [hookTasks, List.getElem?_mapIdx, hi]
    rfl
  obtain ⟨hlt, hget⟩ := List.getElem?_eq_some_iff.1 ht
  refine ⟨shared.hookTasks.take i, shared.hookTasks.drop (i + 1), ?_, fun t hm => ?_,
    fun t hm => ?_⟩
  · rw [← hget, ← List.drop_eq_getElem_cons hlt, List.take_append_drop]
  · obtain ⟨k, hk⟩ := List.getElem?_of_mem hm
    rw [List.getElem?_take, Option.ite_none_right_eq_some] at hk
    obtain ⟨hki, hk⟩ := hk
    rw [hsite hk]
    exact decide_eq_true hki
  · obtain ⟨k, hk⟩ := List.getElem?_of_mem hm
    rw [List.getElem?_drop] at hk
    rw [hsite hk]
    exact decide_eq_true (by omega)

/--
The turn of a hook in a run that reaches the routes: the calls before it, the context that they
leave, and the calls from there on. With its parameter the hook is the first of these.
-/
inductive AtTurn (name : String) (hook : ParamHook) (i : Nat) (cx : Context) (calls : List Call) :
    Prop
  | held {before later : List Call} {middle : Context} {value : String}
      (he : calls = before ++ ⟨.hook i, middle, hook middle value⟩ :: later)
      (hc : Chained cx before middle) (hb : ∀ c ∈ before, c.site.isBeforeHook i = true)
      (hv : middle.request.param? name = some value) (hs : ¬ Stops (hook middle value).outcome)
      (hl : ∀ c ∈ later, c.site.isAfterHook i = true)
  | missing {before later : List Call} {middle : Context} (he : calls = before ++ later)
      (hc : Chained cx before middle) (hb : ∀ c ∈ before, c.site.isBeforeHook i = true)
      (hv : middle.request.param? name = none)
      (hl : ∀ c ∈ later, c.site.isAfterHook i = true)

theorem Site.isBeforeHook_of_mem_stepTasks {shared : Shared} (i : Nat) {t : Task}
    (h : t ∈ shared.stepTasks) : t.site.isBeforeHook i = true := by
  obtain ⟨k, hk, rfl⟩ := List.mem_mapIdx.1 h
  rfl

theorem Site.isAfterHook_of_mem_routeTasks {routes : List Route} {method : Method} (i : Nat)
    {t : Task} (h : t ∈ routeTasks routes method) : t.site.isAfterHook i = true := by
  obtain ⟨r, j, hs⟩ := mem_routeTasks h
  rw [hs]
  rfl

/-- A run that has come through the hooks has come to the turn of each of them. -/
theorem Follows.atTurn {shared : Shared} {cx final : Context} {calls : List Call} {i : Nat}
    {name : String} {hook : ParamHook}
    (h : Follows shared.hookTasks cx calls final (.ok .next))
    (hi : shared.hooks[i]? = some (name, hook)) : AtTurn name hook i cx calls := by
  obtain ⟨first, last, ht, hfirst, hlast⟩ := Shared.hookTasks_split hi
  have hapart : Task.Apart first (.ofHook (.hook i) name hook :: last) := by
    intro s hs
    apply apart_hookTasks shared
    rw [ht]
    exact List.mem_append_left _ hs
  rw [ht] at h
  rcases h.split hapart with ⟨-, hs⟩ | ⟨before, middle, rest, rfl, hb, hr⟩
  · exact absurd hs not_stops_next
  · have hbefore := hb.forall_site (·.isBeforeHook i = true) hfirst
    rcases hr.head with ⟨hn, hl⟩ | ⟨run, left, later, hc, hs, hleft, rfl, hl⟩
    · exact .missing rfl hb.chained hbefore (Option.map_eq_none_iff.1 hn)
        (hl.forall_site (·.isAfterHook i = true) hlast)
    · obtain ⟨value, hv, rfl⟩ := Option.map_eq_some_iff.1 hc
      exact .held rfl hb.chained hbefore hv hs
        (hl.forall_site (·.isAfterHook i = true) fun t ht => hlast t (hleft.subset ht))

theorem AtTurn.append {name : String} {hook : ParamHook} {i : Nat} {cx middle : Context}
    {earlier calls later : List Call} (h : AtTurn name hook i middle calls)
    (hc : Chained cx earlier middle) (hb : ∀ c ∈ earlier, c.site.isBeforeHook i = true)
    (hl : ∀ c ∈ later, c.site.isAfterHook i = true) :
    AtTurn name hook i cx (earlier ++ (calls ++ later)) := by
  cases h with
  | held he hc' hb' hv hs hl' =>
    refine .held ?_ (hc.append hc') (List.forall_mem_append.2 ⟨hb, hb'⟩) hv hs
      (List.forall_mem_append.2 ⟨hl', hl⟩)
    rw [he, List.append_assoc, List.append_assoc, List.cons_append]
  | missing he hc' hb' hv hl' =>
    refine .missing ?_ (hc.append hc') (List.forall_mem_append.2 ⟨hb, hb'⟩) hv
      (List.forall_mem_append.2 ⟨hl', hl⟩)
    rw [he, List.append_assoc, List.append_assoc]

theorem FollowsTable.atTurn {shared : Shared} {routes : List Route} {cx final : Context}
    {calls : List Call} {outcome : Except StepError Flow} {i : Nat} {name : String}
    {hook : ParamHook} (h : FollowsTable shared routes cx calls final outcome)
    (hr : ∃ c ∈ calls, ∃ r j, c.site = .route r j) (hi : shared.hooks[i]? = some (name, hook)) :
    AtTurn name hook i cx calls := by
  -- A call of a route excludes every way to end before the routes.
  obtain ⟨c, hc, r, j, hs⟩ := hr
  have hsteps {cs : List Call} {last : Context} {out : Except StepError Flow}
      (hf : Follows shared.stepTasks cx cs last out) : ∀ c ∈ cs, c.site.isBeforeHook i = true :=
    hf.forall_site (·.isBeforeHook i = true) fun t ht => Site.isBeforeHook_of_mem_stepTasks i ht
  cases h with
  | stopped h | unserved h =>
    have hb := hsteps h c hc
    rw [hs] at hb
    cases hb
  | served h _ h' =>
    rcases h'.split (apart_hookTasks _ _) with ⟨hstop, -⟩ | ⟨hcalls, last, rcalls, rfl, hh, hr⟩
    · have hout : c.site.IsOutside := by
        rcases List.mem_append.1 hc with hc | hc
        · exact h.forall_site Site.IsOutside (fun _ ht => shared.isOutside_of_mem_stepTasks ht) c hc
        · exact hstop.forall_site Site.IsOutside
            (fun _ ht => shared.isOutside_of_mem_hookTasks ht) c hc
      rw [hs] at hout
      cases hout
    · exact (hh.atTurn hi).append h.chained (hsteps h)
        (hr.forall_site (·.isAfterHook i = true)
          fun _ ht => Site.isAfterHook_of_mem_routeTasks i ht)

section Turn

variable {name : String} {hook : ParamHook} {i : Nat} {cx middle : Context}
  {before later calls : List Call}

theorem turn_append (hc : Chained cx before middle)
    (hb : ∀ c ∈ before, c.site.isBeforeHook i = true)
    (hl : ∀ c ∈ later, c.site.isBeforeHook i = false) : turn cx (before ++ later) i = middle := by
  have ht : (before ++ later).takeWhile (·.site.isBeforeHook i) = before := by
    rw [List.takeWhile_append_of_pos hb]
    cases later with
    | nil => exact List.append_nil _
    | cons c later =>
      rw [List.takeWhile_cons_of_neg (by rw [hl c List.mem_cons_self]; exact Bool.false_ne_true)]
      exact List.append_nil _
  rw [turn, ht]
  exact hc.getLast?

theorem letPass_of_held {call : Call} (hc : call.site = .hook i) (hs : ¬ Stops call.run.outcome)
    (hb : ∀ c ∈ before, c.site.isBeforeHook i = true)
    (hl : ∀ c ∈ later, c.site.isAfterHook i = true) : LetPass (before ++ call :: later) i := by
  refine ⟨before, call, later, rfl, hc, ?_, fun c hm => ⟨?_, fun r j hr => ?_⟩, fun c hm => ?_⟩
  · rcases stops_or call.run.outcome with hn | hn | hn
    · exact .inl hn
    · exact .inr hn
    · exact absurd hn hs
  · exact Site.ne_hook_of_isBeforeHook (hb c hm)
  · have hbefore := hb c hm
    rw [hr] at hbefore
    cases hbefore
  · exact Site.ne_hook_of_isAfterHook (hl c hm)

theorem not_called_of_missing (hb : ∀ c ∈ before, c.site.isBeforeHook i = true)
    (hl : ∀ c ∈ later, c.site.isAfterHook i = true) : ∀ c ∈ before ++ later, c.site ≠ .hook i :=
  List.forall_mem_append.2 ⟨fun c hm => Site.ne_hook_of_isBeforeHook (hb c hm),
    fun c hm => Site.ne_hook_of_isAfterHook (hl c hm)⟩

theorem LetPass.called (h : LetPass calls i) : ∃ c ∈ calls, c.site = .hook i := by
  obtain ⟨before, call, after, rfl, hs, -⟩ := h
  exact ⟨call, List.mem_append_right _ List.mem_cons_self, hs⟩

theorem AtTurn.split (h : AtTurn name hook i cx calls) : ∃ before middle later,
    calls = before ++ later ∧ Chained cx before middle ∧
      (∀ c ∈ before, c.site.isBeforeHook i = true) ∧
      ∀ c ∈ later, c.site.isBeforeHook i = false := by
  cases h with
  | @held before later middle value he hc hb hv hs hl =>
    refine ⟨before, middle, _, he, hc, hb, List.forall_mem_cons.2 ⟨?_, fun c hm => ?_⟩⟩
    · exact decide_eq_false (Nat.lt_irrefl i)
    · exact Site.isBeforeHook_of_isAfterHook (hl c hm)
  | missing he hc hb hv hl =>
    exact ⟨_, _, _, he, hc, hb, fun c hm => Site.isBeforeHook_of_isAfterHook (hl c hm)⟩

theorem AtTurn.letPass_iff_held (h : AtTurn name hook i cx calls) :
    LetPass calls i ↔ ∃ value, (turn cx calls i).request.param? name = some value := by
  cases h with
  | @held before later middle value he hc hb hv hs hl =>
    have hnot : ∀ c ∈ (⟨.hook i, middle, hook middle value⟩ :: later : List Call),
        c.site.isBeforeHook i = false := List.forall_mem_cons.2
      ⟨decide_eq_false (Nat.lt_irrefl i), fun c hm => Site.isBeforeHook_of_isAfterHook (hl c hm)⟩
    rw [he, turn_append hc hb hnot]
    exact ⟨fun _ => ⟨_, hv⟩, fun _ => letPass_of_held rfl hs hb hl⟩
  | missing he hc hb hv hl =>
    rw [he, turn_append hc hb fun c hm => Site.isBeforeHook_of_isAfterHook (hl c hm), hv]
    constructor
    · intro hp
      obtain ⟨c, hm, hs⟩ := hp.called
      exact absurd hs (not_called_of_missing hb hl c hm)
    · rintro ⟨value, hv⟩
      cases hv

theorem AtTurn.not_called (h : AtTurn name hook i cx calls) (hp : ¬ LetPass calls i) :
    ∀ c ∈ calls, c.site ≠ .hook i := by
  cases h with
  | held he hc hb hv hs hl =>
    rw [he] at hp
    exact absurd (letPass_of_held rfl hs hb hl) hp
  | missing he hc hb hv hl =>
    rw [he]
    exact not_called_of_missing hb hl

/-- Where the calls before it keep the parameters, a hook has those that the run started with. -/
theorem AtTurn.turn_params (h : AtTurn name hook i cx calls)
    (hk : ∀ c ∈ calls, c.site.isBeforeHook i = true →
      c.run.context.request.params = c.before.request.params) :
    (turn cx calls i).request.params = cx.request.params := by
  obtain ⟨before, middle, later, rfl, hc, hb, hl⟩ := h.split
  rw [turn_append hc hb hl]
  exact hc.params fun c hm => hk c (List.mem_append_left _ hm) (hb c hm)

end Turn

/-- No router-level step and no hook changes the parameters. -/
def Shared.KeepsParams (shared : Shared) : Prop :=
  (∀ step ∈ shared.steps, ∀ cx, (step cx).context.request.params = cx.request.params) ∧
  ∀ hook ∈ shared.hooks, ∀ cx value,
    (hook.2 cx value).context.request.params = cx.request.params

theorem Shared.KeepsParams.call {shared : Shared} (h : shared.KeepsParams) {routes : List Route}
    {method : Method} {task : Task} {cx : Context} {run : StepRun} {i : Nat}
    (ht : task ∈ shared.stepTasks ++ (shared.hookTasks ++ routeTasks routes method))
    (hb : task.site.isBeforeHook i = true) (hc : task.call? cx = some run) :
    run.context.request.params = cx.request.params := by
  rcases List.mem_append.1 ht with ht | ht
  · obtain ⟨k, hk, rfl⟩ := List.mem_mapIdx.1 ht
    cases hc
    exact h.1 _ (List.getElem_mem hk) cx
  · rcases List.mem_append.1 ht with ht | ht
    · obtain ⟨k, hk, rfl⟩ := List.mem_mapIdx.1 ht
      obtain ⟨value, -, rfl⟩ := Option.map_eq_some_iff.1 hc
      exact h.2 _ (List.getElem_mem hk) cx value
    · obtain ⟨r, j, hs⟩ := mem_routeTasks ht
      rw [hs] at hb
      cases hb

/-- If nothing changes the parameters before, a hook has those that the run started with. -/
theorem FollowsTable.turn_params {shared : Shared} {routes : List Route} {cx final : Context}
    {calls : List Call} {outcome : Except StepError Flow} {i : Nat} {name : String}
    {hook : ParamHook} (h : FollowsTable shared routes cx calls final outcome)
    (ht : AtTurn name hook i cx calls) (hk : shared.KeepsParams) :
    (turn cx calls i).request.params = cx.request.params := by
  obtain ⟨method, hcalled⟩ := h.called
  apply ht.turn_params
  intro c hc hb
  obtain ⟨task, hm, hs, hcall⟩ := hcalled c hc
  rw [← hs] at hb
  exact hk.call hm hb hcall

namespace Router

/-- A request that matches a path and whose body can be read, and the calls of its run. -/
structure Runs (router : Router) (fresh : String) (request : Request) (m : PathMatch)
    (cx : Context) (calls : List Call) : Prop where
  best : PathMatch.best? (PathMatch.all router.paths request.target.path.toList) = some m
  start : ∃ bytes body, Body.read router.bodyLimit request.body = .ok bytes ∧
    Body.parse request.headers bytes = .ok body ∧
    cx = (Context.ofRequest request m.params fresh).setBody body
  follows : ∃ final outcome, FollowsTable router.shared m.entry.routes cx calls final outcome

variable {router : Router} {fresh name : String} {request : Request} {m : PathMatch}
  {cx : Context} {calls : List Call} {i : Nat} {hook : ParamHook}

theorem Runs.handles (h : router.Runs fresh request m cx calls) : ∃ bytes final outcome,
    router.Handles fresh request bytes cx calls final outcome := by
  obtain ⟨bytes, body, hread, hparse, rfl⟩ := h.start
  obtain ⟨final, outcome, hf⟩ := h.follows
  refine ⟨bytes, final, outcome, hread, ⟨body, hparse, ?_⟩, ?_⟩
  · rw [Router.start, h.best]
    rfl
  · rw [routesFor, h.best]
    exact hf

theorem Runs.param?_start (h : router.Runs fresh request m cx calls)
    (hd : m.entry.pattern.Declares name) :
    (∃ value, cx.request.param? name = some value) ↔
      PathMatch.isHidden name = false ∧ m.Legible := by
  obtain ⟨bytes, body, -, -, rfl⟩ := h.start
  have hc := PathMatch.capture_of_mem_all (PathMatch.mem_of_best? h.best)
  rw [Context.param?_ofRequest, PathMatch.mem_params_iff (Pattern.mem_capture hc hd)]

/--
What stands in front of the steps of a route. If a step of a route runs, a hook for a declared
parameter was called before, once, and let the request pass, just when the context had the parameter
as a string at the turn of the hook; otherwise the hook was not called at all. As long as nothing
changes the parameters, they are there just when every captured value that is seen is UTF-8.
-/
theorem Runs.letPass_iff (h : router.Runs fresh request m cx calls)
    (hd : m.entry.pattern.Declares name) (hr : ∃ c ∈ calls, ∃ r j, c.site = .route r (j + 1))
    (hi : router.shared.hooks[i]? = some (name, hook)) :
    (router.dispatch fresh request).events = calls.flatMap (·.run.events) ∧
    (LetPass calls i ↔ ∃ value, (turn cx calls i).request.param? name = some value) ∧
    (¬ LetPass calls i → ∀ c ∈ calls, c.site ≠ .hook i) ∧
    (router.shared.KeepsParams →
      (LetPass calls i ↔ PathMatch.isHidden name = false ∧ m.Legible)) := by
  obtain ⟨final, outcome, hf⟩ := h.follows
  obtain ⟨bytes, last, out, hh⟩ := h.handles
  obtain ⟨c, hc, r, j, hs⟩ := hr
  have hturn := hf.atTurn ⟨c, hc, r, j + 1, hs⟩ hi
  refine ⟨hh.events, hturn.letPass_iff_held, hturn.not_called, fun hk => ?_⟩
  have hp := hf.turn_params hturn hk
  rw [hturn.letPass_iff_held, ← h.param?_start hd, RequestView.param?, RequestView.param?, hp]

/-- Every hook for a declared parameter stands in front of the steps of the routes. -/
def Gates (router : Router) (fresh : String) (request : Request) : Prop :=
  ∀ m cx calls name i hook, router.Runs fresh request m cx calls →
    m.entry.pattern.Declares name → (∃ c ∈ calls, ∃ r j, c.site = .route r (j + 1)) →
    router.shared.hooks[i]? = some (name, hook) → LetPass calls i

def gatedBuilder (flow : Flow) : Builder :=
  ((Builder.new (.custom fun _ => .ofResult (.ok .null))).useHook "id"
    fun cx _ => .done cx flow).push ⟨"/{id}", ⟨.any, [fun cx => .done cx .halt]⟩⟩

def gatedPath : RegisteredPath :=
  ⟨[.literal '/', .parameter "id"], [⟨.any, [fun cx => .done cx .halt]⟩]⟩

def gated (flow : Flow) : Router where
  paths := [gatedPath]
  shared := ⟨[], [("id", fun cx _ => .done cx flow)]⟩
  collaborators := ⟨ErrorHandler.default, none⟩
  responseHeaders := []
  bodyLimit := Builder.defaultBodyLimit

theorem ofBuilder?_gatedBuilder (flow : Flow) :
    ofBuilder? (gatedBuilder flow) = some (gated flow) := by
  have hp : Pattern.ofString? "/{id}" = some gatedPath.pattern := by decide +kernel
  have hg : groupByPath (gatedBuilder flow).bindings = [⟨"/{id}", gatedPath.routes⟩] := rfl
  rw [ofBuilder?, hg]
  simp only [registerAll, hp]
  rfl

/-- A request for a path, with nothing else in it. -/
def bare (path : String) : Request :=
  ⟨Method.get, ⟨"", path, none⟩, Headers.empty, []⟩

def bareStart (path : String) (params : List (String × String)) : Context :=
  (Context.ofRequest (bare path) params "").setBody .null

def gatedCalls (cx : Context) : List Call :=
  [⟨.route 0 0, cx, Step.mark cx⟩, ⟨.route 0 1, cx.markMatched, .done cx.markMatched .halt⟩]

theorem gated_served {flow : Flow} {cx : Context} {calls : List Call}
    (h : Follows ((gated flow).shared.hookTasks ++
      routeTasks gatedPath.routes cx.request.method) cx calls cx.markMatched (.ok .halt)) :
    FollowsTable (gated flow).shared gatedPath.routes cx calls cx.markMatched (.ok .halt) := by
  have hs : Follows (gated flow).shared.stepTasks cx [] cx (.ok .next) := .done
  exact FollowsTable.served hs ⟨_, List.mem_cons_self, .inl rfl⟩ h

theorem gated_runs {flow : Flow} {path : String} {captures params : List (String × String)}
    {calls : List Call}
    (hb : PathMatch.best? (PathMatch.all [gatedPath] path.toList) = some ⟨gatedPath, captures⟩)
    (hp : (⟨gatedPath, captures⟩ : PathMatch).params = params)
    (hf : FollowsTable (gated flow).shared gatedPath.routes (bareStart path params) calls
      (bareStart path params).markMatched (.ok .halt)) :
    (gated flow).Runs "" (bare path) ⟨gatedPath, captures⟩ (bareStart path params) calls where
  best := hb
  start := ⟨[], .null, rfl, rfl, by rw [hp]; rfl⟩
  follows := ⟨_, _, hf⟩

/-- A captured byte that is not UTF-8 lets the request past a hook that halts. -/
theorem not_gates_of_illegible : ofBuilder? (gatedBuilder .halt) = some (gated .halt) ∧
    ¬ (gated .halt).Gates "" (bare "/%ff") := by
  refine ⟨ofBuilder?_gatedBuilder .halt, fun h => ?_⟩
  have hp : (⟨gatedPath, [("id", "%ff")]⟩ : PathMatch).params = [] := by decide +kernel
  have hf : FollowsTable (gated .halt).shared gatedPath.routes (bareStart "/%ff" [])
      (gatedCalls (bareStart "/%ff" [])) (bareStart "/%ff" []).markMatched (.ok .halt) :=
    gated_served (.pass rfl (.go rfl rfl (.stop rfl rfl)))
  have hl := h _ _ _ "id" 0 _ (gated_runs (by rfl) hp hf)
    (.inl (List.mem_cons_of_mem _ List.mem_cons_self))
    ⟨_, List.mem_cons_of_mem _ List.mem_cons_self, 0, 0, rfl⟩ rfl
  obtain ⟨c, hc, hs⟩ := hl.called
  rcases List.mem_cons.1 hc with rfl | hc
  · cases hs
  · cases List.mem_singleton.1 hc
    cases hs

theorem gated_letPass : ∃ calls,
    (gated .next).Runs "" (bare "/b") ⟨gatedPath, [("id", "b")]⟩
      (bareStart "/b" [("id", "b")]) calls ∧
    gatedPath.pattern.Declares "id" ∧ (∃ c ∈ calls, ∃ r j, c.site = .route r (j + 1)) ∧
    (∃ hook, (gated .next).shared.hooks[0]? = some ("id", hook)) ∧ LetPass calls 0 := by
  have hp : (⟨gatedPath, [("id", "b")]⟩ : PathMatch).params = [("id", "b")] := by
    decide +kernel
  have hf : FollowsTable (gated .next).shared gatedPath.routes (bareStart "/b" [("id", "b")])
      (⟨.hook 0, bareStart "/b" [("id", "b")], .done (bareStart "/b" [("id", "b")]) .next⟩ ::
        gatedCalls (bareStart "/b" [("id", "b")]))
      (bareStart "/b" [("id", "b")]).markMatched (.ok .halt) :=
    gated_served (.go rfl rfl (.go rfl rfl (.stop rfl rfl)))
  have hruns := gated_runs (by rfl) hp hf
  have hd : gatedPath.pattern.Declares "id" := .inl (List.mem_cons_of_mem _ List.mem_cons_self)
  have hr : ∃ c ∈ (⟨.hook 0, bareStart "/b" [("id", "b")],
      .done (bareStart "/b" [("id", "b")]) .next⟩ :: gatedCalls (bareStart "/b" [("id", "b")]) :
        List Call), ∃ r j, c.site = .route r (j + 1) :=
    ⟨_, List.mem_cons_of_mem _ (List.mem_cons_of_mem _ List.mem_cons_self), 0, 0, rfl⟩
  obtain ⟨-, hiff, -⟩ := hruns.letPass_iff hd hr (i := 0) rfl
  exact ⟨_, hruns, hd, hr, ⟨_, rfl⟩, hiff.2 ⟨"b", rfl⟩⟩

end Router

end QueryRouting
