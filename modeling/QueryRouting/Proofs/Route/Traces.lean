import QueryRouting.Proofs.Route.Handling

namespace QueryRouting

namespace Call

/-- The call sends the first response of its run. -/
def Sends (call : Call) (response : Response) : Prop :=
  call.before.response.sent = none ∧ call.run.context.response.sent = some response

def KeepsSent (call : Call) : Prop :=
  ∀ response, call.before.response.sent = some response →
    call.run.context.response.sent = some response

def ForgesNoMark (call : Call) : Prop :=
  call.before.matched = false → call.run.context.matched = false

def KeepsMark (call : Call) : Prop :=
  call.before.matched = true → call.run.context.matched = true

/--
What a step does that leaves the context in its place. One that puts another context or response
there may take back what was sent and that a route has begun, or forge them.
-/
structure Regular (call : Call) : Prop where
  sent : call.KeepsSent
  outside : call.site.IsOutside → call.ForgesNoMark
  inside : ¬ call.site.IsOutside → call.KeepsMark

theorem unsent {call : Call} (h : ∀ response, ¬ call.Sends response)
    (hn : call.before.response.sent = none) : call.run.context.response.sent = none := by
  rw [Option.eq_none_iff_forall_ne_some]
  exact fun response hs => h response ⟨hn, hs⟩

end Call

namespace Chained

variable {cx final : Context} {calls : List Call}

theorem keeps_sent (h : Chained cx calls final) (hr : ∀ c ∈ calls, c.KeepsSent)
    {response : Response} (hs : cx.response.sent = some response) :
    final.response.sent = some response :=
  h.keeps (p := fun cx => cx.response.sent = some response) hs fun c hc => hr c hc response

theorem not_sends (h : Chained cx calls final) (hr : ∀ c ∈ calls, c.KeepsSent) {sent : Response}
    (hs : cx.response.sent = some sent) (response : Response) :
    ¬ ∃ c ∈ calls, c.Sends response := by
  induction calls generalizing cx with
  | nil => exact fun ⟨c, hc, _⟩ => List.not_mem_nil hc
  | cons call calls ih =>
    rw [List.forall_mem_cons] at hr
    obtain ⟨rfl, h⟩ := h
    rw [List.exists_mem_cons_iff, not_or]
    refine ⟨fun hc => ?_, ih h hr.2 (hr.1 sent hs)⟩
    cases hs.symm.trans hc.1

/-- A run has sent what one of its calls was the first to send. -/
theorem sent_iff (h : Chained cx calls final) (hr : ∀ c ∈ calls, c.KeepsSent)
    (hn : cx.response.sent = none) (response : Response) :
    final.response.sent = some response ↔ ∃ c ∈ calls, c.Sends response := by
  induction calls generalizing cx with
  | nil =>
    cases h
    rw [hn]
    exact iff_of_false nofun fun ⟨c, hc, _⟩ => List.not_mem_nil hc
  | cons call calls ih =>
    rw [List.forall_mem_cons] at hr
    obtain ⟨rfl, h⟩ := h
    rw [List.exists_mem_cons_iff]
    cases hs : call.run.context.response.sent with
    | none =>
      rw [ih h hr.2 hs]
      have hno : ¬ call.Sends response := fun hc => nomatch hs.symm.trans hc.2
      exact (or_iff_right hno).symm
    | some first =>
      -- What the call has sent stays, and behind it no call is the first to send.
      rw [h.keeps_sent hr.2 hs, or_iff_left (h.not_sends hr.2 hs response), Call.Sends, hs]
      exact ⟨fun he => ⟨hn, he⟩, fun hc => hc.2⟩

theorem unsent_iff (h : Chained cx calls final) (hr : ∀ c ∈ calls, c.KeepsSent)
    (hn : cx.response.sent = none) :
    final.response.sent = none ↔ ∀ c ∈ calls, ∀ response, ¬ c.Sends response := by
  rw [Option.eq_none_iff_forall_ne_some]
  constructor
  · intro hf c hc response hs
    exact hf response ((h.sent_iff hr hn response).2 ⟨c, hc, hs⟩)
  · intro hc response hf
    obtain ⟨c, hm, hs⟩ := (h.sent_iff hr hn response).1 hf
    exact hc c hm response hs

theorem unsent_of_silent (h : Chained cx calls final)
    (hr : ∀ c ∈ calls, ∀ response, ¬ c.Sends response) (hn : cx.response.sent = none) :
    final.response.sent = none :=
  h.keeps (p := fun cx => cx.response.sent = none) hn fun c hc => Call.unsent (hr c hc)

theorem unmatched (h : Chained cx calls final) (hr : ∀ c ∈ calls, c.ForgesNoMark)
    (hm : cx.matched = false) : final.matched = false :=
  h.keeps (p := fun cx => cx.matched = false) hm hr

theorem matched (h : Chained cx calls final) (hr : ∀ c ∈ calls, c.KeepsMark)
    (hm : cx.matched = true) : final.matched = true :=
  h.keeps (p := fun cx => cx.matched = true) hm hr

end Chained

theorem EndsAtFirstStop.error_iff {cx final : Context} {calls : List Call}
    {outcome : Except StepError Flow} (h : EndsAtFirstStop calls outcome)
    (hc : Chained cx calls final) (e : StepError) :
    outcome = .error e ↔ ∃ c ∈ calls, c.run.outcome = .error e := by
  constructor
  · rintro rfl
    exact h.exists_of_error
  · rintro ⟨c, hm, he⟩
    have hs : Stops c.run.outcome := he ▸ .error e
    exact (h.of_stops hc hm hs).1.trans he

def Passes (outcome : Except StepError Flow) : Prop :=
  outcome = .ok .next ∨ outcome = .ok .skipRoute

theorem passes_iff {outcome : Except StepError Flow} : Passes outcome ↔ ¬ Stops outcome := by
  constructor
  · rintro (rfl | rfl) <;> exact nofun
  · intro h
    rcases stops_or outcome with hn | hs | hs
    · exact .inl hn
    · exact .inr hs
    · exact absurd hs h

theorem EndsAtFirstStop.exists_of_stops {calls : List Call} {outcome : Except StepError Flow}
    (h : EndsAtFirstStop calls outcome) (hs : Stops outcome) :
    ∃ c ∈ calls, ¬ Passes c.run.outcome := by
  rcases h with ⟨-, rfl⟩ | ⟨earlier, last, rfl, -, hl, -⟩
  · exact absurd hs not_stops_next
  · exact ⟨last, List.mem_append_right _ List.mem_cons_self, fun hp => passes_iff.1 hp hl⟩

theorem EndsAtFirstStop.passes_of_next {calls : List Call}
    (h : EndsAtFirstStop calls (.ok .next)) : ∀ c ∈ calls, Passes c.run.outcome :=
  fun c hc => passes_iff.2 (h.of_next c hc)

theorem exists_mark_of_serves {routes : List Route} {method : Method}
    (h : ∃ route ∈ routes, route.matcher.Serves method) :
    ∃ r rest, routeTasks routes method = .ofStep (.route r 0) Step.mark :: rest := by
  have hne : servingRoutes routes method ≠ [] := by
    intro he
    obtain ⟨route, hr, hs⟩ := h
    have ha := acceptingRoutes_eq_nil_iff.1 ((map_servingRoutes routes method).symm.trans
      (congrArg (List.map (·.1)) he))
    exact ha route hr hs
  obtain ⟨⟨route, r⟩, rest, he⟩ := List.exists_cons_of_ne_nil hne
  refine ⟨r, route.steps.mapIdx (fun j step => .ofStep (.route r (j + 1)) step) ++
    rest.flatMap fun route => route.1.tasks route.2, ?_⟩
  rw [routeTasks, he, List.flatMap_cons, Route.tasks, List.mapIdx_cons]
  rfl

theorem Follows.matched_of_mark {r : Nat} {rest : List Task} {cx final : Context}
    {calls : List Call} {outcome : Except StepError Flow}
    (h : Follows (.ofStep (.route r 0) Step.mark :: rest) cx calls final outcome)
    (hr : ∀ c ∈ calls, c.KeepsMark) : final.matched = true := by
  cases h with
  | pass hc => cases hc
  | stop hc hl =>
    cases hc
    cases hl
  | go hc hl tail =>
    cases hc
    rw [List.forall_mem_cons] at hr
    exact tail.chained.matched hr.2 rfl

/-- Behind the router-level steps, the context is marked just if all hooks that are called pass. -/
theorem Follows.matched_iff {shared : Shared} {routes : List Route} {method : Method}
    {cx final : Context} {calls : List Call} {outcome : Except StepError Flow}
    (h : Follows (shared.hookTasks ++ routeTasks routes method) cx calls final outcome)
    (hserve : ∃ route ∈ routes, route.matcher.Serves method) (hr : ∀ c ∈ calls, c.Regular)
    (hm : cx.matched = false) :
    final.matched = true ↔ ∀ c ∈ calls, c.site.IsOutside → Passes c.run.outcome := by
  -- Either a hook stops and no route is called, or all pass and the call behind them is a mark.
  rcases h.split (apart_hookTasks shared _) with ⟨hf, hs⟩ | ⟨hooks, middle, rest, rfl, hf, hl⟩
  · have ho := hf.forall_site Site.IsOutside fun _ ht => shared.isOutside_of_mem_hookTasks ht
    obtain ⟨c, hc, hp⟩ := hf.endsAtFirstStop.exists_of_stops hs
    rw [hf.chained.unmatched (fun c hc => (hr c hc).outside (ho c hc)) hm]
    exact iff_of_false Bool.false_ne_true fun hall => hp (hall c hc (ho c hc))
  · have hroute : ∀ c ∈ rest, ¬ c.site.IsOutside := by
      apply hl.forall_site fun site => ¬ site.IsOutside
      intro task ht
      obtain ⟨r, j, hs⟩ := mem_routeTasks ht
      rw [hs]
      exact id
    obtain ⟨r, tasks, he⟩ := exists_mark_of_serves hserve
    rw [he] at hl
    have hmatched := hl.matched_of_mark fun c hc =>
      (hr c (List.mem_append_right _ hc)).inside (hroute c hc)
    refine iff_of_true hmatched fun c hc ho => ?_
    rcases List.mem_append.1 hc with hc | hc
    · exact hf.endsAtFirstStop.passes_of_next c hc
    · exact absurd ho (hroute c hc)

/--
The context is marked just if every call in front of the routes passes and some route serves the
method that the router-level steps leave.
-/
theorem FollowsTable.matched_iff {shared : Shared} {routes : List Route} {cx final : Context}
    {calls : List Call} {outcome : Except StepError Flow}
    (h : FollowsTable shared routes cx calls final outcome) (hr : ∀ c ∈ calls, c.Regular)
    (hm : cx.matched = false) :
    final.matched = true ↔
      (∀ c ∈ calls, c.site.IsOutside → Passes c.run.outcome) ∧
      ∃ route ∈ routes, route.matcher.Serves (shared.runSteps cx).context.request.method := by
  obtain ⟨recorded, hrec, -⟩ := shared.records_runSteps cx
  have hsteps {calls middle outcome} (h : Follows shared.stepTasks cx calls middle outcome) :
      ∀ c ∈ calls, c.site.IsOutside :=
    h.forall_site Site.IsOutside fun _ ht => shared.isOutside_of_mem_stepTasks ht
  have hunmatched {calls middle outcome} (h : Follows shared.stepTasks cx calls middle outcome)
      (hr : ∀ c ∈ calls, c.Regular) : middle.matched = false :=
    h.chained.unmatched (fun c hc => (hr c hc).outside (hsteps h c hc)) hm
  cases h with
  | stopped h hs =>
    obtain ⟨c, hc, hp⟩ := h.endsAtFirstStop.exists_of_stops hs
    rw [hunmatched h hr]
    exact iff_of_false Bool.false_ne_true fun hall => hp (hall.1 c hc (hsteps h c hc))
  | unserved h hno =>
    have hf := hunmatched h hr
    obtain ⟨-, rfl, -⟩ := h.unique hrec
    rw [hf]
    exact iff_of_false Bool.false_ne_true fun ⟨_, route, hm, hs⟩ => hno route hm hs
  | served h hserve h' =>
    rw [List.forall_mem_append] at hr
    have hmiddle := hunmatched h hr.1
    have hpassed := h.endsAtFirstStop.passes_of_next
    obtain ⟨-, rfl, -⟩ := h.unique hrec
    rw [h'.matched_iff hserve hr.2 hmiddle, List.forall_mem_append]
    exact ⟨fun hall => ⟨⟨fun c hc _ => hpassed c hc, hall⟩, hserve⟩, fun hall => hall.1.2⟩

theorem Task.eq_of_remaining? {task : Task} {rest left : List Task}
    {outcome : Except StepError Flow} (ho : task.site.IsOutside)
    (h : task.remaining? rest outcome = some left) : left = rest := by
  match outcome with
  | .ok .next =>
    cases h
    rfl
  | .ok .skipRoute =>
    cases h
    -- Outside the routes there is nothing that skipping could drop.
    rw [List.filter_eq_self]
    intro t _
    rw [ho.sameRoute t.site]
    rfl
  | .ok .halt | .ok .exitRouter | .error e => cases h

theorem Follows.exists_call {agenda : List Task} {cx final : Context} {calls : List Call}
    (h : Follows agenda cx calls final (.ok .next)) (ho : ∀ t ∈ agenda, t.site.IsOutside)
    (hcalled : ∀ t ∈ agenda, ∀ cx, t.call? cx ≠ none) :
    ∀ t ∈ agenda, ∃ c ∈ calls, c.site = t.site := by
  generalize hn : (.ok .next : Except StepError Flow) = next at h
  induction h with
  | done => exact fun t ht => absurd ht List.not_mem_nil
  | pass hc => exact absurd hc (hcalled _ List.mem_cons_self _)
  | go hc hl _ ih =>
    rw [List.forall_mem_cons] at ho hcalled ⊢
    cases Task.eq_of_remaining? ho.1 hl
    refine ⟨⟨_, List.mem_cons_self, rfl⟩, fun t ht => ?_⟩
    obtain ⟨c, hc, hs⟩ := ih ho.2 hcalled.2 hn t ht
    exact ⟨c, List.mem_cons_of_mem _ hc, hs⟩
  | stop hc hl =>
    rw [Task.remaining?_eq_none_iff, ← hn] at hl
    exact absurd hl not_stops_next

/-- Every router-level step is called and passes, and so does every hook that is called. -/
structure ReachesRoutes (shared : Shared) (calls : List Call) : Prop where
  steps : ∀ i < shared.steps.length, ∃ c ∈ calls, c.site = .shared i ∧ Passes c.run.outcome
  hooks : ∀ c ∈ calls, ∀ i, c.site = .hook i → Passes c.run.outcome

theorem Shared.exists_call {shared : Shared} {cx final : Context} {calls : List Call}
    (h : Follows shared.stepTasks cx calls final (.ok .next)) {i : Nat}
    (hi : i < shared.steps.length) : ∃ c ∈ calls, c.site = .shared i := by
  apply h.exists_call (fun _ ht => shared.isOutside_of_mem_stepTasks ht) ?_
    (.ofStep (.shared i) shared.steps[i]) (List.mem_mapIdx.2 ⟨i, hi, rfl⟩)
  intro t ht cx
  obtain ⟨k, hk, rfl⟩ := List.mem_mapIdx.1 ht
  exact Option.some_ne_none _

theorem FollowsTable.lt_of_site {shared : Shared} {routes : List Route} {cx final : Context}
    {calls : List Call} {outcome : Except StepError Flow}
    (h : FollowsTable shared routes cx calls final outcome) {c : Call} (hc : c ∈ calls) {i : Nat}
    (hs : c.site = .shared i) : i < shared.steps.length := by
  obtain ⟨method, hcalled⟩ := h.called
  obtain ⟨task, ht, hsite, -⟩ := hcalled c hc
  rw [hs] at hsite
  rcases List.mem_append.1 ht with ht | ht
  · obtain ⟨k, hk, rfl⟩ := List.mem_mapIdx.1 ht
    cases hsite
    exact hk
  · rcases List.mem_append.1 ht with ht | ht
    · obtain ⟨k, hk, rfl⟩ := List.mem_mapIdx.1 ht
      cases hsite
    · obtain ⟨r, j, hr⟩ := mem_routeTasks ht
      cases hr.symm.trans hsite

theorem FollowsTable.reachesRoutes_iff {shared : Shared} {routes : List Route}
    {cx final : Context} {calls : List Call} {outcome : Except StepError Flow}
    (h : FollowsTable shared routes cx calls final outcome) :
    ReachesRoutes shared calls ↔ ∀ c ∈ calls, c.site.IsOutside → Passes c.run.outcome := by
  constructor
  · intro hreach c hc ho
    cases hs : c.site with
    | shared i =>
      obtain ⟨c', hc', hs', hp⟩ := hreach.steps i (h.lt_of_site hc hs)
      -- A step is called once, so the call that passed is this one.
      rw [List.inj_on_of_nodup_map h.nodup_sites hc hc' (hs.trans hs'.symm)]
      exact hp
    | hook i => exact hreach.hooks c hc i hs
    | route r j =>
      rw [hs] at ho
      exact ho.elim
  · intro hall
    have hpass {c : Call} (hc : c ∈ calls) {i : Nat} (hs : c.site = .shared i) :
        ∃ c ∈ calls, c.site = .shared i ∧ Passes c.run.outcome :=
      ⟨c, hc, hs, hall c hc (hs ▸ trivial)⟩
    refine ⟨fun i hi => ?_, fun c hc i hs => hall c hc (hs ▸ trivial)⟩
    cases h with
    | stopped h hs =>
      obtain ⟨c, hc, hp⟩ := h.endsAtFirstStop.exists_of_stops hs
      have ho := h.forall_site Site.IsOutside
        (fun _ ht => shared.isOutside_of_mem_stepTasks ht) c hc
      exact absurd (hall c hc ho) hp
    | unserved h =>
      obtain ⟨c, hc, hs⟩ := shared.exists_call h hi
      exact hpass hc hs
    | served h =>
      obtain ⟨c, hc, hs⟩ := shared.exists_call h hi
      exact hpass (List.mem_append_left _ hc) hs

end QueryRouting
