import QueryRouting.Proofs.Route.Answer

namespace QueryRouting

section Table

variable {shared : Shared} {routes : List Route} {cx final : Context} {calls : List Call}
  {outcome : Except StepError Flow}

theorem Follows.shared_site (h : Follows shared.stepTasks cx calls final outcome) :
    ∀ c ∈ calls, ∃ i, c.site = .shared i := by
  apply h.forall_site (fun site => ∃ i, site = .shared i)
  intro task ht
  obtain ⟨i, hi, rfl⟩ := List.mem_mapIdx.1 ht
  exact ⟨i, rfl⟩

/-- If no route serves the method, only router-level steps are called, and only they can stop. -/
theorem FollowsTable.shared_of_unserved
    (h : FollowsTable shared routes cx calls final outcome)
    (hn : ¬ ∃ route ∈ routes,
      route.matcher.Serves (shared.runSteps cx).context.request.method) :
    (∀ c ∈ calls, ∃ i, c.site = .shared i) ∧
      (outcome = .ok .next ∨ ∃ c ∈ calls, ¬ Passes c.run.outcome) := by
  cases h with
  | stopped h hs => exact ⟨h.shared_site, .inr (h.endsAtFirstStop.exists_of_stops hs)⟩
  | unserved h hm => exact ⟨h.shared_site, .inl rfl⟩
  | served h hm h' =>
    obtain ⟨recorded, hrec, -⟩ := shared.records_runSteps cx
    obtain ⟨-, rfl, -⟩ := h.unique hrec
    exact absurd hm hn

end Table

namespace Router

variable {router : Router} {fresh : String} {request : Request} {bytes : Bytes}
  {cx final : Context} {calls : List Call} {outcome : Except StepError Flow}

/-- The body arrives unbroken, fits the limit, and is JSON if its content type says so. -/
structure Admits (router : Router) (request : Request) : Prop where
  unbroken : Body.Unbroken request.body
  fits : (request.body.flatMap BodyEvent.bytes).length ≤ router.bodyLimit
  legible : request.body.flatMap BodyEvent.bytes ≠ [] → Body.format request.headers = .json →
    ∃ s v, Bytes.toString? (request.body.flatMap BodyEvent.bytes) = some s ∧
      Json.parse? s.toList = some v

theorem Admits.exists_handles (h : router.Admits request) (fresh : String) :
    ∃ bytes cx calls final outcome,
      router.Handles fresh request bytes cx calls final outcome := by
  have hr := Body.read_eq_ok_iff.2 ⟨h.unbroken, rfl, h.fits⟩
  obtain ⟨v, hv⟩ := Body.parse_isOk_iff.2 h.legible
  cases router.refuses_or_handles fresh request with
  | inr h => exact h
  | inl h =>
    obtain ⟨e, he⟩ := h
    cases he with
    | unread he => cases hr.symm.trans he
    | unparsed hb he =>
      cases hr.symm.trans hb
      cases hv.symm.trans he

/-- Every router-level step that is called passes without sending a response. -/
def StepsPass (calls : List Call) : Prop :=
  ∀ c ∈ calls, ∀ i, c.site = .shared i → Passes c.run.outcome ∧ ∀ response, ¬ c.Sends response

theorem Handles.dispatch_of_unserved
    (h : router.Handles fresh request bytes cx calls final outcome)
    (hn : ¬ router.Serves request cx) (hp : StepsPass calls)
    (hk : ∀ c ∈ calls, c.site.IsOutside → c.ForgesNoMark) :
    (router.dispatch fresh request).response =
      router.collaborators.forward (forwarded request) := by
  obtain ⟨hsite, ho⟩ := h.follows.shared_of_unserved hn
  have hpass : ∀ c ∈ calls, Passes c.run.outcome ∧ ∀ response, ¬ c.Sends response := by
    intro c hc
    obtain ⟨i, hi⟩ := hsite c hc
    exact hp c hc i hi
  have hout : outcome = .ok .next := by
    apply ho.resolve_right
    intro hstop
    obtain ⟨c, hc, hstop⟩ := hstop
    exact hstop (hpass c hc).1
  subst hout
  have hsent := h.follows.chained.unsent_of_silent (fun c hc => (hpass c hc).2) h.unsent
  have hforge : ∀ c ∈ calls, c.ForgesNoMark := by
    intro c hc
    obtain ⟨i, hi⟩ := hsite c hc
    exact hk c hc (hi ▸ trivial)
  have hmatched := h.follows.chained.unmatched hforge h.unmatched
  rw [forwarded, ← Body.eq_of_read h.read]
  exact (h.dispatch_of_forwarded hsent (.inr hmatched)).1

/--
A request whose body is admitted and that no route of its path serves gets what the fallback answers
to it as it came in, or is not found, if the router-level steps let it pass, send nothing and put no
marked context in the place of their own. Where the body breaks off or does not fit the limit, the
error handler answers before any step.
-/
theorem dispatch_of_unmatched (router : Router) (fresh : String) (request : Request) :
    router.Delivers request (router.dispatch fresh request).response
        (router.serve fresh request).response ∧
      (router.Admits request → ∃ bytes cx calls final outcome,
        router.Handles fresh request bytes cx calls final outcome ∧
          (¬ router.Serves request cx → StepsPass calls →
            (∀ c ∈ calls, c.site.IsOutside → c.ForgesNoMark) →
            (∀ fallback, router.collaborators.fallback = some fallback →
              (router.dispatch fresh request).response = fallback (forwarded request)) ∧
            (router.collaborators.fallback = none →
              (router.dispatch fresh request).response = Response.empty Status.notFound))) ∧
      (¬ Body.Unbroken request.body ∨
          router.bodyLimit < (request.body.flatMap BodyEvent.bytes).length →
        ∃ e, Body.read router.bodyLimit request.body = .error e ∧
          (router.dispatch fresh request).response =
            router.collaborators.handler (.ofBody e) (router.start fresh request)) := by
  refine ⟨router.delivers_serve fresh request, ?_⟩
  constructor
  · intro ha
    obtain ⟨bytes, cx, calls, final, outcome, h⟩ := ha.exists_handles fresh
    refine ⟨bytes, cx, calls, final, outcome, h, ?_⟩
    intro hn hp hk
    rw [h.dispatch_of_unserved hn hp hk, Collaborators.forward]
    constructor
    · intro fallback hf
      rw [hf]
    · intro hf
      rw [hf]
  · intro hbad
    cases hr : Body.read router.bodyLimit request.body with
    | ok bytes =>
      obtain ⟨hu, rfl, hfit⟩ := Body.read_eq_ok_iff.1 hr
      cases hbad with
      | inl hbad => exact absurd hu hbad
      | inr hbad => exact absurd hfit (Nat.not_le.2 hbad)
    | error e => exact ⟨e, rfl, (Refuses.unread hr).dispatch.1⟩

/-- Answers with the body of its request. -/
def echo : Fallback := fun request =>
  ⟨Status.ok, Headers.empty, request.body.flatMap BodyEvent.bytes⟩

/-- No path, a router-level step that skips, and room for four bytes. -/
def narrow : Router where
  paths := []
  shared := ⟨[fun cx => .done (cx.setResult .null) .skipRoute], []⟩
  collaborators := ⟨ErrorHandler.default, some echo⟩
  responseHeaders := []
  bodyLimit := 4

def posted (body : Bytes) : Request :=
  ⟨⟨"POST"⟩, ⟨"", "/nowhere", none⟩, Headers.empty, [.chunk body]⟩

theorem posted_admits (router : Router) (hl : router.bodyLimit = 4) :
    router.Admits (posted [1, 2, 3, 4]) where
  unbroken event he := ⟨_, List.mem_singleton.1 he⟩
  fits := by
    rw [hl]
    decide
  legible _ hf := absurd hf (by decide +kernel)

theorem narrow_stepsPass {fresh : String} {request : Request} {bytes : Bytes} {cx final : Context}
    {calls : List Call} {outcome : Except StepError Flow}
    (h : narrow.Handles fresh request bytes cx calls final outcome) : StepsPass calls := by
  apply h.forall_call (p := fun site cx run => ∀ i, site = .shared i →
    Passes run.outcome ∧ ∀ response, ¬ Call.Sends ⟨site, cx, run⟩ response) ?_ nofun nofun nofun
  intro step hs i cx j _
  cases List.mem_singleton.1 hs
  exact ⟨.inr rfl, fun response hs => nomatch hs.1.symm.trans hs.2⟩

theorem narrow_forgesNoMark {fresh : String} {request : Request} {bytes : Bytes}
    {cx final : Context} {calls : List Call} {outcome : Except StepError Flow}
    (h : narrow.Handles fresh request bytes cx calls final outcome) :
    ∀ c ∈ calls, c.site.IsOutside → c.ForgesNoMark := by
  apply h.forall_call (p := fun site cx run => site.IsOutside → Call.ForgesNoMark ⟨site, cx, run⟩)
    ?_ nofun (fun _ _ ho => ho.elim) nofun
  intro step hs i cx _
  cases List.mem_singleton.1 hs
  exact id

theorem narrow_not_serves (request : Request) (cx : Context) : ¬ narrow.Serves request cx := by
  intro hs
  obtain ⟨route, hr, -⟩ := hs
  obtain ⟨entry, he, -⟩ := exists_entry_of_mem_routesFor hr
  cases he

/-- Four bytes reach the fallback. -/
theorem narrow_forwards : narrow.Admits (posted [1, 2, 3, 4]) ∧
    (narrow.dispatch "" (posted [1, 2, 3, 4])).response =
      ⟨Status.ok, Headers.empty, [1, 2, 3, 4]⟩ := by
  have ha : narrow.Admits (posted [1, 2, 3, 4]) := posted_admits _ rfl
  obtain ⟨-, hforward, -⟩ := dispatch_of_unmatched narrow "" (posted [1, 2, 3, 4])
  obtain ⟨bytes, cx, calls, final, outcome, h, hunmatched⟩ := hforward ha
  exact ⟨ha, (hunmatched (narrow_not_serves _ _) (narrow_stepsPass h)
    (narrow_forgesNoMark h)).1 echo rfl⟩

def marking : Router :=
  { narrow with shared := ⟨[putMarked], []⟩ }

/--
Five bytes do not, though no route serves the request and every step lets it pass. Nor do four
behind a step that puts a marked context in the place of its own. Of the answer to four bytes, a
client that asks for the head gets no body.
-/
theorem narrow_not_forwards : narrow.paths = [] ∧
    (∀ router ∈ [narrow, marking], ∀ step ∈ router.shared.steps, ∀ cx : Context,
      Passes (step cx).outcome ∧ (step cx).context.response.sent = cx.response.sent) ∧
    (narrow.dispatch "" (posted [1, 2, 3, 4, 5])).response =
      Response.empty Status.payloadTooLarge ∧
    narrow.collaborators.forward (forwarded (posted [1, 2, 3, 4, 5])) =
      ⟨Status.ok, Headers.empty, [1, 2, 3, 4, 5]⟩ ∧
    marking.paths = [] ∧ marking.Admits (posted [1, 2, 3, 4]) ∧
    (marking.dispatch "" (posted [1, 2, 3, 4])).response = Response.empty Status.ok ∧
    marking.collaborators.forward (forwarded (posted [1, 2, 3, 4])) =
      ⟨Status.ok, Headers.empty, [1, 2, 3, 4]⟩ ∧
    (narrow.serve "" { posted [1, 2, 3, 4] with method := Method.head }).response =
      Response.empty Status.ok := by
  refine ⟨rfl, ?_, by decide +kernel, by decide +kernel, rfl, posted_admits _ rfl,
    by decide +kernel, by decide +kernel, by decide +kernel⟩
  intro router hr step hs cx
  rcases List.mem_pair.1 hr with rfl | rfl
  · cases List.mem_singleton.1 hs
    exact ⟨.inr rfl, rfl⟩
  · cases List.mem_singleton.1 hs
    exact ⟨.inl rfl, rfl⟩

end Router

end QueryRouting
