import QueryRouting.Proofs.Message.Body
import QueryRouting.Proofs.Route.Hooks
import QueryRouting.Proofs.Route.Result
import QueryRouting.Proofs.Route.Traces

namespace QueryRouting

/-- The finalizer has a failure for the handler, a request for the fallback, or neither. -/
theorem Collaborators.finalize_cases (request : Request) (run : StepRun) :
    (∃ e, ∀ c : Collaborators, c.finalize request run = (c.handler e run.context, .error)) ∨
    (∀ c : Collaborators, c.finalize request run = (c.forward request, .forwarded)) ∨
    ∃ response departure, departure ≠ .error ∧ departure ≠ .forwarded ∧
      ∀ c : Collaborators, c.finalize request run = (response, departure) := by
  cases ho : run.outcome with
  | error e => exact .inl ⟨e, fun c => by rw [finalize, ho]⟩
  | ok flow =>
    cases hs : run.context.response.sent with
    | some response =>
      refine .inr (.inr ⟨response, .sent, Departure.noConfusion, Departure.noConfusion,
        fun c => ?_⟩)
      simp only [finalize, ho, hs]
    | none =>
      by_cases hl : flow = .exitRouter ∨ (!run.context.matched) = true
      · refine .inr (.inl fun c => ?_)
        simp only [finalize, ho, hs, if_pos hl]
      · refine .inr (.inr ⟨run.context.renderResult, .result, Departure.noConfusion,
          Departure.noConfusion, fun c => ?_⟩)
        simp only [finalize, ho, hs, if_neg hl]

namespace Router

def setHandler (router : Router) (handler : ErrorHandler) : Router :=
  { router with collaborators := { router.collaborators with handler } }

def setFallback (router : Router) (fallback : Option Fallback) : Router :=
  { router with collaborators := { router.collaborators with fallback } }

/-- The handler is asked once, about this failure, and answers. -/
def AsksHandler (router : Router) (fresh : String) (request : Request) (e : StepError)
    (cx : Context) : Prop :=
  ∀ handler, (router.setHandler handler).dispatch fresh request =
    { router.dispatch fresh request with response := handler e cx }

def IgnoresHandler (router : Router) (fresh : String) (request : Request) : Prop :=
  ∀ handler, (router.setHandler handler).dispatch fresh request = router.dispatch fresh request

/-- The fallback is asked once, with this request, and answers; without one it is not found. -/
def AsksFallback (router : Router) (fresh : String) (request handedOn : Request) : Prop :=
  (∀ fallback, (router.setFallback (some fallback)).dispatch fresh request =
    { router.dispatch fresh request with response := fallback handedOn }) ∧
  (router.setFallback none).dispatch fresh request =
    { router.dispatch fresh request with response := Response.empty Status.notFound }

def IgnoresFallback (router : Router) (fresh : String) (request : Request) : Prop :=
  ∀ fallback, (router.setFallback fallback).dispatch fresh request = router.dispatch fresh request

variable {router : Router} {fresh : String} {request : Request} {bytes : Bytes}
  {cx final : Context} {calls : List Call} {outcome : Except StepError Flow}

/-- The request that is handed on: the one that came in, its body in one piece. -/
def forwarded (request : Request) : Request :=
  { request with body := [.chunk (request.body.flatMap BodyEvent.bytes)] }

theorem dispatch_cases (router : Router) (fresh : String) (request : Request) :
    ((router.dispatch fresh request).departure = some .error ∧
      (∃ e cx, router.AsksHandler fresh request e cx) ∧ router.IgnoresFallback fresh request) ∨
    ((router.dispatch fresh request).departure = some .forwarded ∧
      router.IgnoresHandler fresh request ∧
      router.AsksFallback fresh request (forwarded request)) ∨
    ((router.dispatch fresh request).departure ≠ some .error ∧
      (router.dispatch fresh request).departure ≠ some .forwarded ∧
      router.IgnoresHandler fresh request ∧ router.IgnoresFallback fresh request) := by
  -- The run is the same for all collaborators; only what the finalizer makes of it may differ.
  have hd (c : Collaborators) : { router with collaborators := c }.dispatch fresh request =
      let answer := c.finalize { request with body := [.chunk (router.handled fresh request).1] }
        (router.handled fresh request).2
      ⟨answer.1, some answer.2, (router.handled fresh request).2.events⟩ := rfl
  have hr : router.dispatch fresh request = _ := hd router.collaborators
  rcases Collaborators.finalize_cases
      { request with body := [.chunk (router.handled fresh request).1] }
      (router.handled fresh request).2 with ⟨e, he⟩ | he | ⟨response, departure, hne, hnf, he⟩
  all_goals simp only [he] at hd hr
  · refine .inl ⟨congrArg _ hr, ⟨e, (router.handled fresh request).2.context, fun handler => ?_⟩,
      fun fallback => ?_⟩ <;> rw [hr] <;> exact hd _
  · have hdep : (router.dispatch fresh request).departure = some .forwarded := congrArg _ hr
    have hbody : { request with body := [.chunk (router.handled fresh request).1] } =
        forwarded request := by
      rcases router.refuses_or_handles fresh request with ⟨e, he⟩ | ⟨_, _, _, _, _, h⟩
      · cases hdep.symm.trans he.dispatch.2
      · rw [h.handled.1, Body.eq_of_read h.read, forwarded]
    rw [hbody] at hd hr
    refine .inr (.inl ⟨hdep, fun handler => ?_, fun fallback => ?_, ?_⟩) <;> rw [hr] <;>
      exact hd _
  · have hdep : (router.dispatch fresh request).departure = some departure := congrArg _ hr
    rw [hdep, Ne, Ne, Option.some.injEq, Option.some.injEq]
    exact .inr (.inr ⟨hne, hnf, fun _ => (hd _).trans hr.symm, fun _ => (hd _).trans hr.symm⟩)

theorem Handles.unmatched (h : router.Handles fresh request bytes cx calls final outcome) :
    cx.matched = false := by
  obtain ⟨body, -, rfl⟩ := h.parsed
  rfl

theorem Handles.unsent (h : router.Handles fresh request bytes cx calls final outcome) :
    cx.response.sent = none := by
  obtain ⟨body, -, rfl⟩ := h.parsed
  rfl

/-- What a client gets: layers set headers, and HEAD and a successful CONNECT get no body. -/
structure Delivers (router : Router) (request : Request) (answer received : Response) : Prop where
  status : received.status = answer.status
  headers : received.headers = answer.headers.insertAll router.responseHeaders
  body : received.body = if request.method = Method.head ∨
    (request.method = Method.connect ∧ answer.status.isSuccess) then [] else answer.body

theorem delivers_serve (router : Router) (fresh : String) (request : Request) :
    router.Delivers request (router.dispatch fresh request).response
      (router.serve fresh request).response := by
  rw [serve]
  dsimp only
  rw [stripBody]
  split
  · rename_i h
    exact ⟨rfl, rfl, (if_pos h).symm⟩
  · rename_i h
    exact ⟨rfl, rfl, (if_neg h).symm⟩

/-- In the run of the request no step takes back or forges what those before it have left. -/
def Undisturbed (router : Router) (fresh : String) (request : Request) : Prop :=
  ∀ ⦃bytes : Bytes⦄ ⦃cx final : Context⦄ ⦃calls : List Call⦄ ⦃outcome : Except StepError Flow⦄,
    router.Handles fresh request bytes cx calls final outcome → ∀ c ∈ calls, c.Regular

/-- Some route of the path serves the method that the router-level steps leave. -/
def Serves (router : Router) (request : Request) (cx : Context) : Prop :=
  ∃ route ∈ router.routesFor request,
    route.matcher.Serves (router.shared.runSteps cx).context.request.method

def Sound (calls : List Call) : Prop :=
  ∀ c ∈ calls, ∀ e, c.run.outcome ≠ .error e

def Silent (calls : List Call) : Prop :=
  ∀ c ∈ calls, ∀ response, ¬ c.Sends response

/-- The runs that end with their result. -/
structure Completes (router : Router) (request : Request) (cx : Context) (calls : List Call)
    (outcome : Except StepError Flow) : Prop where
  reaches : ReachesRoutes router.shared calls
  serves : router.Serves request cx
  sound : Sound calls
  silent : Silent calls
  stays : outcome ≠ .ok .exitRouter

/-- The runs that end without an answer of the router. -/
structure Leaves (router : Router) (request : Request) (cx : Context) (calls : List Call)
    (outcome : Except StepError Flow) : Prop where
  sound : Sound calls
  silent : Silent calls
  leaves : outcome = .ok .exitRouter ∨
    ¬ (ReachesRoutes router.shared calls ∧ router.Serves request cx)

theorem Handles.matched_iff (h : router.Handles fresh request bytes cx calls final outcome)
    (hk : router.Undisturbed fresh request) :
    final.matched = true ↔ ReachesRoutes router.shared calls ∧ router.Serves request cx := by
  rw [h.follows.matched_iff (hk h) h.unmatched, h.follows.reachesRoutes_iff]
  rfl

theorem Handles.sound_iff (h : router.Handles fresh request bytes cx calls final outcome) :
    Sound calls ↔ ∃ flow, outcome = .ok flow := by
  have he := fun e => h.follows.endsAtFirstStop.error_iff h.follows.chained e
  cases outcome with
  | error e =>
    obtain ⟨c, hc, hce⟩ := (he e).1 rfl
    exact iff_of_false (fun hs => hs c hc e hce) nofun
  | ok flow => exact iff_of_true (fun c hc e hce => nomatch (he e).2 ⟨c, hc, hce⟩) ⟨flow, rfl⟩

theorem Handles.silent_iff (h : router.Handles fresh request bytes cx calls final outcome)
    (hk : router.Undisturbed fresh request) : final.response.sent = none ↔ Silent calls :=
  h.follows.chained.unsent_iff (fun c hc => (hk h c hc).sent) h.unsent

theorem Handles.sent_iff (h : router.Handles fresh request bytes cx calls final outcome)
    (hk : router.Undisturbed fresh request) (response : Response) :
    final.response.sent = some response ↔ ∃ c ∈ calls, c.Sends response :=
  h.follows.chained.sent_iff (fun c hc => (hk h c hc).sent) h.unsent response

/-- The answers of a router: who gives them, and what they are. -/
inductive Answers (router : Router) (fresh : String) (request : Request) :
    Departure → Response → Prop
  | refused {e : BodyError} (h : router.Refuses request e) :
      Answers router fresh request .error
        (router.collaborators.handler (.ofBody e) (router.start fresh request))
  | failed {bytes : Bytes} {cx final : Context} {calls : List Call}
      {outcome : Except StepError Flow} {call : Call} {e : StepError}
      (h : router.Handles fresh request bytes cx calls final outcome) (hc : call ∈ calls)
      (he : call.run.outcome = .error e) :
      Answers router fresh request .error (router.collaborators.handler e call.run.context)
  | sent {bytes : Bytes} {cx final : Context} {calls : List Call}
      {outcome : Except StepError Flow} {call : Call} {response : Response}
      (h : router.Handles fresh request bytes cx calls final outcome) (hn : Sound calls)
      (hc : call ∈ calls) (hs : call.Sends response) :
      Answers router fresh request .sent response
  | handedOn {bytes : Bytes} {cx final : Context} {calls : List Call}
      {outcome : Except StepError Flow} {fallback : Fallback}
      (h : router.Handles fresh request bytes cx calls final outcome)
      (hl : router.Leaves request cx calls outcome)
      (hf : router.collaborators.fallback = some fallback) :
      Answers router fresh request .forwarded (fallback (forwarded request))
  | notFound {bytes : Bytes} {cx final : Context} {calls : List Call}
      {outcome : Except StepError Flow}
      (h : router.Handles fresh request bytes cx calls final outcome)
      (hl : router.Leaves request cx calls outcome)
      (hf : router.collaborators.fallback = none) :
      Answers router fresh request .forwarded (Response.empty Status.notFound)
  | result {bytes : Bytes} {cx final : Context} {calls : List Call}
      {outcome : Except StepError Flow}
      {own response : Response} (h : router.Handles fresh request bytes cx calls final outcome)
      (hc : router.Completes request cx calls outcome) (hr : final.Renders own response) :
      Answers router fresh request .result response

theorem Handles.dispatch_of_leaves (h : router.Handles fresh request bytes cx calls final outcome)
    (hk : router.Undisturbed fresh request) (hl : router.Leaves request cx calls outcome) :
    (router.dispatch fresh request).response =
        router.collaborators.forward (forwarded request) ∧
      (router.dispatch fresh request).departure = some .forwarded := by
  obtain ⟨flow, rfl⟩ := h.sound_iff.1 hl.sound
  have hend := hl.leaves
  rw [← h.matched_iff hk, Bool.not_eq_true, Except.ok.injEq] at hend
  rw [forwarded, ← Body.eq_of_read h.read]
  exact h.dispatch_of_forwarded ((h.silent_iff hk).2 hl.silent) hend

theorem Answers.dispatch {departure : Departure} {response : Response}
    (ha : router.Answers fresh request departure response)
    (hk : router.Undisturbed fresh request) :
    (router.dispatch fresh request).response = response ∧
      (router.dispatch fresh request).departure = some departure := by
  cases ha with
  | refused h => exact h.dispatch
  | @failed _ _ _ _ _ call e h hc he =>
    -- A call that fails is the last one, and the run ends as it does.
    have hs : Stops call.run.outcome := he ▸ .error e
    obtain ⟨rfl, rfl⟩ := h.follows.endsAtFirstStop.of_stops h.follows.chained hc hs
    rw [he] at h
    exact h.dispatch_of_error
  | sent h hn hc hs =>
    obtain ⟨flow, rfl⟩ := h.sound_iff.1 hn
    exact h.dispatch_of_sent ((h.sent_iff hk response).2 ⟨_, hc, hs⟩)
  | handedOn h hl hf =>
    have hd := h.dispatch_of_leaves hk hl
    rw [Collaborators.forward, hf] at hd
    exact hd
  | notFound h hl hf =>
    have hd := h.dispatch_of_leaves hk hl
    rw [Collaborators.forward, hf] at hd
    exact hd
  | result h hc hr =>
    obtain ⟨flow, rfl⟩ := h.sound_iff.1 hc.sound
    rw [hr.eq]
    exact h.dispatch_of_result ((h.silent_iff hk).2 hc.silent) (fun he => hc.stays (congrArg _ he))
      ((h.matched_iff hk).2 ⟨hc.reaches, hc.serves⟩)

theorem exists_answers (hk : router.Undisturbed fresh request) :
    ∃ departure response, router.Answers fresh request departure response := by
  rcases router.refuses_or_handles fresh request with ⟨e, he⟩ | ⟨bytes, cx, calls, final, out, h⟩
  · exact ⟨_, _, .refused he⟩
  · cases out with
    | error e =>
      obtain ⟨c, hc, he⟩ := h.follows.endsAtFirstStop.exists_of_error
      exact ⟨_, _, .failed h hc he⟩
    | ok flow =>
      have hn := h.sound_iff.2 ⟨flow, rfl⟩
      cases hs : final.response.sent with
      | some response =>
        obtain ⟨c, hc, hs⟩ := (h.sent_iff hk response).1 hs
        exact ⟨_, _, .sent h hn hc hs⟩
      | none =>
        have hsilent := (h.silent_iff hk).1 hs
        by_cases hl : (.ok flow : Except StepError Flow) = .ok .exitRouter ∨
            ¬ (ReachesRoutes router.shared calls ∧ router.Serves request cx)
        · cases hf : router.collaborators.fallback with
          | some fallback => exact ⟨_, _, .handedOn h ⟨hn, hsilent, hl⟩ hf⟩
          | none => exact ⟨_, _, .notFound h ⟨hn, hsilent, hl⟩ hf⟩
        · rw [not_or, not_not] at hl
          exact ⟨_, _, .result h ⟨hl.2.1, hl.2.2, hn, hsilent, hl.1⟩ final.renders_renderResult⟩

theorem answers_iff {departure : Departure} (hk : router.Undisturbed fresh request)
    (hd : (router.dispatch fresh request).departure = some departure) (other : Departure)
    (response : Response) : router.Answers fresh request other response ↔
      other = departure ∧ response = (router.dispatch fresh request).response := by
  constructor
  · intro h
    obtain ⟨hr', hd'⟩ := h.dispatch hk
    exact ⟨Option.some.inj (hd'.symm.trans hd), hr'.symm⟩
  · rintro ⟨rfl, rfl⟩
    obtain ⟨departure, response, ha⟩ := exists_answers hk
    obtain ⟨rfl, hd'⟩ := ha.dispatch hk
    rw [Option.some.inj (hd.symm.trans hd')]
    exact ha

theorem result_iff {departure : Departure} (hk : router.Undisturbed fresh request)
    (hd : (router.dispatch fresh request).departure = some departure) :
    departure = .result ↔ ∃ bytes cx calls final outcome,
      router.Handles fresh request bytes cx calls final outcome ∧
        router.Completes request cx calls outcome := by
  constructor
  · rintro rfl
    cases (answers_iff hk hd _ _).2 ⟨rfl, rfl⟩ with
    | result h hc => exact ⟨_, _, _, _, _, h, hc⟩
  · rintro ⟨bytes, cx, calls, final, outcome, h, hc⟩
    exact ((answers_iff hk hd _ _).1 (.result h hc final.renders_renderResult)).1.symm

/--
Every request leaves a router in one way. The error handler is asked just if it leaves by a failure,
the fallback just if it is forwarded, and then about the request as it came in. Where no step takes
back or forges what those before it have left, just one answers: the handler, the first response
that was sent, the fallback, or the result, which is the answer of just the runs that come through
the router-level steps and the hooks to a route for the method and neither fail nor send nor leave.
-/
theorem dispatch_answers (router : Router) (fresh : String) (request : Request) :
    let exchange := router.dispatch fresh request
    router.Delivers request exchange.response (router.serve fresh request).response ∧
    ∃ departure, exchange.departure = some departure ∧
      (departure = .error → ∃ e cx, router.AsksHandler fresh request e cx) ∧
      (departure ≠ .error → router.IgnoresHandler fresh request) ∧
      (departure = .forwarded → router.AsksFallback fresh request (forwarded request)) ∧
      (departure ≠ .forwarded → router.IgnoresFallback fresh request) ∧
      (router.Undisturbed fresh request →
        (∀ other response, router.Answers fresh request other response ↔
          other = departure ∧ response = exchange.response) ∧
        (departure = .result ↔ ∃ bytes cx calls final outcome,
          router.Handles fresh request bytes cx calls final outcome ∧
            router.Completes request cx calls outcome)) := by
  intro exchange
  refine ⟨router.delivers_serve fresh request, ?_⟩
  have hcases := router.dispatch_cases fresh request
  obtain ⟨departure, hd⟩ : ∃ departure, exchange.departure = some departure := ⟨_, rfl⟩
  refine ⟨departure, hd, ?_⟩
  have hdecided : router.Undisturbed fresh request →
      (∀ other response, router.Answers fresh request other response ↔
        other = departure ∧ response = exchange.response) ∧
      (departure = .result ↔ ∃ bytes cx calls final outcome,
        router.Handles fresh request bytes cx calls final outcome ∧
          router.Completes request cx calls outcome) := by
    intro hk
    exact ⟨answers_iff hk hd, result_iff hk hd⟩
  rw [hd] at hcases
  simp only [ne_eq, Option.some.injEq] at hcases
  rcases hcases with ⟨rfl, ha, hi⟩ | ⟨rfl, hi, ha⟩ | ⟨hne, hnf, hh, hf⟩
  · exact ⟨fun _ => ha, absurd rfl, nofun, fun _ => hi, hdecided⟩
  · exact ⟨nofun, fun _ => hi, fun _ => ha, absurd rfl, hdecided⟩
  · exact ⟨fun h => absurd h hne, fun _ => hh, fun h => absurd h hnf, fun _ => hf, hdecided⟩

end Router

/-- What a step keeps that changes its context by the methods of a context alone. -/
def Context.Keeps (cx final : Context) : Prop :=
  final.matched = cx.matched ∧
    ∀ response, cx.response.sent = some response → final.response.sent = some response

theorem permits_keeps : Permits Context.Keeps where
  trans := by
    rintro cx middle final ⟨hm, hs⟩ ⟨hm', hs'⟩
    exact ⟨hm'.trans hm, fun response h => hs' response (hs response h)⟩
  refl cx := ⟨rfl, fun _ h => h⟩
  result cx result := ⟨rfl, fun _ h => h⟩
  status cx status := ⟨rfl, fun _ h => h⟩

namespace Router

theorem Within.undisturbed {router : Router} (hw : router.Within Context.Keeps) (fresh : String)
    (request : Request) : router.Undisturbed fresh request := by
  intro bytes cx final calls outcome h c hc
  rcases h.call_cases hw permits_keeps c hc with ⟨⟨r, hs⟩, hm⟩ | ⟨hm, hs⟩
  · have hinside : ¬ c.site.IsOutside := by
      rw [hs]
      exact id
    refine ⟨fun response hr => ?_, fun ho => absurd ho hinside, fun _ _ => ?_⟩
    · rw [hm]
      exact hr
    · rw [hm]
      rfl
  · exact ⟨hs, fun _ hb => hm.trans hb, fun _ hb => hm.trans hb⟩

theorem gated_within (flow : Flow) : (gated flow).Within Context.Keeps where
  steps := nofun
  hooks := by
    intro hook hh cx value
    cases List.mem_singleton.1 hh
    exact permits_keeps.refl cx
  arguments := by
    intro entry he route hr step hs
    cases List.mem_singleton.1 he
    cases List.mem_singleton.1 hr
    cases List.mem_singleton.1 hs
    exact ⟨.custom fun _ => .ofResult (.ok .null), .raw _, rfl, permits_keeps.refl⟩

theorem gated_answers :
    ((gated .next).Undisturbed "" (bare "/b") ∧
      (gated .next).Answers "" (bare "/b") .result (Response.empty Status.ok)) ∧
    (gated .halt).Undisturbed "" (bare "/b") ∧
      (gated .halt).Answers "" (bare "/b") .forwarded (Response.empty Status.notFound) := by
  obtain ⟨-, d, hd, -, -, -, -, hdecided⟩ := dispatch_answers (gated .next) "" (bare "/b")
  obtain ⟨-, d', hd', -, -, -, -, hdecided'⟩ := dispatch_answers (gated .halt) "" (bare "/b")
  have hd₁ : ((gated .next).dispatch "" (bare "/b")).departure = some .result := by decide +kernel
  have hd₂ : ((gated .halt).dispatch "" (bare "/b")).departure = some .forwarded := by
    decide +kernel
  have hk : (gated .next).Undisturbed "" (bare "/b") := (gated_within .next).undisturbed _ _
  have hk' : (gated .halt).Undisturbed "" (bare "/b") := (gated_within .halt).undisturbed _ _
  refine ⟨⟨hk, ((hdecided hk).1 _ _).2 ⟨?_, ?_⟩⟩, hk', ((hdecided' hk').1 _ _).2 ⟨?_, ?_⟩⟩
  · exact Option.some.inj (hd₁.symm.trans hd)
  · decide +kernel
  · exact Option.some.inj (hd₂.symm.trans hd')
  · decide +kernel

/-- The client gets the answer that the calls decide on, whatever they do to their context. -/
def Decides (router : Router) (fresh : String) (request : Request) : Prop :=
  ∀ departure response, router.Answers fresh request departure response →
    (router.dispatch fresh request).departure = some departure ∧
      (router.serve fresh request).response = response

/-- Router-level steps, and one path with a route for all methods. -/
def root (shared steps : List Step) : Router where
  paths := [⟨[.literal '/'], [⟨.any, steps⟩]⟩]
  shared := ⟨shared, []⟩
  collaborators := ⟨ErrorHandler.default, none⟩
  responseHeaders := []
  bodyLimit := Builder.defaultBodyLimit

def sendFirst : Step := fun cx =>
  .done { cx with response := cx.response.send (Response.ofText "first") } .next

/-- Puts a new response in the place of the one under construction. -/
def resetResponse : Step := fun cx =>
  .done { cx with response := .initial } .next

/-- Puts a new context in the place of its own. -/
def renew : Step := fun cx =>
  .done (Context.ofView cx.request "-") .next

/-- Puts a context in the place of its own that a route has marked. -/
def putMarked : Step := fun cx =>
  .done cx.markMatched .next

def greet : Step := fun cx =>
  .done (cx.setResult (.str "hello")) .next

def asked (method : Method) : Request :=
  { bare "/" with method }

theorem root_best (steps : List Step) :
    PathMatch.best? (PathMatch.all (root [] steps).paths "/".toList) =
      some ⟨⟨[.literal '/'], [⟨.any, steps⟩]⟩, []⟩ := by
  rfl

theorem root_routesFor (steps : List Step) (method : Method) :
    (root [] steps).routesFor (asked method) = [⟨.any, steps⟩] := by
  have hp : (asked method).target.path = "/" := rfl
  rw [routesFor, hp, root_best]
  rfl

/-- The context that the one route of `root` gets. -/
def rootStart (method : Method) : Context :=
  (Context.ofRequest (asked method) [] "").setBody .null

theorem root_handles {steps : List Step} {method : Method} {calls : List Call} {final : Context}
    {outcome : Except StepError Flow}
    (h : Follows ((⟨.any, steps⟩ : Route).tasks 0) (rootStart method) calls final outcome) :
    (root [] steps).Handles "" (asked method) [] (rootStart method) calls final outcome := by
  have hp : (asked method).target.path = "/" := rfl
  have hs : (root [] steps).start "" (asked method) = Context.ofRequest (asked method) [] "" := by
    rw [start, hp, root_best]
    rfl
  refine ⟨rfl, ⟨.null, rfl, by rw [hs, rootStart]⟩, ?_⟩
  rw [root_routesFor]
  have hf : Follows (Shared.hookTasks ⟨[], []⟩ ++ routeTasks [⟨.any, steps⟩] method)
      (rootStart method) calls final outcome := by
    have ht : routeTasks [⟨.any, steps⟩] method = (⟨.any, steps⟩ : Route).tasks 0 :=
      List.append_nil _
    rw [ht]
    exact h
  have hdone : Follows (Shared.stepTasks ⟨[], []⟩) (rootStart method) [] (rootStart method)
      (.ok .next) := .done
  exact .served hdone ⟨_, List.mem_cons_self, .inl rfl⟩ hf

theorem root_answers {step : Step} {method : Method} {final : Context}
    (h : step (rootStart method).markMatched = .done final .next)
    (hn : final.response.sent = none) :
    (root [] [step]).Answers "" (asked method) .result final.renderResult := by
  have hf : Follows ((⟨.any, [step]⟩ : Route).tasks 0) (rootStart method)
      [⟨.route 0 0, rootStart method, Step.mark (rootStart method)⟩,
        ⟨.route 0 1, (rootStart method).markMatched, step (rootStart method).markMatched⟩]
      final (.ok .next) := by
    rw [h]
    exact .go rfl rfl (.go (congrArg some h) rfl .done)
  have hh := root_handles hf
  have hserves : (root [] [step]).Serves (asked method) (rootStart method) := by
    rw [Serves, root_routesFor]
    exact ⟨_, List.mem_cons_self, .inl rfl⟩
  have hstart : (rootStart method).markMatched.response.sent = none := rfl
  refine .result hh ⟨⟨nofun, ?_⟩, hserves, ?_, ?_, nofun⟩ final.renders_renderResult
  · simp
  · simp [Sound, h, Step.mark, StepRun.done]
  · simp [Silent, Call.Sends, h, hn, hstart, Step.mark, StepRun.done]

theorem root_sends {first second : Step} {method : Method} {middle final : Context}
    {response : Response} (h : first (rootStart method).markMatched = .done middle .next)
    (h' : second middle = .done final .next) (hs : middle.response.sent = some response) :
    (root [] [first, second]).Answers "" (asked method) .sent response := by
  have hf : Follows ((⟨.any, [first, second]⟩ : Route).tasks 0) (rootStart method)
      [⟨.route 0 0, rootStart method, Step.mark (rootStart method)⟩,
        ⟨.route 0 1, (rootStart method).markMatched, .done middle .next⟩,
        ⟨.route 0 2, middle, .done final .next⟩] final (.ok .next) :=
    .go rfl rfl (.go (congrArg some h) rfl (.go (congrArg some h') rfl .done))
  refine .sent (root_handles hf) ?_ (List.mem_cons_of_mem _ List.mem_cons_self) ⟨rfl, hs⟩
  simp [Sound, Step.mark, StepRun.done]

theorem putMarked_answers : (root [putMarked] []).Answers "" (bare "/b") .forwarded
    (Response.empty Status.notFound) := by
  have hr : (root [putMarked] []).routesFor (bare "/b") = [] := by decide +kernel
  let cx := ((root [putMarked] []).start "" (bare "/b")).setBody .null
  have hf : Follows (root [putMarked] []).shared.stepTasks cx [⟨.shared 0, cx, putMarked cx⟩]
      cx.markMatched (.ok .next) := .go rfl rfl .done
  have hh : (root [putMarked] []).Handles "" (bare "/b") [] cx _ cx.markMatched (.ok .next) :=
    ⟨rfl, ⟨.null, rfl, rfl⟩, by rw [hr]; exact .unserved hf nofun⟩
  refine .notFound hh ⟨?_, ?_, .inr fun hserves => ?_⟩ rfl
  · exact List.forall_mem_singleton.2 nofun
  · exact List.forall_mem_singleton.2 fun _ => nofun
  obtain ⟨route, hm, -⟩ := hserves.2
  rw [hr] at hm
  cases hm

/--
A response that was sent may be taken back, and so may the mark of a route, which a router-level
step may also forge. A client that asks for the head gets no body.
-/
theorem not_decides :
    ¬ (root [] [sendFirst, resetResponse]).Decides "" (asked Method.get) ∧
    ¬ (root [] [renew]).Decides "" (asked Method.get) ∧
    ¬ (root [putMarked] []).Decides "" (bare "/b") ∧
    ¬ (root [] [greet]).Decides "" (asked Method.head) := by
  refine ⟨fun h => ?_, fun h => ?_, fun h => ?_, fun h => ?_⟩
  · have hd := (h _ _ (root_sends rfl rfl rfl)).1
    exact absurd hd (by decide +kernel)
  · have hd := (h _ _ (root_answers rfl rfl)).1
    exact absurd hd (by decide +kernel)
  · have hd := (h _ _ putMarked_answers).1
    exact absurd hd (by decide +kernel)
  · have hr := (h _ _ (root_answers rfl rfl)).2
    exact absurd hr (by decide +kernel)

end Router

end QueryRouting
