import QueryRouting.Proofs.Chain.Response
import QueryRouting.Proofs.Route.Handling
import QueryRouting.Proofs.Route.Hooks

namespace QueryRouting

/-- What is done to the response in between are the actions that steps have. -/
def Context.ActsTo (cx final : Context) : Prop :=
  ∃ actions, final.response = cx.response.actAll actions

theorem permits_actsTo : Permits Context.ActsTo where
  trans := by
    rintro cx middle final ⟨earlier, hm⟩ ⟨later, hf⟩
    exact ⟨earlier ++ later, by rw [hf, hm, ResponseState.actAll_append]⟩
  refl cx := ⟨[], rfl⟩
  result cx result := ⟨[], rfl⟩
  status cx status := ⟨[.setStatus status], rfl⟩

/-- The actions on the response behind the calls of a run, in their order. -/
inductive ActBy : List Call → List ResponseAction → Prop
  | nil : ActBy [] []
  | cons {call : Call} {calls : List Call} {actions later : List ResponseAction}
      (h : call.run.context.response = call.before.response.actAll actions)
      (tail : ActBy calls later) : ActBy (call :: calls) (actions ++ later)

theorem ActBy.response {cx final : Context} {calls : List Call} {actions : List ResponseAction}
    (h : ActBy calls actions) (hc : Chained cx calls final) :
    final.response = cx.response.actAll actions := by
  induction h generalizing cx with
  | nil => exact congrArg Context.response hc
  | cons h _ ih => rw [ih hc.2, h, hc.1, ResponseState.actAll_append]

theorem exists_actBy {calls : List Call} (h : ∀ c ∈ calls, c.before.ActsTo c.run.context) :
    ∃ actions, ActBy calls actions := by
  induction calls with
  | nil => exact ⟨[], .nil⟩
  | cons call calls ih =>
    rw [List.forall_mem_cons] at h
    obtain ⟨actions, ha⟩ := h.1
    obtain ⟨later, hl⟩ := ih h.2
    exact ⟨actions ++ later, .cons ha hl⟩

namespace Router

variable {router : Router} {fresh : String} {request : Request}

/-- The steps that are called for a request act on the response in this way, one by one. -/
def ActsBy (router : Router) (fresh : String) (request : Request)
    (actions : List ResponseAction) : Prop :=
  ∃ bytes cx calls final outcome, router.Handles fresh request bytes cx calls final outcome ∧
    ActBy calls actions

theorem exists_actsBy {bytes : Bytes} {body : Json} (hw : router.Within Context.ActsTo)
    (hr : Body.read router.bodyLimit request.body = .ok bytes)
    (hp : Body.parse request.headers bytes = .ok body) :
    ∃ actions, router.ActsBy fresh request actions := by
  rcases router.refuses_or_handles fresh request with ⟨e, he⟩ | ⟨bytes', cx, calls, final, out, h⟩
  · rcases he with he | ⟨hr', he⟩
    · cases hr.symm.trans he
    · cases hr.symm.trans hr'
      cases hp.symm.trans he
  · have hacts : ∀ c ∈ calls, c.before.ActsTo c.run.context := by
      intro c hc
      rcases h.call_cases hw permits_actsTo c hc with ⟨-, hm⟩ | ha
      -- A mark does nothing to the response.
      · exact ⟨[], by rw [hm]; rfl⟩
      · exact ha
    obtain ⟨actions, ha⟩ := exists_actBy hacts
    exact ⟨actions, bytes', cx, calls, final, out, h, ha⟩

theorem Handles.sent {bytes : Bytes} {cx final : Context} {calls : List Call}
    {outcome : Except StepError Flow} {earlier later : List ResponseAction} {response : Response}
    (h : router.Handles fresh request bytes cx calls final outcome)
    (ha : ActBy calls (earlier ++ .send response :: later))
    (hn : ∀ action ∈ earlier, ¬ action.IsSend) :
    final.response.sent = some (ResponseAction.rendered earlier response) := by
  obtain ⟨body, -, hcx⟩ := h.parsed
  have hi : cx.response = .initial := by
    rw [hcx]
    rfl
  rw [ha.response h.follows.chained, hi]
  exact ResponseState.actAll_sent hn

theorem response_of_actsBy {earlier later : List ResponseAction} {response : Response}
    (hd : router.collaborators.handler = ErrorHandler.default)
    (ha : router.ActsBy fresh request (earlier ++ .send response :: later))
    (hn : ∀ action ∈ earlier, ¬ action.IsSend) :
    (router.dispatch fresh request).response = ResponseAction.rendered earlier response := by
  obtain ⟨bytes, cx, calls, final, outcome, h, ha⟩ := ha
  have hs := h.sent ha hn
  cases outcome with
  | ok flow => exact (h.dispatch_of_sent hs).1
  | error e => rw [h.dispatch_of_error.1, hd, ErrorHandler.default, hs, Option.getD_some]

/--
Where failures keep what was sent, and steps reach the response only by its actions, the first
`send` of a run decides what the client gets: that response, with the status and the headers of this
moment. Nothing that comes later changes it, and no result, fallback or failure takes its place. It
has all values of a header just if the steps gave no more than one; of several the last is left.
-/
theorem response_of_first_send (hd : router.collaborators.handler = ErrorHandler.default)
    (hw : router.Within Context.ActsTo) (fresh : String) (request : Request) :
    (∀ bytes body, Body.read router.bodyLimit request.body = .ok bytes →
      Body.parse request.headers bytes = .ok body →
        ∃ actions, router.ActsBy fresh request actions) ∧
    ∀ earlier response later,
      router.ActsBy fresh request (earlier ++ .send response :: later) →
      (∀ action ∈ earlier, ¬ action.IsSend) →
        (router.dispatch fresh request).response = ResponseAction.rendered earlier response ∧
        (∀ name, (router.dispatch fresh request).response.headers.values name =
            ResponseAction.carried earlier response name ↔
          ((ResponseAction.accumulated earlier).values name).length ≤ 1) ∧
        (router.serve fresh request).response = stripBody request.method
          (addHeaders router.responseHeaders (ResponseAction.rendered earlier response)) := by
  refine ⟨fun bytes body hr hp => exists_actsBy hw hr hp, ?_⟩
  intro earlier response later ha hn
  have hr := response_of_actsBy hd ha hn
  refine ⟨hr, fun name => ?_, ?_⟩
  · rw [hr]
    exact ResponseAction.values_rendered_eq_carried_iff
  · rw [serve, hr]

/-- The first response that is sent reaches the client with all headers that it had by then. -/
def KeepsFirstSend (router : Router) (fresh : String) (request : Request) : Prop :=
  ∀ earlier response later, router.ActsBy fresh request (earlier ++ .send response :: later) →
    (∀ action ∈ earlier, ¬ action.IsSend) →
      let answer := (router.dispatch fresh request).response
      answer.status = (if response.status = Status.ok then ResponseAction.lastStatus earlier
        else response.status) ∧ answer.body = response.body ∧
      ∀ name, answer.headers.values name = ResponseAction.carried earlier response name

def actingStep (actions : List ResponseAction) (outcome : Except StepError Flow) : Step := fun cx =>
  ⟨{ cx with response := cx.response.actAll actions }, outcome, []⟩

/-- Headers for every response, then a step that sends and one that sends again and fails. -/
def resender (change : Headers → Headers) : Router where
  paths := [⟨[.literal '/'], [⟨.any, [actingStep [.setStatus ⟨202, by decide⟩,
    .send (Response.ofText "first")] (.ok .next), actingStep [.setStatus Status.badRequest,
      .send (Response.ofText "second")] (.error (.application "late"))]⟩]⟩]
  shared := ⟨[actingStep [.changeHeaders change] (.ok .next)], []⟩
  collaborators := ⟨ErrorHandler.default, none⟩
  responseHeaders := []
  bodyLimit := Builder.defaultBodyLimit

theorem resender_within (change : Headers → Headers) :
    (resender change).Within Context.ActsTo where
  steps := by
    intro step hs cx
    cases List.mem_singleton.1 hs
    exact ⟨_, rfl⟩
  hooks := nofun
  arguments := by
    intro entry he route hr step hs
    cases List.mem_singleton.1 he
    cases List.mem_singleton.1 hr
    refine ⟨.custom fun _ => .ofResult (.ok .null), .raw step, rfl, ?_⟩
    rcases List.mem_cons.1 hs with rfl | hs
    · exact fun cx => ⟨_, rfl⟩
    · cases List.mem_singleton.1 hs
      exact fun cx => ⟨_, rfl⟩

def resenderActions (change : Headers → Headers) : List ResponseAction :=
  [.changeHeaders change, .setStatus ⟨202, by decide⟩]

theorem resenderActions_not_isSend (change : Headers → Headers) :
    ∀ action ∈ resenderActions change, ¬ action.IsSend := by
  intro action h
  rcases List.mem_pair.1 h with rfl | rfl <;> exact id

theorem resender_actsBy (change : Headers → Headers) :
    (resender change).ActsBy "" (bare "/") (resenderActions change ++
      .send (Response.ofText "first") ::
        [.setStatus Status.badRequest, .send (Response.ofText "second")]) := by
  have hf : ∃ calls final outcome,
      FollowsTable (resender change).shared ((resender change).routesFor (bare "/"))
        (((resender change).start "" (bare "/")).setBody .null) calls final outcome ∧
      ActBy calls (resenderActions change ++ .send (Response.ofText "first") ::
        [.setStatus Status.badRequest, .send (Response.ofText "second")]) := by
    refine ⟨_, _, _, .served (.go rfl rfl .done) ⟨_, List.mem_cons_self, .inl rfl⟩
      (.go rfl rfl (.go rfl rfl (.stop rfl rfl))), ?_⟩
    -- The router-level step, the mark, and the two steps of the route.
    exact @ActBy.cons _ _ [_] _ rfl (@ActBy.cons _ _ [] _ rfl
      (@ActBy.cons _ _ [_, _] _ rfl (@ActBy.cons _ _ [_, _] _ rfl .nil)))
  obtain ⟨calls, final, outcome, hf, ha⟩ := hf
  exact ⟨[], _, calls, final, outcome, ⟨rfl, ⟨.null, rfl, rfl⟩, hf⟩, ha⟩

def oneCookie (headers : Headers) : Headers :=
  headers.append "set-cookie" (Bytes.ofString "a=1")

theorem resender_keeps_first : (resender oneCookie).collaborators.handler = ErrorHandler.default ∧
    (resender oneCookie).Within Context.ActsTo ∧
    (resender oneCookie).ActsBy "" (bare "/") (resenderActions oneCookie ++
      .send (Response.ofText "first") ::
        [.setStatus Status.badRequest, .send (Response.ofText "second")]) ∧
    (∀ action ∈ resenderActions oneCookie, ¬ action.IsSend) ∧
    ((resender oneCookie).dispatch "" (bare "/")).response =
      ⟨⟨202, by decide⟩, ⟨[("content-type", Bytes.ofString "text/plain; charset=utf-8"),
        ("set-cookie", Bytes.ofString "a=1")]⟩, Bytes.ofString "first"⟩ := by
  have hw := resender_within oneCookie
  have ha := resender_actsBy oneCookie
  have hn := resenderActions_not_isSend oneCookie
  have hr := ((response_of_first_send rfl hw "" (bare "/")).2 _ _ _ ha hn).1
  exact ⟨rfl, hw, ha, hn, hr⟩

def twoCookies (headers : Headers) : Headers :=
  (headers.append "set-cookie" (Bytes.ofString "a=1")).append "set-cookie" (Bytes.ofString "b=2")

/-- Of two cookies, the first one does not reach the client. -/
theorem resender_loses_cookie : (resender twoCookies).collaborators.handler = ErrorHandler.default ∧
    (resender twoCookies).Within Context.ActsTo ∧
    ¬ (resender twoCookies).KeepsFirstSend "" (bare "/") := by
  refine ⟨rfl, resender_within _, fun h => ?_⟩
  have ha := resender_actsBy twoCookies
  have hn := resenderActions_not_isSend twoCookies
  obtain ⟨-, -, hv⟩ := h _ _ _ ha hn
  have hc := hv "set-cookie"
  rw [response_of_actsBy rfl ha hn, ResponseAction.values_rendered_eq_carried_iff] at hc
  exact absurd hc (by decide)

end Router

end QueryRouting
