import QueryRouting.Proofs.Message.Headers
import QueryRouting.Proofs.Route.Fallback
import QueryRouting.Service.Server

namespace QueryRouting

namespace Server

variable {limit : Nat} {events : List BodyEvent}

/-- What a request may bring that does not announce too much. -/
def room (limit : Nat) (headers : Headers) : Nat :=
  match contentLength? headers with
  | some length => min limit length
  | none => limit

/-- The request with no more of its body than there is room for. -/
def cut (limit : Nat) (request : Request) : Request :=
  { request with body := limitStream (room limit request.headers) request.body }

def Overannounces (limit : Nat) (headers : Headers) : Prop :=
  ∃ length, contentLength? headers = some length ∧ limit < length

theorem room_le (limit : Nat) (headers : Headers) : room limit headers ≤ limit := by
  rw [room]
  split
  · exact Nat.min_le_left _ _
  · exact Nat.le_refl limit

theorem withBodyLimit_of_overannounces {request : Request}
    (h : Overannounces limit request.headers) (inner : Service) (fresh : String) :
    withBodyLimit limit inner fresh request = tooLong request.method := by
  obtain ⟨length, hl, ho⟩ := h
  rw [withBodyLimit, hl]
  exact if_pos ho

theorem withBodyLimit_of_not_overannounces {request : Request}
    (h : ¬ Overannounces limit request.headers) (inner : Service) (fresh : String) :
    withBodyLimit limit inner fresh request = inner fresh (cut limit request) := by
  rw [withBodyLimit, cut, room]
  cases hl : contentLength? request.headers with
  | none => rfl
  | some length => exact if_neg fun ho => h ⟨length, hl, ho⟩

theorem limitStream_of_fits (h : (Body.arriving events).length ≤ limit) :
    limitStream limit events = events := by
  induction events generalizing limit with
  | nil => rfl
  | cons event rest ih =>
    cases event with
    | failure text => rfl
    | chunk chunk =>
      rw [Body.arriving, List.length_append] at h
      rw [limitStream, if_neg (by omega), ih (by omega)]

/-- Of two limits, the one that is passed by less decides how the excess is seen. -/
theorem readOnto_limitStream {outer inner n : Nat} {buffered : Bytes}
    (hb : buffered.length ≤ min outer inner)
    (hp : Body.passing? (min outer inner) buffered.length events = some n) :
    Body.readOnto inner buffered (limitStream (outer - buffered.length) events) =
      .error (if outer < n then .broken "length limit exceeded" else .tooLarge inner) := by
  induction events generalizing buffered with
  | nil => cases hp
  | cons event rest ih =>
    cases event with
    | failure text => cases hp
    | chunk chunk =>
      rw [Body.passing?] at hp
      rw [limitStream]
      -- The stream fails with this chunk, or the router counts too much, or both let it pass.
      by_cases ho : outer < buffered.length + chunk.length
      · rw [if_pos (by omega)] at hp
        cases hp
        rw [if_pos (by omega), if_pos ho, Body.readOnto]
      · rw [if_neg (by omega), Body.readOnto]
        by_cases hi : inner < buffered.length + chunk.length
        · rw [if_pos (by omega)] at hp
          cases hp
          rw [if_pos hi, if_neg ho]
        · rw [if_neg (by omega), ← List.length_append] at hp
          rw [if_neg hi, Nat.sub_sub, ← List.length_append]
          apply ih _ hp
          rw [List.length_append]
          omega

theorem read_limitStream {outer inner n : Nat}
    (h : Body.passing? (min outer inner) 0 events = some n) :
    ∃ e, Body.read inner (limitStream outer events) = .error e ∧
      (n ≤ outer → ErrorHandler.statusOf (.ofBody e) = Status.payloadTooLarge) ∧
      (¬ n ≤ outer → ErrorHandler.statusOf (.ofBody e) = Status.badRequest) := by
  refine ⟨_, readOnto_limitStream (Nat.zero_le _) h, fun hn => ?_, fun hn => ?_⟩
  · rw [if_neg (Nat.not_lt.2 hn)]
    rfl
  · rw [if_pos (Nat.not_le.1 hn)]
    rfl

theorem contentLength?_identify (fresh : String) (request : Request) :
    contentLength? (identify fresh request).headers = contentLength? request.headers := by
  rw [identify]
  split
  · rfl
  · rw [contentLength?, Headers.text?_insert_of_ne (by decide), contentLength?]

theorem identify_eq (fresh : String) (request : Request) : ∃ headers,
    identify fresh request = { request with headers } ∧
      contentLength? headers = contentLength? request.headers := by
  have hl := contentLength?_identify fresh request
  rw [identify] at hl ⊢
  split at hl
  · rename_i hc
    rw [if_pos hc]
    exact ⟨_, rfl, rfl⟩
  · rename_i hc
    rw [if_neg hc]
    exact ⟨_, rfl, hl⟩

theorem status_propagate (request : Request) (response : Response) :
    (propagate request response).status = response.status := by
  rw [propagate]
  split
  · split <;> rfl
  · rfl

end Server

namespace Router

theorem status_stripBody (method : Method) (response : Response) :
    (stripBody method response).status = response.status := by
  rw [stripBody]
  split <;> rfl

/-- What the default handler makes of a body that cannot be read. -/
def refusal (router : Router) (method : Method) (e : BodyError) : Exchange :=
  ⟨stripBody method (addHeaders router.responseHeaders
    (Response.empty (ErrorHandler.statusOf (.ofBody e)))), some .error, []⟩

theorem Refuses.serve {router : Router} {request : Request} {e : BodyError}
    (h : router.Refuses request e) (hd : router.collaborators.handler = ErrorHandler.default)
    (fresh : String) : router.serve fresh request = router.refusal request.method e := by
  have hdep : (router.dispatch fresh request).departure = some .error := h.dispatch.2
  have hr : (router.dispatch fresh request).response = _ := h.dispatch.1
  rw [hd] at hr
  rw [Router.serve, hr, hdep, h.events]
  rfl

end Router

namespace Server

/-- Whoever finds that the body is too long takes it for that, and not for a broken one. -/
def Notices (config : ServerConfig) (router : Router) (request : Request) : Prop :=
  Overannounces config.bodyLimitBytes request.headers ∨
    ∃ arrived, Body.passing? (min (room config.bodyLimitBytes request.headers) router.bodyLimit) 0
      request.body = some arrived ∧ arrived ≤ room config.bodyLimitBytes request.headers

/-- The layers of a server but for its limit. -/
def unlimited (config : ServerConfig) (inner : Service) : Service :=
  if config.requestId then withRequestId inner else inner

def seen (config : ServerConfig) (fresh : String) (request : Request) : Request :=
  if config.requestId then identify fresh request else request

def shown (config : ServerConfig) (request : Request) (response : Response) : Response :=
  if config.requestId then propagate request response else response

variable {config : ServerConfig} {router : Router} {fresh : String} {request : Request}

theorem unlimited_apply (config : ServerConfig) (inner : Service) (fresh : String)
    (request : Request) : unlimited config inner fresh request =
      { inner fresh (seen config fresh request) with
        response := shown config (seen config fresh request)
          (inner fresh (seen config fresh request)).response } := by
  rw [unlimited, seen]
  cases hr : config.requestId with
  | false => simp [shown, hr]
  | true => simp [shown, hr, withRequestId]

theorem wrap_apply (config : ServerConfig) (inner : Service) (fresh : String)
    (request : Request) : wrap config inner fresh request =
      unlimited config (withBodyLimit config.bodyLimitBytes inner) fresh request := rfl

theorem seen_eq (config : ServerConfig) (fresh : String) (request : Request) : ∃ headers,
    seen config fresh request = { request with headers } ∧
      contentLength? headers = contentLength? request.headers := by
  rw [seen]
  split
  · exact identify_eq fresh request
  · exact ⟨request.headers, rfl, rfl⟩

theorem status_shown (config : ServerConfig) (request : Request) (response : Response) :
    (shown config request response).status = response.status := by
  rw [shown]
  split
  · exact status_propagate request response
  · rfl

theorem notices_iff {headers : Headers}
    (h : contentLength? headers = contentLength? request.headers) :
    Notices config router { request with headers } ↔ Notices config router request := by
  simp only [Notices, Overannounces, room, h]

/-- The answers to a body that passes a limit: the same for all paths and steps of the router. -/
theorem withBodyLimit_of_oversized (hd : router.collaborators.handler = ErrorHandler.default)
    (h : min config.bodyLimitBytes router.bodyLimit < (Body.arriving request.body).length)
    (fresh : String) : ∃ answer : Exchange, answer.events = [] ∧
      (∀ paths shared, withBodyLimit config.bodyLimitBytes
        { router with paths, shared }.serve fresh request = answer) ∧
      (Notices config router request → answer.response.status = Status.payloadTooLarge) ∧
      (¬ Notices config router request → answer.response.status = Status.badRequest) := by
  by_cases ho : Overannounces config.bodyLimitBytes request.headers
  · refine ⟨tooLong request.method, rfl, ?_, fun _ => Router.status_stripBody _ _,
      fun hn => absurd (.inl ho) hn⟩
    intro paths shared
    exact withBodyLimit_of_overannounces ho _ fresh
  · have hroom := room_le config.bodyLimitBytes request.headers
    obtain ⟨n, hn⟩ : ∃ n, Body.passing? (min (room config.bodyLimitBytes request.headers)
        router.bodyLimit) 0 request.body = some n := by
      rw [← Option.ne_none_iff_exists', Ne, Body.passing?_eq_none_iff (Nat.zero_le _)]
      omega
    have hnotices : Notices config router request ↔
        n ≤ room config.bodyLimitBytes request.headers := by
      rw [Notices, or_iff_right ho, hn]
      simp only [Option.some.injEq, exists_eq_left']
    obtain ⟨e, hread, hstatus⟩ := read_limitStream hn
    refine ⟨router.refusal request.method e, rfl, fun paths shared => ?_, ?_⟩
    · have hrefuses : ({ router with paths, shared } : Router).Refuses
          (cut config.bodyLimitBytes request) e := .unread hread
      rw [withBodyLimit_of_not_overannounces ho, hrefuses.serve hd]
      rfl
    · rw [hnotices, Router.refusal, Router.status_stripBody]
      exact hstatus

/--
Under the default error handler a body that is too long for the server or its router is answered
before any step, whatever the paths and steps of the router are. The status says so just if somebody
notices the excess; otherwise it is the one of a broken body. A body that fits both limits, with a
length as announced, is too large for neither, and the limit of the server does not show.
-/
theorem wrap_bodyLimit (config : ServerConfig)
    (hd : router.collaborators.handler = ErrorHandler.default) (fresh : String)
    (request : Request) :
    let answer := wrap config router.serve fresh request
    let length := (Body.arriving request.body).length
    (min config.bodyLimitBytes router.bodyLimit < length →
      (∀ paths shared, wrap config { router with paths, shared }.serve fresh request = answer) ∧
      answer.events = [] ∧
      (Notices config router request → answer.response.status = Status.payloadTooLarge) ∧
      (¬ Notices config router request → answer.response.status = Status.badRequest)) ∧
    (length ≤ min config.bodyLimitBytes router.bodyLimit →
      (∀ announced, contentLength? request.headers = some announced → announced = length) →
      (∀ limit, Body.read router.bodyLimit request.body ≠ .error (.tooLarge limit)) ∧
      answer = unlimited config router.serve fresh request) := by
  intro answer length
  obtain ⟨headers, hs, hl⟩ := seen_eq config fresh request
  constructor
  · intro h
    have h' : min config.bodyLimitBytes router.bodyLimit <
        (Body.arriving ({ request with headers } : Request).body).length := h
    obtain ⟨limited, hevents, hsame, hstatus⟩ := withBodyLimit_of_oversized hd h' fresh
    have hw (paths : List RegisteredPath) (shared : Shared) :
        wrap config { router with paths, shared }.serve fresh request =
          { limited with
            response := shown config { request with headers } limited.response } := by
      rw [wrap_apply, unlimited_apply, hs, hsame]
    have hanswer : answer = _ := hw router.paths router.shared
    rw [hanswer, status_shown, ← notices_iff hl]
    exact ⟨hw, hevents, hstatus⟩
  · intro h ha
    have hle := Nat.le_min.1 h
    refine ⟨fun limit => Body.read_ne_tooLarge hle.2, ?_⟩
    have hno : ¬ Overannounces config.bodyLimitBytes headers := by
      rintro ⟨announced, hannounced, ho⟩
      rw [ha announced (hl.symm.trans hannounced)] at ho
      omega
    have hroom : length ≤ room config.bodyLimitBytes headers := by
      rw [room, hl]
      split
      · rename_i announced hannounced
        rw [ha announced hannounced]
        exact Nat.le_min.2 ⟨hle.1, Nat.le_refl _⟩
      · exact hle.1
    have hw : withBodyLimit config.bodyLimitBytes router.serve fresh { request with headers } =
        router.serve fresh { request with headers } := by
      rw [withBodyLimit_of_not_overannounces hno]
      simp only [cut, limitStream_of_fits hroom]
    show unlimited config _ fresh request = _
    rw [unlimited_apply, unlimited_apply, hs, hw]

/-- Four bytes of room in the router, and eight in the server in front of it. -/
def spacious : ServerConfig :=
  { bodyLimitBytes := 8 }

theorem wrap_bodyLimit_spacious :
    Router.narrow.collaborators.handler = ErrorHandler.default ∧
      (wrap spacious Router.narrow.serve "" (Router.posted [1, 2, 3, 4, 5])).response.status =
        Status.payloadTooLarge ∧
      wrap spacious Router.narrow.serve "" (Router.posted [1, 2, 3, 4]) =
        unlimited spacious Router.narrow.serve "" (Router.posted [1, 2, 3, 4]) := by
  have hd : Router.narrow.collaborators.handler = ErrorHandler.default := rfl
  obtain ⟨hlong, -⟩ := wrap_bodyLimit spacious hd "" (Router.posted [1, 2, 3, 4, 5])
  obtain ⟨-, hshort⟩ := wrap_bodyLimit spacious hd "" (Router.posted [1, 2, 3, 4])
  have hl : contentLength? (Router.posted [1, 2, 3, 4]).headers = none := by decide +kernel
  have hn : Notices spacious Router.narrow (Router.posted [1, 2, 3, 4, 5]) :=
    .inr ⟨5, by decide +kernel, by decide +kernel⟩
  refine ⟨hd, (hlong (by decide +kernel)).2.2.1 hn, (hshort (by decide +kernel) ?_).2⟩
  intro announced ha
  cases hl.symm.trans ha

/-- Where both have the same room, the server breaks a body off that announces no length. -/
theorem not_payloadTooLarge_of_oversized : ¬ ∀ (config : ServerConfig) (router : Router)
    (fresh : String) (request : Request),
      router.collaborators.handler = ErrorHandler.default →
      min config.bodyLimitBytes router.bodyLimit < (Body.arriving request.body).length →
      (wrap config router.serve fresh request).response.status = Status.payloadTooLarge := by
  intro h
  have hs := h { bodyLimitBytes := 4 } Router.narrow "" (Router.posted [1, 2, 3, 4, 5]) rfl
    (by decide)
  exact absurd hs (by decide +kernel)

end Server

end QueryRouting
