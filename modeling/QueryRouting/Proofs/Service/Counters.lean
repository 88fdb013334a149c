import QueryRouting.Proofs.Chain.Accounts
import QueryRouting.Proofs.Chain.Frame
import QueryRouting.Proofs.Route.Answer
import QueryRouting.Service.Metrics

namespace QueryRouting

namespace Router

/--
What steps, hooks and the arguments of routes do with executors is accounted. The steps of a route
are those of arguments, where in each context the queries may go in a way of their own.
-/
structure Accounts (conducts : Conduct → Prop) (router : Router) : Prop where
  steps : ∀ step ∈ router.shared.steps, step.Accounts conducts
  hooks : ∀ hook ∈ router.shared.hooks, ∀ value, Step.Accounts conducts (hook.2 · value)
  arguments : ∀ entry ∈ router.paths, ∀ route ∈ entry.routes, ∀ step ∈ route.steps,
    ∃ argument : Argument, argument.Accounts conducts ∧
      ∀ cx, argument.MayRun conducts cx (step cx)

variable {router : Router} {fresh : String} {request : Request} {bytes : Bytes}
  {cx final : Context} {calls : List Call} {outcome : Except StepError Flow}
  {conducts : Conduct → Prop}

theorem Handles.accounted (h : router.Handles fresh request bytes cx calls final outcome)
    (ha : router.Accounts conducts) :
    ∀ c ∈ calls, ∃ batches, Accounted conducts batches c.run.events := by
  apply h.forall_call (p := fun _ _ run => ∃ batches, Accounted conducts batches run.events)
  · intro step hs i cx
    exact ha.steps step hs cx
  · intro hook hh i cx value
    exact ha.hooks hook hh value cx
  · intro r cx
    exact ⟨[], .nil⟩
  · intro entry he route hr step hs r j cx
    obtain ⟨argument, hacc, hrun⟩ := ha.arguments entry he route hr step hs
    exact (hrun cx).accounted hacc

theorem Accounts.dispatch (ha : router.Accounts conducts) (fresh : String) (request : Request) :
    ∃ batches, Accounted conducts batches (router.dispatch fresh request).events := by
  rcases router.refuses_or_handles fresh request with ⟨e, he⟩ | ⟨_, _, calls, _, _, h⟩
  · rw [he.events]
    exact ⟨[], .nil⟩
  · rw [h.events]
    exact Accounted.exists_flatMap (h.accounted ha)

/-- The ways for a request to leave a router. -/
inductive Departs (router : Router) (fresh : String) (request : Request) : Departure → Prop
  | refused {e : BodyError} (h : router.Refuses request e) : Departs router fresh request .error
  | failed {bytes : Bytes} {cx final : Context} {calls : List Call} {e : StepError}
      (h : router.Handles fresh request bytes cx calls final (.error e)) :
      Departs router fresh request .error
  | sent {bytes : Bytes} {cx final : Context} {calls : List Call} {flow : Flow}
      {response : Response} (h : router.Handles fresh request bytes cx calls final (.ok flow))
      (hs : final.response.sent = some response) : Departs router fresh request .sent
  | forwarded {bytes : Bytes} {cx final : Context} {calls : List Call} {flow : Flow}
      (h : router.Handles fresh request bytes cx calls final (.ok flow))
      (hs : final.response.sent = none) (hf : flow = .exitRouter ∨ final.matched = false) :
      Departs router fresh request .forwarded
  | result {bytes : Bytes} {cx final : Context} {calls : List Call} {flow : Flow}
      (h : router.Handles fresh request bytes cx calls final (.ok flow))
      (hs : final.response.sent = none) (hf : flow ≠ .exitRouter) (hm : final.matched = true) :
      Departs router fresh request .result

theorem Departs.dispatch {departure : Departure} (h : router.Departs fresh request departure) :
    (router.dispatch fresh request).departure = some departure := by
  cases h with
  | refused h => exact h.dispatch.2
  | failed h => exact h.dispatch_of_error.2
  | sent h hs => exact (h.dispatch_of_sent hs).2
  | forwarded h hs hf => exact (h.dispatch_of_forwarded hs hf).2
  | result h hs hf hm => exact (h.dispatch_of_result hs hf hm).2

theorem exists_departs (router : Router) (fresh : String) (request : Request) :
    ∃ departure, router.Departs fresh request departure := by
  rcases router.refuses_or_handles fresh request with ⟨e, he⟩ | ⟨_, _, _, final, outcome, h⟩
  · exact ⟨_, .refused he⟩
  · cases outcome with
    | error e => exact ⟨_, .failed h⟩
    | ok flow =>
      cases hs : final.response.sent with
      | some response => exact ⟨_, .sent h hs⟩
      | none =>
        by_cases hf : flow = .exitRouter ∨ final.matched = false
        · exact ⟨_, .forwarded h hs hf⟩
        · rw [not_or, Bool.not_eq_false] at hf
          exact ⟨_, .result h hs hf.1 hf.2⟩

theorem departs_iff {departure : Departure} : router.Departs fresh request departure ↔
    (router.dispatch fresh request).departure = some departure := by
  constructor
  · exact Departs.dispatch
  · intro h
    obtain ⟨other, ho⟩ := exists_departs router fresh request
    cases h.symm.trans ho.dispatch
    exact ho

theorem asksFallback_iff :
    (router.Departs fresh request .forwarded →
      router.AsksFallback fresh request (forwarded request)) ∧
    (¬ router.Departs fresh request .forwarded → router.IgnoresFallback fresh request) := by
  have hcases := router.dispatch_cases fresh request
  rw [departs_iff]
  rcases hcases with ⟨hd, -, hi⟩ | ⟨hd, -, ha⟩ | ⟨-, hd, -, hi⟩
  · rw [hd]
    exact ⟨nofun, fun _ => hi⟩
  · exact ⟨fun _ => ha, fun hn => absurd hd hn⟩
  · exact ⟨fun h => absurd h hd, fun _ => hi⟩

end Router

/-- A request that a router gets. -/
structure Dispatch where
  router : Router
  fresh : String
  request : Request

namespace Dispatch

def exchange (dispatch : Dispatch) : Exchange :=
  dispatch.router.serve dispatch.fresh dispatch.request

def Departs (dispatch : Dispatch) (departure : Departure) : Prop :=
  dispatch.router.Departs dispatch.fresh dispatch.request departure

instance (dispatch : Dispatch) (departure : Departure) : Decidable (dispatch.Departs departure) :=
  decidable_of_iff (dispatch.exchange.departure = some departure) Router.departs_iff.symm

/-- A request leaves its router in one way, is handed on in one of these, and shows its calls. -/
structure Settled (dispatch : Dispatch) : Prop where
  departs : ∃! departure, dispatch.Departs departure
  forwarded : dispatch.Departs .forwarded →
    dispatch.router.AsksFallback dispatch.fresh dispatch.request
      (Router.forwarded dispatch.request)
  kept : ¬ dispatch.Departs .forwarded →
    dispatch.router.IgnoresFallback dispatch.fresh dispatch.request
  refused : ∀ e, dispatch.router.Refuses dispatch.request e → dispatch.exchange.events = []
  called : ∀ bytes cx calls final outcome,
    dispatch.router.Handles dispatch.fresh dispatch.request bytes cx calls final outcome →
      dispatch.exchange.events = calls.flatMap (·.run.events)

theorem settled (dispatch : Dispatch) : dispatch.Settled where
  departs := by
    obtain ⟨departure, hd⟩ :=
      Router.exists_departs dispatch.router dispatch.fresh dispatch.request
    refine ⟨departure, hd, fun other ho => ?_⟩
    exact Option.some.inj (ho.dispatch.symm.trans hd.dispatch)
  forwarded := Router.asksFallback_iff.1
  kept := Router.asksFallback_iff.2
  refused _ h := h.events
  called _ _ _ _ _ h := h.events

end Dispatch

/-- Routers that hand requests on to each other, until something from outside answers. -/
inductive Cascade
  | outside (fallback : Fallback)
  | through (router : Router) (fresh : String) (next : Request → Cascade)

namespace Cascade

/-- The response to a request, and the requests that routers get on the way. -/
def answer : Cascade → Request → Response × List Dispatch
  | .outside fallback, request => (fallback request, [])
  | .through router fresh next, request =>
    let fallback : Fallback := fun handedOn => ((next handedOn).answer handedOn).1
    let dispatch : Dispatch := ⟨router.setFallback (some fallback), fresh, request⟩
    let handedOn := Router.forwarded request
    (dispatch.exchange.response, dispatch ::
      if dispatch.exchange.departure = some .forwarded then ((next handedOn).answer handedOn).2
      else [])

def Accounts (conducts : Conduct → Prop) : Cascade → Prop
  | .outside _ => True
  | .through router _ next =>
    router.Accounts conducts ∧ ∀ request, (next request).Accounts conducts

theorem Accounts.of_mem_answer {conducts : Conduct → Prop} {cascade : Cascade}
    (h : cascade.Accounts conducts) {request : Request} {dispatch : Dispatch}
    (hd : dispatch ∈ (cascade.answer request).2) : dispatch.router.Accounts conducts := by
  induction cascade generalizing request with
  | outside fallback => cases hd
  | through router fresh next ih =>
    rcases List.mem_cons.1 hd with rfl | hd
    · exact ⟨h.1.steps, h.1.hooks, h.1.arguments⟩
    · split at hd
      · exact ih _ (h.2 _) hd
      · cases hd

end Cascade

namespace Metric

theorem count_ofEvent (events : List Event) (backend : String) (succeeded : Bool) :
    (events.flatMap ofEvent).count (.queries backend succeeded) =
      (events.filterMap Event.ending?).countP (fun e => e.1 = backend ∧ e.2.2 = succeeded) := by
  induction events with
  | nil => rfl
  | cons event events ih =>
    rw [List.flatMap_cons, List.count_append, ih]
    cases event with
    | finished name query ok =>
      have hm : (Event.finished name query ok :: events).filterMap Event.ending? =
          (name, query, ok) :: events.filterMap Event.ending? := rfl
      rw [hm, List.countP_cons, Nat.add_comm]
      simp [ofEvent, List.count_cons]
    | started name query | sent request | note value => exact Nat.zero_add _

theorem notMem_ofEvent (events : List Event) (departure : Departure) :
    Metric.requests departure ∉ events.flatMap ofEvent := by
  intro hm
  obtain ⟨event, -, he⟩ := List.mem_flatMap.1 hm
  cases event with
  | finished name query succeeded => simp [ofEvent] at he
  | started name query | sent request | note value => cases he

theorem count_requests (exchanges : List Exchange) (departure : Departure) :
    (exchanges.flatMap ofExchange).count (.requests departure) =
      exchanges.countP (·.departure = some departure) := by
  induction exchanges with
  | nil => rfl
  | cons x rest ih =>
    rw [List.flatMap_cons, List.count_append, ih, List.countP_cons, Nat.add_comm, ofExchange,
      List.count_append, List.count_eq_zero.2 (notMem_ofEvent _ _), Nat.zero_add]
    cases x.departure <;> simp [List.count_cons]

theorem count_queries (exchanges : List Exchange) (backend : String) (succeeded : Bool) :
    (exchanges.flatMap ofExchange).count (.queries backend succeeded) =
      ((exchanges.flatMap (·.events)).filterMap Event.ending?).countP
        (fun e => e.1 = backend ∧ e.2.2 = succeeded) := by
  induction exchanges with
  | nil => rfl
  | cons x rest ih =>
    have hno : Metric.queries backend succeeded ∉ (x.departure.map .requests).toList := by
      cases x.departure <;> simp
    rw [List.flatMap_cons, List.count_append, ih, ofExchange, List.count_append, count_ofEvent,
      List.count_eq_zero.2 hno, Nat.add_zero, List.flatMap_cons, List.filterMap_append,
      List.countP_append]

end Metric

/-- The sum over the ways to leave a router. -/
def Departure.total (count : Departure → Nat) : Nat :=
  count .error + count .sent + count .forwarded + count .result

theorem Departure.total_countP {log : List Dispatch}
    (h : ∀ dispatch ∈ log, ∃! departure, dispatch.Departs departure) :
    (total fun departure => log.countP (·.Departs departure)) = log.length := by
  induction log with
  | nil => rfl
  | cons dispatch rest ih =>
    rw [List.forall_mem_cons] at h
    obtain ⟨departure, hd, hu⟩ := h.1
    have hone (other : Departure) : dispatch.Departs other ↔ departure = other :=
      ⟨fun ho => (hu other ho).symm, fun he => he ▸ hd⟩
    have hrest := ih h.2
    simp only [total, List.countP_cons, hone, List.length_cons, decide_eq_true_eq] at hrest ⊢
    cases departure <;> simp only [reduceCtorEq, if_true, if_false] <;> omega

namespace Recorder

def recordAll (recorder : Recorder) (exchanges : List Exchange) : Recorder :=
  exchanges.foldl record recorder

theorem recordAll_of_disabled {recorder : Recorder} (h : recorder.enabled = false)
    (exchanges : List Exchange) : recorder.recordAll exchanges = recorder := by
  induction exchanges with
  | nil => rfl
  | cons x rest ih =>
    rw [recordAll, List.foldl_cons, record, h]
    exact ih

theorem recordAll_of_enabled {recorder : Recorder} (h : recorder.enabled = true)
    (exchanges : List Exchange) : (recorder.recordAll exchanges).increments =
      recorder.increments ++ exchanges.flatMap Metric.ofExchange := by
  induction exchanges generalizing recorder with
  | nil => exact (List.append_nil _).symm
  | cons x rest ih =>
    rw [recordAll, List.foldl_cons, record, if_pos h, List.flatMap_cons, ← List.append_assoc]
    exact ih h

theorem count_recordAll {recorder : Recorder} (h : recorder.enabled = true)
    (exchanges : List Exchange) (m : Metric) : (recorder.recordAll exchanges).count m =
      recorder.count m + (exchanges.flatMap Metric.ofExchange).count m := by
  rw [count, recordAll_of_enabled h, List.count_append]
  rfl

end Recorder

/-- What counters show of requests: each counts once, and so does each query, as they ended. -/
structure Counted (conducts : Conduct → Prop) (before after : Recorder) (log : List Dispatch) :
    Prop where
  requests : ∀ departure, after.count (.requests departure) =
    before.count (.requests departure) + log.countP (·.Departs departure)
  total : (Departure.total fun departure => after.count (.requests departure)) =
    (Departure.total fun departure => before.count (.requests departure)) + log.length
  queries : ∃ batches, Accounted conducts batches (log.flatMap (·.exchange.events)) ∧
    ∀ backend succeeded, after.count (.queries backend succeeded) =
      before.count (.queries backend succeeded) + (batches.flatMap Batch.calls).countP fun call =>
        call.conduct.backend = backend ∧ call.succeeded = succeeded

namespace Recorder

variable {recorder : Recorder} {conducts : Conduct → Prop} {log : List Dispatch}

theorem counted (h : recorder.enabled = true)
    (ha : ∀ dispatch ∈ log, dispatch.router.Accounts conducts) :
    Counted conducts recorder (recorder.recordAll (log.map (·.exchange))) log := by
  have hrequests : ∀ departure,
      (recorder.recordAll (log.map (·.exchange))).count (.requests departure) =
        recorder.count (.requests departure) + log.countP (·.Departs departure) := by
    intro departure
    rw [count_recordAll h, Metric.count_requests, List.countP_map]
    congr 1
    apply List.countP_congr
    intro dispatch _
    simp only [Function.comp_apply, decide_eq_true_eq]
    exact Router.departs_iff.symm
  refine ⟨hrequests, ?_, ?_⟩
  · rw [← Departure.total_countP fun dispatch (_ : dispatch ∈ log) => dispatch.settled.departs]
    simp only [Departure.total, hrequests]
    omega
  · obtain ⟨batches, hb⟩ : ∃ batches,
        Accounted conducts batches (log.flatMap (·.exchange.events)) :=
      Accounted.exists_flatMap fun dispatch hd =>
        (ha dispatch hd).dispatch dispatch.fresh dispatch.request
    refine ⟨batches, hb, fun backend succeeded => ?_⟩
    rw [count_recordAll h, Metric.count_queries, List.flatMap_map, hb.ended.countP_eq,
      List.countP_map]
    rfl

/--
However requests come to routers and from there to others, while recording is on each of them
counts once, for the way in which it left its router, and each query that an executor was called
with counts once, for the outcome of this call, which may differ between calls with the same query.
What is not called does not count, nor does a template that fails. While recording is off nothing
counts.
-/
theorem recordAll_counts {traffic : List (Cascade × Request)}
    (ha : ∀ entry ∈ traffic, entry.1.Accounts conducts) (recorder : Recorder) :
    let log := traffic.flatMap fun entry => (entry.1.answer entry.2).2
    let after := recorder.recordAll (log.map (·.exchange))
    (recorder.enabled = true → Counted conducts recorder after log) ∧
    (recorder.enabled = false → after = recorder) ∧
    (∀ dispatch ∈ log, dispatch.Settled) ∧
    ∀ (argument : Argument) templates cx run e, argument.Queries templates →
      argument.MayRun (fun _ => True) cx run → run.outcome = .error (.template e) →
        run.events = [] := by
  refine ⟨fun h => counted h fun dispatch hd => ?_, fun h => recordAll_of_disabled h _,
    fun dispatch _ => dispatch.settled, ?_⟩
  · obtain ⟨entry, he, hm⟩ := List.mem_flatMap.1 hd
    exact (ha entry he).of_mem_answer hm
  · intro argument templates cx run e hq hr he
    exact hq.events_of_template hr he

/-- Answers nothing by itself. -/
def front : Router where
  paths := []
  shared := ⟨[], []⟩
  collaborators := ⟨ErrorHandler.default, none⟩
  responseHeaders := []
  bodyLimit := Builder.defaultBodyLimit

/-- The first query of a step fails at once, and those behind it succeed late. -/
def flaky : Conduct :=
  ⟨"custom", fun i _ => if i = 0 then .ofResult (.error (.driver "boom"))
    else ⟨.ok (.str "late"), 3, []⟩⟩

/-- Runs a query, and behind it a map of twice the same one, which fails at first. -/
def back : Router :=
  { front with
    paths := [⟨[.literal '/', .parameter "id"],
      [⟨.any, [Step.query Argument.halfFailing "wait",
        QueryMap.stepOf flaky [("bad", "again"), ("slow", "again")]]⟩]⟩] }

def frontAndBack : Cascade :=
  .through front "" fun _ =>
    .through back "" fun _ => .outside fun _ => Response.empty Status.notFound

def FlakyOrFixed (conduct : Conduct) : Prop :=
  conduct = flaky ∨ conduct = Argument.halfFailing.conduct

theorem frontAndBack_accounts : frontAndBack.Accounts FlakyOrFixed := by
  refine ⟨⟨nofun, nofun, nofun⟩, fun _ => ⟨⟨nofun, nofun, ?_⟩, fun _ => trivial⟩⟩
  intro entry he route hr step hs
  cases List.mem_singleton.1 he
  cases List.mem_singleton.1 hr
  rcases List.mem_pair.1 hs with rfl | rfl
  · exact ⟨.query "wait", trivial, Argument.mayRun_of_compile (.inr rfl) rfl⟩
  · exact ⟨.queryMap _, trivial, .plain (.inl rfl) rfl⟩

/-- One request counts for both routers, and so do all queries, also the late one of the map. -/
theorem recordAll_counts_frontAndBack :
    let log := (frontAndBack.answer (Router.bare "/b")).2
    let after := Recorder.recordAll ⟨true, []⟩ (log.map (·.exchange))
    frontAndBack.Accounts FlakyOrFixed ∧
      after.count (.requests .forwarded) = 1 ∧ after.count (.requests .error) = 1 ∧
      (Departure.total fun departure => after.count (.requests departure)) = 2 ∧
      (∀ dispatch ∈ log, dispatch.Settled) ∧
      ∃ batches, Accounted FlakyOrFixed batches (log.flatMap (·.exchange.events)) ∧
        ((batches.flatMap Batch.calls).countP fun call =>
          call.conduct.backend = "custom" ∧ call.succeeded = true) = 2 ∧
        ((batches.flatMap Batch.calls).countP fun call =>
          call.conduct.backend = "custom" ∧ call.succeeded = false) = 1 := by
  intro log after
  have ha : ∀ entry ∈ [(frontAndBack, Router.bare "/b")], entry.1.Accounts FlakyOrFixed := by
    intro entry he
    cases List.mem_singleton.1 he
    exact frontAndBack_accounts
  obtain ⟨hcounted, -, hsettled, -⟩ := recordAll_counts ha ⟨true, []⟩
  rw [List.flatMap_singleton] at hcounted hsettled
  obtain ⟨batches, hbatches, hqueries⟩ := (hcounted rfl).queries
  have hok := hqueries "custom" true
  have herror := hqueries "custom" false
  have hok' : after.count (.queries "custom" true) = 2 := by decide +kernel
  have herror' : after.count (.queries "custom" false) = 1 := by decide +kernel
  refine ⟨frontAndBack_accounts, by decide +kernel, by decide +kernel, by decide +kernel, hsettled,
    batches, hbatches, ?_, ?_⟩
  · exact (Nat.zero_add _).symm.trans (hok.symm.trans hok')
  · exact (Nat.zero_add _).symm.trans (herror.symm.trans herror')

end Recorder

end QueryRouting
