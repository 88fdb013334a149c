import QueryRouting.Proofs.Service.BodyLimit

namespace QueryRouting

/-- There is no id yet, or the first one can be read and is not empty. -/
def Headers.LegibleId (headers : Headers) : Prop :=
  ∀ value, headers.get? Request.idHeader = some value →
    ∃ text, Headers.visible? value = some text ∧ text ≠ ""

namespace Router

/-- Whoever sees a context of the request sees this id. -/
structure ShowsId (router : Router) (fresh : String) (request : Request) (id : String) : Prop where
  start : (router.start fresh request).requestId = id
  calls {bytes : Bytes} {cx final : Context} {calls : List Call}
    {outcome : Except StepError Flow}
    (h : router.Handles fresh request bytes cx calls final outcome) :
    ∀ c ∈ calls, c.before.requestId = id ∧ c.run.context.requestId = id
  final {bytes : Bytes} {cx final : Context} {calls : List Call}
    {outcome : Except StepError Flow}
    (h : router.Handles fresh request bytes cx calls final outcome) : final.requestId = id

variable {router : Router} {fresh : String} {request : Request} {bytes : Bytes}
  {cx final : Context} {calls : List Call} {outcome : Except StepError Flow}

theorem Handles.requestId (h : router.Handles fresh request bytes cx calls final outcome) :
    cx.requestId = (router.start fresh request).requestId := by
  obtain ⟨body, -, rfl⟩ := h.parsed
  rfl

/-- In the run of the request, no call puts a context with another id in the place of its own. -/
def KeepsId (router : Router) (fresh : String) (request : Request) : Prop :=
  ∀ ⦃bytes : Bytes⦄ ⦃cx final : Context⦄ ⦃calls : List Call⦄ ⦃outcome : Except StepError Flow⦄,
    router.Handles fresh request bytes cx calls final outcome →
      ∀ c ∈ calls, c.run.context.requestId = c.before.requestId

theorem KeepsId.showsId (hk : router.KeepsId fresh request) :
    router.ShowsId fresh request (router.start fresh request).requestId where
  start := rfl
  calls h c hc := by
    have hbefore := h.follows.chained.keeps_before
      (p := fun cx => cx.requestId = (router.start fresh request).requestId) h.requestId
      (fun c hc hb => (hk h c hc).trans hb) c hc
    exact ⟨hbefore, (hk h c hc).trans hbefore⟩
  final h := h.follows.chained.keeps
    (p := fun cx => cx.requestId = (router.start fresh request).requestId) h.requestId
    fun c hc hb => (hk h c hc).trans hb

end Router

namespace Server

variable {fresh : String} {request : Request} {response : Response} {value : Bytes}

theorem values_propagate (hg : request.headers.get? Request.idHeader = some value)
    (hn : response.headers.contains Request.idHeader = false) :
    (propagate request response).headers.values Request.idHeader = [value] := by
  rw [propagate, hg]
  simp only [hn, Bool.false_eq_true, if_false]
  exact Headers.values_insert_self

/-- The id that steps see is the one in a header just if that can be read and is not empty. -/
theorem ofString_idOf_iff {headers : Headers}
    (hv : Headers.visible? (Bytes.ofString fresh) = some fresh) (hne : fresh ≠ "")
    (hg : headers.get? Request.idHeader = some value) :
    Bytes.ofString (Request.idOf headers fresh) = value ↔ headers.LegibleId := by
  -- A fresh id is legible, so it is in no header that is not.
  have hfresh (h : ¬ headers.LegibleId) : Bytes.ofString fresh ≠ value := by
    rintro rfl
    apply h
    intro other ho
    cases hg.symm.trans ho
    exact ⟨fresh, hv, hne⟩
  rw [Request.idOf, Headers.text?, hg, Option.bind_some]
  cases ht : Headers.visible? value with
  | none =>
    have hn : ¬ headers.LegibleId := by
      intro hl
      obtain ⟨text, hs, -⟩ := hl value hg
      cases ht.symm.trans hs
    exact iff_of_false (hfresh hn) hn
  | some text =>
    dsimp only
    by_cases he : text = ""
    · have hn : ¬ headers.LegibleId := by
        intro hl
        obtain ⟨other, hs, ho⟩ := hl value hg
        exact ho (Option.some.inj (hs.symm.trans (ht.trans (congrArg some he))))
      rw [if_pos (String.isEmpty_iff.2 he)]
      exact iff_of_false (hfresh hn) hn
    · rw [if_neg (mt String.isEmpty_iff.1 he)]
      refine iff_of_true (Headers.ofString_of_visible? ht) fun other ho => ?_
      cases hg.symm.trans ho
      exact ⟨text, ht, he⟩

theorem get?_identify (hv : Headers.visible? (Bytes.ofString fresh) = some fresh)
    (hne : fresh ≠ "") (request : Request) : ∃ value,
      (identify fresh request).headers.get? Request.idHeader = some value ∧
      (Bytes.ofString (Request.idOf (identify fresh request).headers fresh) = value ↔
        request.headers.LegibleId) := by
  rw [identify]
  split
  · rename_i hc
    obtain ⟨value, hg⟩ := Headers.contains_iff.1 hc
    exact ⟨value, hg, ofString_idOf_iff hv hne hg⟩
  · rename_i hc
    have hg : (request.headers.insert Request.idHeader (Bytes.ofString fresh)).get?
        Request.idHeader = some (Bytes.ofString fresh) := by
      rw [Headers.get?, Headers.values_insert_self]
      rfl
    refine ⟨_, hg, ?_⟩
    dsimp only
    rw [ofString_idOf_iff hv hne hg]
    refine iff_of_true (fun value h => ?_) fun value h => ?_
    · cases hg.symm.trans h
      exact ⟨fresh, hv, hne⟩
    · exact absurd (Headers.contains_iff.2 ⟨value, h⟩) hc

/-- The request that gets to the router, unless it announces too much. -/
def admitted (config : ServerConfig) (fresh : String) (request : Request) : Request :=
  cut config.bodyLimitBytes (seen config fresh request)

theorem wrap_of_not_overannounces {config : ServerConfig}
    (h : ¬ Overannounces config.bodyLimitBytes request.headers) (inner : Service)
    (fresh : String) : wrap config inner fresh request =
      { inner fresh (admitted config fresh request) with
        response := shown config (seen config fresh request)
          (inner fresh (admitted config fresh request)).response } := by
  have hseen : ¬ Overannounces config.bodyLimitBytes (seen config fresh request).headers := by
    obtain ⟨headers, hs, hl⟩ := seen_eq config fresh request
    rw [hs]
    simp only [Overannounces, hl]
    exact h
  rw [wrap_apply, unlimited_apply, withBodyLimit_of_not_overannounces hseen, admitted]

/--
A request that a server gives an id and hands to its router comes back with one id, if the router
sets none on the response. It is the id that all steps see just if the request has none of its own
or one that can be read and is not empty. Otherwise the steps see a fresh one, and the client gets
its own one back.
-/
theorem wrap_requestId {config : ServerConfig} {router : Router} (hc : config.requestId = true)
    (hv : Headers.visible? (Bytes.ofString fresh) = some fresh) (hne : fresh ≠ "")
    (hl : ¬ Overannounces config.bodyLimitBytes request.headers)
    (hn : (router.serve fresh (admitted config fresh request)).response.headers.contains
      Request.idHeader = false) :
    let answer := wrap config router.serve fresh request
    let admitted := admitted config fresh request
    let id := (router.start fresh admitted).requestId
    (∃ response, answer = { router.serve fresh admitted with response }) ∧
    (∃ value, answer.response.headers.values Request.idHeader = [value]) ∧
    (answer.response.headers.values Request.idHeader = [Bytes.ofString id] ↔
      request.headers.LegibleId) ∧
    (router.KeepsId fresh admitted → router.ShowsId fresh admitted id) := by
  intro answer admitted id
  have hanswer : answer = _ := wrap_of_not_overannounces hl router.serve fresh
  have hseen : seen config fresh request = identify fresh request := by
    rw [seen, if_pos hc]
  obtain ⟨value, hg, hiff⟩ := get?_identify hv hne request
  have hid : id = Request.idOf (identify fresh request).headers fresh := by
    rw [← hseen]
    rfl
  have hvalues : answer.response.headers.values Request.idHeader = [value] := by
    rw [hanswer, shown, if_pos hc, hseen]
    exact values_propagate hg hn
  refine ⟨⟨_, hanswer⟩, ⟨value, hvalues⟩, ?_, fun hk => hk.showsId⟩
  rw [hvalues, hid, ← hiff, List.cons.injEq, and_iff_left rfl, eq_comm]

/-- A request that comes with an id. -/
def named (id : Bytes) : Request :=
  { Router.posted [1] with headers := Headers.empty.append Request.idHeader id }

theorem narrow_keepsId (fresh : String) (request : Request) :
    Router.narrow.KeepsId fresh request := by
  intro bytes cx final calls outcome h
  apply h.forall_call (p := fun _ cx run => run.context.requestId = cx.requestId) ?_ nofun
    (fun _ _ => rfl) nofun
  intro step hs i cx
  cases List.mem_singleton.1 hs
  rfl

theorem not_overannounces_named (id : Bytes) :
    ¬ Overannounces spacious.bodyLimitBytes (named id).headers := by
  intro h
  obtain ⟨length, hl, -⟩ := h
  have hn : contentLength? (named id).headers = none := rfl
  cases hn.symm.trans hl

theorem visible?_fresh : Headers.visible? (Bytes.ofString "fresh") = some "fresh" := by
  decide +kernel

theorem wrap_requestId_named :
    let request := named (Bytes.ofString "abc")
    let admitted := admitted spacious "fresh" request
    (wrap spacious Router.narrow.serve "fresh" request).response.headers.values
        Request.idHeader = [Bytes.ofString "abc"] ∧
      Router.narrow.ShowsId "fresh" admitted "abc" ∧
      ∃ bytes cx calls final outcome,
        Router.narrow.Handles "fresh" admitted bytes cx calls final outcome := by
  intro request admitted
  have hlegible : request.headers.LegibleId := by
    intro value hg
    have hvalue : request.headers.get? Request.idHeader = some (Bytes.ofString "abc") := rfl
    cases hvalue.symm.trans hg
    exact ⟨"abc", by decide +kernel, by decide⟩
  have hid : (Router.narrow.start "fresh" admitted).requestId = "abc" := by decide +kernel
  have hn : (Router.narrow.serve "fresh" admitted).response.headers.contains
      Request.idHeader = false := by decide +kernel
  have hc : spacious.requestId = true := rfl
  obtain ⟨-, -, hiff, hshows⟩ :=
    wrap_requestId hc visible?_fresh (by decide) (not_overannounces_named _) hn
  rw [hid] at hiff hshows
  have hunbroken : Body.Unbroken admitted.body := by
    intro event he
    exact ⟨[1], List.mem_singleton.1 he⟩
  have hadmits : Router.narrow.Admits admitted :=
    ⟨hunbroken, by decide +kernel, fun _ hf => absurd hf (by decide +kernel)⟩
  exact ⟨hiff.2 hlegible, hshows (narrow_keepsId _ _), hadmits.exists_handles "fresh"⟩

/-- An empty id comes back, but the step sees a fresh one. -/
theorem not_requestId_of_empty : ¬ ∀ (config : ServerConfig) (router : Router) (fresh : String)
    (request : Request), config.requestId = true →
      Headers.visible? (Bytes.ofString fresh) = some fresh → fresh ≠ "" →
      ¬ Overannounces config.bodyLimitBytes request.headers →
      (router.serve fresh (admitted config fresh request)).response.headers.contains
        Request.idHeader = false →
      ∀ id, router.ShowsId fresh (admitted config fresh request) id →
        (wrap config router.serve fresh request).response.headers.values Request.idHeader =
          [Bytes.ofString id] := by
  intro h
  have hvalues := h spacious Router.narrow "fresh" (named []) rfl visible?_fresh (by decide)
    (not_overannounces_named []) (by decide +kernel) _ (narrow_keepsId _ _).showsId
  exact absurd hvalues (by decide +kernel)

end Server

end QueryRouting
