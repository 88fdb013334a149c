import QueryRouting.Proofs.Chain.HeaderEdits

namespace QueryRouting

/-- The body that shows a result: none, a text, or a value as JSON. -/
inductive ShowsResult : Option Json → Response → Prop
  | nothing : ShowsResult none ⟨Status.ok, Headers.empty, []⟩
  | text (s : String) : ShowsResult (some (.str s))
      ⟨Status.ok, ⟨[("content-type", Bytes.ofString "text/plain; charset=utf-8")]⟩,
        Bytes.ofString s⟩
  | json {v : Json} (h : ∀ s, v ≠ .str s) : ShowsResult (some v)
      ⟨Status.ok, ⟨[("content-type", Bytes.ofString "application/json")]⟩, Bytes.ofString v.text⟩

theorem ShowsResult.unique {result : Option Json} {own other : Response}
    (h : ShowsResult result own) (h' : ShowsResult result other) : own = other := by
  cases h with
  | nothing =>
    cases h'
    rfl
  | text s =>
    cases h' with
    | text => rfl
    | json h => exact absurd rfl (h s)
  | json h =>
    cases h' with
    | text s => exact absurd rfl (h s)
    | json => rfl

theorem ShowsResult.status {result : Option Json} {own : Response} (h : ShowsResult result own) :
    own.status = Status.ok := by
  cases h with
  | nothing | text | json => rfl

theorem showsResult_ofResult (result : Option Json) :
    ShowsResult result (Response.ofResult result) := by
  cases result with
  | none => exact .nothing
  | some v =>
    cases v with
    | str s => exact .text s
    | null | bool | int | double | arr | obj => exact .json nofun

/--
The response of a result, with the status and the headers that steps have set. Of several values of
a header that they have set the last one stays.
-/
structure Context.Renders (cx : Context) (own response : Response) : Prop where
  shows : ShowsResult cx.result own
  status : response.status = cx.response.status
  body : response.body = own.body
  headers : response.headers = own.headers.insertAll cx.response.headers.entries
  values : ∀ name, response.headers.values name =
    match (cx.response.headers.values name).getLast? with
    | some value => [value]
    | none => own.headers.values name

theorem Context.renders_renderResult (cx : Context) :
    cx.Renders (Response.ofResult cx.result) cx.renderResult := by
  have hs := showsResult_ofResult cx.result
  rw [renderResult_eq]
  exact ⟨hs, if_pos hs.status, rfl, rfl, fun name => Headers.values_insertAll ..⟩

theorem Context.Renders.eq {cx : Context} {own response : Response}
    (h : cx.Renders own response) : response = cx.renderResult := by
  have hr := cx.renders_renderResult
  obtain rfl := h.shows.unique hr.shows
  cases hc : cx.renderResult with
  | mk status headers body =>
    rw [hc] at hr
    cases response
    rw [Response.mk.injEq]
    exact ⟨h.status.trans hr.status.symm, h.headers.trans hr.headers.symm,
      h.body.trans hr.body.symm⟩

end QueryRouting
