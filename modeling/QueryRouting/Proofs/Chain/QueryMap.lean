import QueryRouting.Proofs.Chain.Drain
import QueryRouting.Proofs.Traversal

namespace QueryRouting.QueryMap

open Traversal

section LastOfEachKey

variable {q : String × String} {rest queries : List (String × String)}

theorem any_key_iff {key : String} : rest.any (·.1 = key) ↔ key ∈ rest.map (·.1) := by
  simp only [List.any_eq_true, decide_eq_true_eq, List.mem_map]

theorem lastOfEachKey_cons_of_mem (h : q.1 ∈ rest.map (·.1)) :
    lastOfEachKey (q :: rest) = lastOfEachKey rest := by
  rw [lastOfEachKey, if_pos (any_key_iff.2 h)]

theorem lastOfEachKey_cons_of_notMem (h : q.1 ∉ rest.map (·.1)) :
    lastOfEachKey (q :: rest) = q :: lastOfEachKey rest := by
  rw [lastOfEachKey, if_neg (mt any_key_iff.1 h)]

theorem lastOfEachKey_of_nodup (h : (queries.map (·.1)).Nodup) :
    lastOfEachKey queries = queries := by
  induction queries with
  | nil => rfl
  | cons q rest ih =>
    rw [List.map_cons, List.nodup_cons] at h
    rw [lastOfEachKey_cons_of_notMem h.1, ih h.2]

end LastOfEachKey

theorem describe_eq_mapM (cx : Context) (queries : List (String × String)) :
    describe cx queries = queries.mapM fun q =>
      ((Template.ofString q.2).describe cx.lookup).map (q.1, ·) := by
  induction queries with
  | nil => rfl
  | cons q rest ih =>
    rw [describe, List.mapM_cons, ih]
    cases (Template.ofString q.2).describe cx.lookup <;> rfl

/-- The error of the first template, in the order of declaration, that has no query. -/
def FirstTemplateError (cx : Context) (queries : List (String × String)) (e : TemplateError) :
    Prop :=
  ∃ before q after, queries = before ++ q :: after ∧
    (∀ x ∈ before, ∃ d, (Template.ofString x.2).describe cx.lookup = .ok d) ∧
    (Template.ofString q.2).describe cx.lookup = .error e

theorem describe_eq_error_iff {cx : Context} {queries : List (String × String)}
    {e : TemplateError} :
    describe cx queries = .error e ↔ FirstTemplateError cx queries e := by
  have hok (x : String × String) :
      (∃ b, ((Template.ofString x.2).describe cx.lookup).map (x.1, ·) = .ok b) ↔
        ∃ d, (Template.ofString x.2).describe cx.lookup = .ok d := by
    simp [map_eq_ok_iff]
  simp only [describe_eq_mapM, mapM_eq_error_iff, map_eq_error_iff, hok, FirstTemplateError]

theorem describe_eq_ok_iff {cx : Context} {queries : List (String × String)}
    {described : List (String × Descriptor)} :
    describe cx queries = .ok described ↔ described.map (·.1) = queries.map (·.1) ∧
      queries.map (fun q => (Template.ofString q.2).describe cx.lookup) =
        described.map fun d => .ok d.2 := by
  rw [describe_eq_mapM, mapM_eq_ok_iff]
  induction queries generalizing described with
  | nil => cases described <;> simp
  | cons q rest ih =>
    cases described with
    | nil => simp
    | cons d others =>
      simp only [List.map_cons, List.cons.injEq, ih, map_eq_ok_iff]
      constructor
      · rintro ⟨⟨x, hx, rfl⟩, hk, hd⟩
        exact ⟨⟨rfl, hk⟩, hx, hd⟩
      · rintro ⟨⟨hk, hks⟩, hx, hd⟩
        exact ⟨⟨d.2, hx, by rw [← hk]⟩, hks, hd⟩

section LineUp

variable {executor : Executor} {delays : Delays}

theorem getElem?_lineUp (described : List (String × Descriptor)) (i : Nat) :
    (lineUp executor delays described)[i]? = described[i]?.map (enqueue executor delays i) :=
  List.getElem?_mapIdx

theorem lineUp_map (f : Pending → β) (k : String × Descriptor → β)
    (h : ∀ i d, f (enqueue executor delays i d) = k d) (described : List (String × Descriptor)) :
    (lineUp executor delays described).map f = described.map k :=
  map_mapIdx h described

theorem mem_lineUp {described : List (String × Descriptor)} {p : Pending}
    (hp : p ∈ lineUp executor delays described) :
    ∃ i, ∃ d ∈ described, p = enqueue executor delays i d := by
  obtain ⟨i, hi⟩ := List.getElem?_of_mem hp
  rw [getElem?_lineUp] at hi
  obtain ⟨d, hd, rfl⟩ := Option.map_eq_some_iff.1 hi
  exact ⟨i, d, List.mem_of_getElem? hd, rfl⟩

end LineUp

variable {executor : Executor} {delays : Delays} {ds : List Descriptor}

/-- The failing query that ends first: least delay, then order of declaration. -/
def EndsFirst (executor : Executor) (delays : Delays) (ds : List Descriptor) (e : ExecError) :
    Prop :=
  ∃ (i : Nat) (d : Descriptor), ds[i]? = some d ∧ (executor.execute d).result = .error e ∧
    ∀ (j : Nat) (d' : Descriptor) (e' : ExecError), ds[j]? = some d' →
      (executor.execute d').result = .error e' →
        delays i d < delays j d' ∨ delays i d = delays j d' ∧ i ≤ j

theorem FirstToFail.endsFirst {described : List (String × Descriptor)} {e : ExecError}
    (h : FirstToFail (lineUp executor delays described) e) :
    EndsFirst executor delays (described.map (·.2)) e := by
  obtain ⟨before, p, after, he, hp, hb, ha⟩ := h
  have hplace (j : Nat) (d : Descriptor) (hj : (described.map (·.2))[j]? = some d) :
      ∃ k, (before ++ p :: after)[j]? = some (enqueue executor delays j (k, d)) := by
    rw [List.getElem?_map] at hj
    obtain ⟨⟨k, d⟩, hd, rfl⟩ := Option.map_eq_some_iff.1 hj
    exact ⟨k, by rw [← he, getElem?_lineUp, hd]; rfl⟩
  have hi : (lineUp executor delays described)[before.length]? = some p := by
    rw [he, List.getElem?_append_right (Nat.le_refl _), Nat.sub_self]
    rfl
  rw [getElem?_lineUp] at hi
  obtain ⟨⟨k, d⟩, hd, rfl⟩ := Option.map_eq_some_iff.1 hi
  refine ⟨before.length, d, by rw [List.getElem?_map, hd]; rfl, hp, fun j d' e' hj hf => ?_⟩
  obtain ⟨k', hk'⟩ := hplace j d' hj
  rcases Nat.lt_trichotomy j before.length with hlt | rfl | hgt
  · rw [List.getElem?_append_left hlt] at hk'
    exact .inl (hb _ (List.mem_of_getElem? hk') e' hf)
  · rw [List.getElem?_append_right (Nat.le_refl _), Nat.sub_self] at hk'
    have hd' : d = d' := congrArg Pending.query (Option.some.inj hk')
    exact .inr ⟨by rw [hd'], Nat.le_refl _⟩
  · have hafter : after[j - before.length - 1]? = some (enqueue executor delays j (k', d')) := by
      rw [← hk', List.getElem?_append_right (Nat.le_of_lt hgt)]
      obtain ⟨n, hn⟩ := Nat.exists_eq_succ_of_ne_zero (Nat.sub_ne_zero_of_lt hgt)
      rw [hn]
      rfl
    have hle := ha _ (List.mem_of_getElem? hafter) e' hf
    rcases Nat.lt_or_eq_of_le hle with hlt | heq
    · exact .inl hlt
    · exact .inr ⟨heq, Nat.le_of_lt hgt⟩

/-- What a run of these queries does, with these keys and under these delays. -/
structure Driven (executor : Executor) (delays : Delays) (keys : List String)
    (ds : List Descriptor) (cx : Context) (run : StepRun) : Prop where
  starts : run.events.filterMap Event.started? = ds
  ends : (run.events.filterMap Event.finished?).Perm
    (ds.map fun d => (d, (executor.execute d).succeeded))
  /-- If all succeed, the result has the value of each query under its key. -/
  merges : ∀ vs : List Json, ds.map (fun d => (executor.execute d).result) = vs.map .ok →
    run.outcome = .ok .next ∧ run.context = cx.setResult (.obj (Keyed.ofList (keys.zip vs))) ∧
      ∀ key v, (Keyed.ofList (keys.zip vs)).find? key = some v ↔ (key, v) ∈ keys.zip vs
  /-- If some fail, the one that ends first decides the error, and nothing else changes. -/
  fails : (∃ d ∈ ds, ∃ e, (executor.execute d).result = .error e) →
    run.context = cx ∧ ∃ e, run.outcome = .error (.execute e) ∧ EndsFirst executor delays ds e

theorem stepUnder_of_error {queries : List (String × String)} {cx : Context} {e : TemplateError}
    (h : describe cx (lastOfEachKey queries) = .error e) :
    stepUnder executor delays queries cx = .failed cx (.template e) := by
  rw [stepUnder, h]

theorem stepUnder_of_ok {queries : List (String × String)} {cx : Context}
    {described : List (String × Descriptor)}
    (h : describe cx (lastOfEachKey queries) = .ok described) :
    stepUnder executor delays queries cx = runAll executor delays described cx := by
  rw [stepUnder, h]

section Described

variable {described : List (String × Descriptor)} {cx : Context}

/-- The loop over the queries of a map, from its start. -/
abbrev drained (executor : Executor) (delays : Delays) (described : List (String × Descriptor)) :
    Gathered × List Event :=
  drain executor.backend .empty (lineUp executor delays described)

theorem runAll_of_failure {e : ExecError}
    (h : (drained executor delays described).1.failure = some e) :
    runAll executor delays described cx =
      ⟨cx, .error (.execute e), (drained executor delays described).2⟩ := by
  simp only [runAll, h]

theorem runAll_of_success (h : (drained executor delays described).1.failure = none) :
    runAll executor delays described cx =
      ⟨cx.setResult (.obj (drained executor delays described).1.results), .ok .next,
        (drained executor delays described).2⟩ := by
  simp only [runAll, h]

theorem runAll_events :
    (runAll executor delays described cx).events = (drained executor delays described).2 := by
  cases h : (drained executor delays described).1.failure with
  | some e => rw [runAll_of_failure h]
  | none => rw [runAll_of_success h]

theorem runAll_started : (runAll executor delays described cx).events.filterMap Event.started? =
    described.map (·.2) := by
  have hall : (lineUp executor delays described).filter (!·.started) =
      lineUp executor delays described := by
    rw [List.filter_eq_self]
    intro p hp
    obtain ⟨i, d, -, rfl⟩ := mem_lineUp hp
    rfl
  rw [runAll_events, drain_started, hall]
  exact lineUp_map (·.query) (·.2) (fun _ _ => rfl) described

theorem runAll_finished :
    ((runAll executor delays described cx).events.filterMap Event.finished?).Perm
      (described.map fun d => (d.2, (executor.execute d.2).succeeded)) := by
  have hp : ((drained executor delays described).2.filterMap Event.finished?).Perm _ :=
    drain_finished .empty (lineUp executor delays described)
  rw [lineUp_map (fun p => (p.query, p.execution.succeeded))
    (fun d => (d.2, (executor.execute d.2).succeeded)) (fun _ _ => rfl)] at hp
  rw [runAll_events]
  exact hp

theorem runAll_driven (hk : (described.map (·.1)).Nodup) :
    Driven executor delays (described.map (·.1)) (described.map (·.2)) cx
      (runAll executor delays described cx) where
  starts := runAll_started
  ends := by
    rw [List.map_map]
    exact runAll_finished
  merges := by
    intro vs hvs
    have hkeys : (lineUp executor delays described).map (·.key) = described.map (·.1) :=
      lineUp_map _ _ (fun _ _ => rfl) described
    have hresults : (lineUp executor delays described).map (·.execution.result) =
        described.map fun d => (executor.execute d.2).result :=
      lineUp_map _ _ (fun _ _ => rfl) described
    rw [List.map_map] at hvs
    have hz := values_eq_zip (hresults.trans hvs)
    rw [hkeys] at hz
    have hs : ∀ p ∈ lineUp executor delays described, p.Succeeds := by
      intro p hp
      have hm := List.mem_map_of_mem (f := (·.execution.result)) hp
      rw [hresults.trans hvs] at hm
      obtain ⟨v, -, hv⟩ := List.mem_map.1 hm
      exact ⟨v, hv.symm⟩
    have hkl : ((lineUp executor delays described).map (·.key)).Nodup := by
      rw [hkeys]
      exact hk
    have hn := (values_keys_sublist _).nodup hkl
    rw [hz] at hn
    have hd : (drained executor delays described).1 =
        ⟨Keyed.ofList ((described.map (·.1)).zip vs), none⟩ := by
      rw [drain_results rfl hs hkl, hz]
      rfl
    have hf : (drained executor delays described).1.failure = none := by rw [hd]
    rw [runAll_of_success hf, hd]
    exact ⟨rfl, rfl, fun key v => Keyed.find?_ofList_eq_some_iff hn⟩
  fails := by
    rintro ⟨d, hd, e, he⟩
    obtain ⟨⟨k, d⟩, hm, rfl⟩ := List.mem_map.1 hd
    obtain ⟨i, hi⟩ := List.getElem?_of_mem hm
    have hp : enqueue executor delays i (k, d) ∈ lineUp executor delays described := by
      apply List.mem_of_getElem? (i := i)
      rw [getElem?_lineUp, hi]
      rfl
    have hfails : (enqueue executor delays i (k, d)).Fails e := he
    have hnot : ¬ ∀ p ∈ lineUp executor delays described, p.Succeeds :=
      fun hall => hfails.not_succeeds (hall _ hp)
    have hfail : ∃ first, (drained executor delays described).1.failure = some first ∧
        FirstToFail (lineUp executor delays described) first := drain_failure rfl hnot
    obtain ⟨first, hf, hfirst⟩ := hfail
    rw [runAll_of_failure hf]
    exact ⟨rfl, first, rfl, hfirst.endsFirst⟩

end Described

/--
Under every assignment of delays, a map with distinct keys starts no query if a template has none,
and fails with the error of the first such template; otherwise it starts and ends each query once,
and its result and its context do not depend on the order of the ends.
-/
theorem stepUnder_outcome (executor : Executor) (delays : Delays)
    {queries : List (String × String)} (hk : (queries.map (·.1)).Nodup) (cx : Context) :
    (∀ e, FirstTemplateError cx queries e →
      stepUnder executor delays queries cx = .failed cx (.template e)) ∧
    ((∀ e, ¬ FirstTemplateError cx queries e) → ∃ ds : List Descriptor,
      queries.map (fun q => (Template.ofString q.2).describe cx.lookup) = ds.map .ok ∧
      Driven executor delays (queries.map (·.1)) ds cx
        (stepUnder executor delays queries cx)) := by
  have hl := lastOfEachKey_of_nodup hk
  constructor
  · intro e he
    apply stepUnder_of_error
    rw [hl]
    exact describe_eq_error_iff.2 he
  · intro hno
    cases hd : describe cx queries with
    | error e => exact absurd (describe_eq_error_iff.1 hd) (hno e)
    | ok described =>
      obtain ⟨hkeys, hqueries⟩ := describe_eq_ok_iff.1 hd
      refine ⟨described.map (·.2), by rw [hqueries, List.map_map]; rfl, ?_⟩
      rw [stepUnder_of_ok (by rw [hl]; exact hd), ← hkeys]
      exact runAll_driven (by rw [hkeys]; exact hk)

theorem stepUnder_outcome_of_later_first :
    ([("a", "x"), ("b", "y")].map (·.1)).Nodup ∧
    (stepUnder (.custom fun d => .ofResult (.error (.driver d.text))) (fun i _ => 1 - i)
      [("a", "x"), ("b", "y")]
      (Context.ofView (RequestView.ofTarget Method.get "/") "")).outcome =
        .error (.execute (.driver "y")) := by
  have hk : ([("a", "x"), ("b", "y")].map (·.1)).Nodup := by decide
  have hx (lookup) : (Template.ofString "x").describe lookup = .ok ⟨"x", [], []⟩ := by
    rw [show Template.ofString "x" = ⟨['x'], []⟩ by decide +kernel]
    rfl
  have hy (lookup) : (Template.ofString "y").describe lookup = .ok ⟨"y", [], []⟩ := by
    rw [show Template.ofString "y" = ⟨['y'], []⟩ by decide +kernel]
    rfl
  have h := (stepUnder_outcome (.custom fun d => .ofResult (.error (.driver d.text)))
    (fun i _ => 1 - i) hk (Context.ofView (RequestView.ofTarget Method.get "/") "")).2
  have hno (e) : ¬ FirstTemplateError (Context.ofView (RequestView.ofTarget Method.get "/") "")
      [("a", "x"), ("b", "y")] e := by
    rw [← describe_eq_error_iff]
    simp [describe, hx, hy, bind, Except.bind, pure, Except.pure]
  obtain ⟨ds, hds, hrun⟩ := h hno
  have hd : ds = [⟨"x", [], []⟩, ⟨"y", [], []⟩] := by
    have hm : ds.map Except.ok = ([⟨"x", [], []⟩, ⟨"y", [], []⟩] : List Descriptor).map
        (Except.ok (ε := TemplateError)) := by
      rw [← hds]
      simp [hx, hy]
    exact (List.map_inj_right fun _ _ he => Except.ok.inj he).1 hm
  subst hd
  obtain ⟨-, e, he, i, d, hi, hd, hfirst⟩ := hrun.fails ⟨_, List.mem_cons_self, _, rfl⟩
  refine ⟨hk, he.trans ?_⟩
  have hle : 1 - i < 1 - 1 ∨ 1 - i = 1 - 1 ∧ i ≤ 1 := hfirst 1 _ _ rfl rfl
  cases i with
  | zero => omega
  | succ i =>
    cases i with
    | zero =>
      cases hi
      rw [← Except.error.inj hd]
    | succ i => cases hi

end QueryRouting.QueryMap
