import QueryRouting.Proofs.Chain.QueryOrder

namespace QueryRouting.QueryMap

variable {q : String × String} {rest queries : List (String × String)}

/-- Keeps what has a new key, and remembers the keys that have been seen. -/
def retainUnseen (seen : List String) : List (String × String) → List (String × String)
  | [] => []
  | q :: rest =>
    if q.1 ∈ seen then retainUnseen seen rest else q :: retainUnseen (q.1 :: seen) rest

theorem retainUnseen_concat (seen : List String) (queries : List (String × String))
    (q : String × String) : retainUnseen seen (queries ++ [q]) = retainUnseen seen queries ++
      if q.1 ∈ seen ∨ q.1 ∈ queries.map (·.1) then [] else [q] := by
  induction queries generalizing seen with
  | nil => simp [retainUnseen]
  | cons first rest ih =>
    by_cases hf : first.1 ∈ seen
    · have hseen : q.1 ∈ seen ∨ q.1 = first.1 ∨ q.1 ∈ rest.map (·.1) ↔
          q.1 ∈ seen ∨ q.1 ∈ rest.map (·.1) := by
        constructor
        · rintro (h | h | h)
          · exact .inl h
          · exact .inl (h ▸ hf)
          · exact .inr h
        · exact Or.imp_right .inr
      simp only [List.cons_append, retainUnseen, if_pos hf, ih, List.map_cons, List.mem_cons, hseen]
    · have hseen : (q.1 = first.1 ∨ q.1 ∈ seen) ∨ q.1 ∈ rest.map (·.1) ↔
          q.1 ∈ seen ∨ q.1 = first.1 ∨ q.1 ∈ rest.map (·.1) := by
        rw [or_assoc, or_left_comm]
      simp only [List.cons_append, retainUnseen, if_neg hf, ih, List.map_cons, List.mem_cons, hseen]

/-- A pass from the end keeps the last declarations. -/
theorem lastOfEachKey_eq_reverse_retainUnseen (queries : List (String × String)) :
    lastOfEachKey queries = (retainUnseen [] queries.reverse).reverse := by
  induction queries with
  | nil => rfl
  | cons q rest ih =>
    rw [List.reverse_cons, retainUnseen_concat, List.reverse_append, ← ih, List.map_reverse]
    by_cases h : q.1 ∈ rest.map (·.1)
    · simp [lastOfEachKey_cons_of_mem h, h]
    · simp [lastOfEachKey_cons_of_notMem h, h]

/-- A place whose key is declared at no later one. -/
def LastPlace (queries : List (String × String)) (i : Nat) : Prop :=
  ∃ q, queries[i]? = some q ∧ ∀ j q', i < j → queries[j]? = some q' → q'.1 ≠ q.1

theorem lastPlace_zero : LastPlace (q :: rest) 0 ↔ q.1 ∉ rest.map (·.1) := by
  constructor
  · rintro ⟨q', hq, hlater⟩ hm
    obtain rfl := Option.some.inj hq
    obtain ⟨x, hx, he⟩ := List.mem_map.1 hm
    obtain ⟨j, hj⟩ := List.getElem?_of_mem hx
    exact hlater (j + 1) x (Nat.succ_pos j) hj he
  · intro hn
    refine ⟨q, rfl, fun j q' hj hq' he => hn ?_⟩
    cases j with
    | zero => cases hj
    | succ j => exact List.mem_map.2 ⟨q', List.mem_of_getElem? hq', he⟩

theorem lastPlace_succ {i : Nat} : LastPlace (q :: rest) (i + 1) ↔ LastPlace rest i := by
  constructor
  · rintro ⟨q', hq, hlater⟩
    exact ⟨q', hq, fun j x hj hx => hlater (j + 1) x (Nat.succ_lt_succ hj) hx⟩
  · rintro ⟨q', hq, hlater⟩
    refine ⟨q', hq, fun j x hj hx => ?_⟩
    cases j with
    | zero => cases hj
    | succ j => exact hlater j x (Nat.lt_of_succ_lt_succ hj) hx

/-- The list `kept` holds the last declaration of each key, and these in their order. -/
structure KeepsLast (declared kept : List (String × String)) : Prop where
  distinct : (kept.map (·.1)).Nodup
  template : ∀ key, kept.filter (·.1 = key) = (declared.filter (·.1 = key)).getLast?.toList
  sublist : kept.Sublist declared
  places : ∃ places : List Nat, places.Pairwise (· < ·) ∧
    (∀ i, i ∈ places ↔ LastPlace declared i) ∧ kept.map some = places.map (declared[·]?)

theorem filter_key_eq_nil_iff {key : String} :
    rest.filter (·.1 = key) = [] ↔ key ∉ rest.map (·.1) := by
  rw [List.filter_eq_nil_iff, List.mem_map, not_exists]
  simp only [decide_eq_true_eq, not_and]

theorem filter_lastOfEachKey (key : String) (queries : List (String × String)) :
    (lastOfEachKey queries).filter (·.1 = key) =
      (queries.filter (·.1 = key)).getLast?.toList := by
  induction queries with
  | nil => rfl
  | cons q rest ih =>
    by_cases hk : q.1 = key
    · have hcons (l : List (String × String)) :
          (q :: l).filter (·.1 = key) = q :: l.filter (·.1 = key) :=
        List.filter_cons_of_pos (decide_eq_true hk)
      rw [hcons]
      by_cases h : q.1 ∈ rest.map (·.1)
      · have hne : rest.filter (·.1 = key) ≠ [] := fun hnil =>
          filter_key_eq_nil_iff.1 hnil (hk ▸ h)
        rw [lastOfEachKey_cons_of_mem h, ih, List.getLast?_cons_of_ne_nil hne]
      · have hnil : rest.filter (·.1 = key) = [] := filter_key_eq_nil_iff.2 (hk ▸ h)
        rw [lastOfEachKey_cons_of_notMem h, hcons, ih, hnil]
        rfl
    · have hcons (l : List (String × String)) :
          (q :: l).filter (·.1 = key) = l.filter (·.1 = key) :=
        List.filter_cons_of_neg (by simpa using hk)
      rw [hcons, ← ih]
      by_cases h : q.1 ∈ rest.map (·.1)
      · rw [lastOfEachKey_cons_of_mem h]
      · rw [lastOfEachKey_cons_of_notMem h, hcons]

theorem exists_places (queries : List (String × String)) :
    ∃ places : List Nat, places.Pairwise (· < ·) ∧ (∀ i, i ∈ places ↔ LastPlace queries i) ∧
      (lastOfEachKey queries).map some = places.map (queries[·]?) := by
  induction queries with
  | nil => exact ⟨[], .nil, fun i => by simp [LastPlace], rfl⟩
  | cons q rest ih =>
    obtain ⟨places, hp, hm, he⟩ := ih
    have hp' : (places.map (· + 1)).Pairwise (· < ·) :=
      hp.map _ fun _ _ => Nat.succ_lt_succ
    have he' : (places.map (· + 1)).map ((q :: rest)[·]?) = places.map (rest[·]?) := by
      rw [List.map_map]
      rfl
    have hm' (i : Nat) : i + 1 ∈ places.map (· + 1) ↔ LastPlace (q :: rest) (i + 1) := by
      rw [lastPlace_succ, ← hm]
      simp
    by_cases h : q.1 ∈ rest.map (·.1)
    · refine ⟨places.map (· + 1), hp', fun i => ?_, ?_⟩
      · cases i with
        | zero => simp [lastPlace_zero, h]
        | succ i => exact hm' i
      · rw [lastOfEachKey_cons_of_mem h, he, he']
    · refine ⟨0 :: places.map (· + 1), ?_, fun i => ?_, ?_⟩
      · refine .cons (fun i hi => ?_) hp'
        obtain ⟨j, -, rfl⟩ := List.mem_map.1 hi
        exact Nat.succ_pos j
      · cases i with
        | zero => simp [lastPlace_zero, h]
        | succ i =>
          rw [List.mem_cons, or_iff_right (Nat.succ_ne_zero i)]
          exact hm' i
      · rw [lastOfEachKey_cons_of_notMem h, List.map_cons, List.map_cons, he, he']
        rfl

theorem keepsLast_lastOfEachKey (queries : List (String × String)) :
    KeepsLast queries (lastOfEachKey queries) where
  distinct := nodup_lastOfEachKey queries
  template key := filter_lastOfEachKey key queries
  sublist := lastOfEachKey_sublist queries
  places := exists_places queries

theorem lastOfEachKey_of_overridden {before after : List (String × String)}
    (h : q.1 ∈ after.map (·.1)) :
    lastOfEachKey (before ++ q :: after) = lastOfEachKey (before ++ after) := by
  induction before with
  | nil => exact lastOfEachKey_cons_of_mem h
  | cons first before ih =>
    have hkeys : first.1 ∈ (before ++ q :: after).map (·.1) ↔
        first.1 ∈ (before ++ after).map (·.1) := by
      simp only [List.map_append, List.map_cons, List.mem_append, List.mem_cons]
      constructor
      · rintro (hb | he | ha)
        · exact .inl hb
        · exact .inr (he ▸ h)
        · exact .inr ha
      · exact Or.imp_right .inr
    rw [List.cons_append, List.cons_append]
    by_cases hf : first.1 ∈ (before ++ after).map (·.1)
    · rw [lastOfEachKey_cons_of_mem (hkeys.2 hf), lastOfEachKey_cons_of_mem hf, ih]
    · rw [lastOfEachKey_cons_of_notMem (mt hkeys.1 hf), lastOfEachKey_cons_of_notMem hf, ih]

section Step

variable {executor : Executor} {delays : Delays} {cx : Context}

/-- What a map starts and why it fails, by the queries that it keeps alone. -/
structure RunsThese (executor : Executor) (kept : List (String × String)) (step : Step) : Prop where
  unread : ∀ cx e, FirstTemplateError cx kept e → step cx = .failed cx (.template e)
  starts : ∀ cx ds, kept.map (fun q => (Template.ofString q.2).describe cx.lookup) = ds.map .ok →
    (step cx).events.filterMap Event.started? = ds
  fails : ∀ cx, (∃ e, (step cx).outcome = .error e) ↔ ∃ q ∈ kept, Fails executor cx kept q

theorem exists_fails_iff_of_described {described : List (String × Descriptor)}
    (hd : describe cx queries = .ok described) :
    (∃ q ∈ queries, Fails executor cx queries q) ↔
      ∃ d ∈ described.map (·.2), ∃ e, (executor.execute d).result = .error e := by
  obtain ⟨-, hqueries⟩ := describe_eq_ok_iff.1 hd
  have hread : ∀ q ∈ queries, ∃ d ∈ described.map (·.2),
      (Template.ofString q.2).describe cx.lookup = .ok d := by
    intro q hq
    have hm := List.mem_map_of_mem (f := fun q => (Template.ofString q.2).describe cx.lookup) hq
    rw [hqueries] at hm
    obtain ⟨d, hd, he⟩ := List.mem_map.1 hm
    exact ⟨d.2, List.mem_map_of_mem hd, he.symm⟩
  constructor
  · rintro ⟨q, hq, hf⟩
    obtain ⟨d, hm, hqd⟩ := hread q hq
    cases hf with
    | template h => cases hqd.symm.trans h
    | execution hall hquery he =>
      obtain rfl := Except.ok.inj (hqd.symm.trans hquery)
      exact ⟨d, hm, _, he⟩
  · rintro ⟨d, hm, e, he⟩
    obtain ⟨x, hx, rfl⟩ := List.mem_map.1 hm
    have hmem : .ok x.2 ∈ queries.map fun q => (Template.ofString q.2).describe cx.lookup := by
      rw [hqueries]
      exact List.mem_map.2 ⟨x, hx, rfl⟩
    obtain ⟨q, hq, hqx⟩ := List.mem_map.1 hmem
    refine ⟨q, hq, .execution (fun y hy => ?_) hqx he⟩
    obtain ⟨d, -, hyd⟩ := hread y hy
    exact ⟨d, hyd⟩

theorem stepUnder_fails_iff : (∃ e, (stepUnder executor delays queries cx).outcome = .error e) ↔
    ∃ q ∈ lastOfEachKey queries, Fails executor cx (lastOfEachKey queries) q := by
  cases hd : describe cx (lastOfEachKey queries) with
  | error e =>
    rw [stepUnder_of_error hd]
    obtain ⟨before, q, after, hs, -, hq⟩ := describe_eq_error_iff.1 hd
    have hm : q ∈ lastOfEachKey queries := by
      rw [hs]
      exact List.mem_append_right _ List.mem_cons_self
    exact iff_of_true ⟨_, rfl⟩ ⟨q, hm, .template hq⟩
  | ok described =>
    have hk : (described.map (·.1)).Nodup := by
      rw [(describe_eq_ok_iff.1 hd).1]
      exact nodup_lastOfEachKey queries
    have hdriven : Driven executor delays _ _ cx (runAll executor delays described cx) :=
      runAll_driven hk
    rw [stepUnder_of_ok hd, exists_fails_iff_of_described hd]
    constructor
    · rintro ⟨e, he⟩
      by_contra hnone
      have hv : ∀ d ∈ described, ∃ v, (executor.execute d.2).result = .ok v := by
        intro d hm
        cases hr : (executor.execute d.2).result with
        | ok v => exact ⟨v, rfl⟩
        | error e => exact absurd ⟨d.2, List.mem_map_of_mem hm, e, hr⟩ hnone
      have hout : (runAll executor delays described cx).outcome = .ok .next :=
        (runAll_of_values delays cx hk hv).1
      cases hout.symm.trans he
    · intro hf
      obtain ⟨-, e, he, -⟩ := hdriven.fails hf
      exact ⟨_, he⟩

theorem runsThese_stepUnder :
    RunsThese executor (lastOfEachKey queries) (stepUnder executor delays queries) where
  unread cx e he := stepUnder_of_error (describe_eq_error_iff.2 he)
  starts cx ds hds := by
    cases hd : describe cx (lastOfEachKey queries) with
    | error e =>
      obtain ⟨before, q, after, hs, -, hq⟩ := describe_eq_error_iff.1 hd
      have hm : .error e ∈ ds.map (Except.ok (ε := TemplateError)) := by
        rw [← hds, hs, ← hq]
        exact List.mem_map_of_mem (List.mem_append_right _ List.mem_cons_self)
      obtain ⟨d, -, hde⟩ := List.mem_map.1 hm
      cases hde
    | ok described =>
      have hsame : (described.map (·.2)).map Except.ok =
          ds.map (Except.ok (ε := TemplateError)) := by
        rw [← hds, (describe_eq_ok_iff.1 hd).2, List.map_map]
        rfl
      rw [stepUnder_of_ok hd, runAll_started]
      exact (List.map_inj_right fun _ _ he => Except.ok.inj he).1 hsame
  fails cx := stepUnder_fails_iff

end Step

/--
A query map keeps the last declaration of each key, in the order of these, as a pass from the end
finds them; keeping them twice changes nothing. The step reads, starts and fails by what is kept,
and a declaration whose key is declared again may as well be left out.
-/
theorem compile_keepsLast (executor : Executor) (queries : List (String × String)) :
    KeepsLast queries (lastOfEachKey queries) ∧
    lastOfEachKey queries = (retainUnseen [] queries.reverse).reverse ∧
    lastOfEachKey (lastOfEachKey queries) = lastOfEachKey queries ∧
    (∃ step, (Argument.queryMap queries).compile executor = .ok step ∧
      RunsThese executor (lastOfEachKey queries) step) ∧
    ∀ before q after, queries = before ++ q :: after → q.1 ∈ after.map (·.1) →
      (Argument.queryMap queries).compile executor =
        (Argument.queryMap (before ++ after)).compile executor := by
  refine ⟨keepsLast_lastOfEachKey queries, lastOfEachKey_eq_reverse_retainUnseen queries,
    lastOfEachKey_of_nodup (nodup_lastOfEachKey queries), ⟨step executor queries, rfl,
    runsThese_stepUnder⟩, ?_⟩
  rintro before q after rfl hq
  have hstep : step executor (before ++ q :: after) = step executor (before ++ after) := by
    funext cx
    simp only [step, stepUnder, lastOfEachKey_of_overridden hq]
  exact congrArg Except.ok hstep

/-- The first declaration of `a` names no value that there is, and it is declared again. -/
theorem compile_keepsLast_of_repeated (executor : Executor) :
    [("a", ":nowhere:"), ("b", "x"), ("a", "y")] =
        [] ++ ("a", ":nowhere:") :: [("b", "x"), ("a", "y")] ∧
      "a" ∈ [("b", "x"), ("a", "y")].map (·.1) ∧
      (Argument.queryMap [("a", ":nowhere:"), ("b", "x"), ("a", "y")]).compile executor =
        (Argument.queryMap [("b", "x"), ("a", "y")]).compile executor := by
  have ha : "a" ∈ [("b", "x"), ("a", "y")].map (·.1) := by decide
  obtain ⟨-, -, -, -, hover⟩ :=
    compile_keepsLast executor [("a", ":nowhere:"), ("b", "x"), ("a", "y")]
  exact ⟨rfl, ha, hover [] _ _ rfl ha⟩

end QueryRouting.QueryMap
