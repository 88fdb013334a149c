import QueryRouting.Proofs.Route.Agenda

namespace QueryRouting

namespace StepRun

/-- The run with the skipped route behind it. -/
def unskipped (run : StepRun) : StepRun :=
  match run.outcome with
  | .ok .skipRoute => { run with outcome := .ok .next }
  | _ => run

variable {run : StepRun} {next next' : Step}

theorem after_after (run : StepRun) (earlier later : List Event) :
    (run.after later).after earlier = run.after (earlier ++ later) := by
  rw [after, after, after, List.append_assoc]

theorem andThen_after (run : StepRun) (earlier : List Event) (passes : Flow → Bool) (next : Step) :
    (run.after earlier).andThen passes next = (run.andThen passes next).after earlier := by
  cases h : run.outcome with
  | error e => simp only [andThen, after, h]
  | ok flow =>
    cases hp : passes flow with
    | false => simp only [andThen, after, h, hp, Bool.false_eq_true, if_false]
    | true => simp only [andThen, after, h, hp, if_true, List.append_assoc]

theorem andThen_andThen (run : StepRun) (passes : Flow → Bool) (next later : Step) :
    (run.andThen passes next).andThen passes later =
      run.andThen passes fun cx => (next cx).andThen passes later := by
  cases h : run.outcome with
  | error e => simp only [andThen, h]
  | ok flow =>
    cases hp : passes flow with
    | false => simp only [andThen, h, hp, Bool.false_eq_true, if_false]
    | true =>
      have hnext (next : Step) :
          run.andThen passes next = (next run.context).after run.events := by
        simp only [andThen, h, hp, if_true]
      rw [hnext, hnext, andThen_after]

theorem unskipped_of_skip (h : run.outcome = .ok .skipRoute) :
    run.unskipped = { run with outcome := .ok .next } := by
  rw [unskipped, h]

theorem unskipped_of_next (h : run.outcome = .ok .next) : run.unskipped = run := by
  rw [unskipped, h]

theorem unskipped_of_stops (h : Stops run.outcome) : run.unskipped = run := by
  generalize ho : run.outcome = outcome at h
  cases h <;> rw [unskipped, ho]

theorem unskipped_after (earlier : List Event) :
    (run.after earlier).unskipped = run.unskipped.after earlier := by
  rcases stops_or run.outcome with hn | hs | hs
  · rw [unskipped_of_next hn]
    exact unskipped_of_next hn
  · rw [unskipped_of_skip hs]
    exact unskipped_of_skip hs
  · rw [unskipped_of_stops hs]
    exact unskipped_of_stops hs

theorem andThen_of_next (h : run.outcome = .ok .next) :
    run.andThen Flow.isNext next = (next run.context).after run.events := by
  rw [andThen, h]
  rfl

theorem andThen_of_skip (h : run.outcome = .ok .skipRoute) :
    run.andThen Flow.isNext next = run := by
  rw [andThen, h]
  rfl

theorem andThen_of_stops (h : Stops run.outcome) (next : Step) :
    run.andThen Flow.isNext next = run := by
  generalize ho : run.outcome = outcome at h
  cases h <;> rw [andThen, ho] <;> rfl

/-- What follows a run matters only where the run passes. -/
theorem andThen_congr (h : run.outcome = .ok .next → next run.context = next' run.context) :
    run.andThen Flow.isNext next = run.andThen Flow.isNext next' := by
  rcases stops_or run.outcome with hn | hs | hs
  · rw [andThen_of_next hn, andThen_of_next hn, h hn]
  · rw [andThen_of_skip hs, andThen_of_skip hs]
  · rw [andThen_of_stops hs, andThen_of_stops hs]

theorem andThen_isNextOrSkip :
    run.andThen Flow.isNextOrSkip next = run.unskipped.andThen Flow.isNext next := by
  rcases stops_or run.outcome with hn | hs | hs
  · rw [unskipped_of_next hn, andThen_of_next hn, andThen, hn]
    rfl
  · rw [unskipped_of_skip hs, andThen_of_next rfl, andThen, hs]
    rfl
  · rw [unskipped_of_stops hs, andThen_of_stops hs]
    generalize ho : run.outcome = outcome at hs
    cases hs <;> rw [andThen, ho] <;> rfl

end StepRun

namespace Step

theorem chain_cons (passes : Flow → Bool) (step : Step) (rest : List Step) (cx : Context) :
    chain passes (step :: rest) cx = (step cx).andThen passes (chain passes rest) := rfl

theorem chain_isNextOrSkip (steps : List Step) :
    chain Flow.isNextOrSkip steps =
      chain Flow.isNext (steps.map fun step cx => (step cx).unskipped) := by
  induction steps with
  | nil => rfl
  | cons step rest ih =>
    funext cx
    rw [List.map_cons, chain_cons, chain_cons, ← ih, StepRun.andThen_isNextOrSkip]

end Step

/-- The run has the calls of the agenda, ends as they do, and shows what they show. -/
def Records (agenda : List Task) (cx : Context) (run : StepRun) : Prop :=
  ∃ calls, Follows agenda cx calls run.context run.outcome ∧
    run.events = calls.flatMap (·.run.events)

namespace Records

variable {task : Task} {rest left : List Task} {cx : Context} {run later : StepRun}

theorem done : Records [] cx (.done cx .next) :=
  ⟨[], .done, rfl⟩

theorem pass (hc : task.call? cx = none) (h : Records rest cx later) :
    Records (task :: rest) cx later := by
  obtain ⟨calls, hf, he⟩ := h
  exact ⟨calls, .pass hc hf, he⟩

theorem go (hc : task.call? cx = some run) (hl : task.remaining? rest run.outcome = some left)
    (h : Records left run.context later) : Records (task :: rest) cx (later.after run.events) := by
  obtain ⟨calls, hf, he⟩ := h
  refine ⟨⟨task.site, cx, run⟩ :: calls, .go hc hl hf, ?_⟩
  rw [StepRun.after, List.flatMap_cons, he]

theorem stop (hc : task.call? cx = some run) (hs : Stops run.outcome) :
    Records (task :: rest) cx run :=
  ⟨[⟨task.site, cx, run⟩], .stop hc (Task.remaining?_eq_none_iff.2 hs),
    by rw [List.flatMap_singleton]⟩

theorem skip (hc : task.call? cx = some run) (hs : run.outcome = .ok .skipRoute)
    (hr : ∀ t ∈ rest, task.site.sameRoute t.site = true) :
    Records (task :: rest) cx run.unskipped := by
  have hl : (rest.filter fun t => !task.site.sameRoute t.site) = [] := by
    rw [List.filter_eq_nil_iff]
    intro t ht
    rw [hr t ht]
    exact Bool.false_ne_true
  rw [StepRun.unskipped_of_skip hs]
  refine ⟨[⟨task.site, cx, run⟩], .go hc (by rw [hs, Task.remaining?, hl]) .done, ?_⟩
  rw [List.flatMap_singleton]

theorem andThen {agenda : List Task} {next : Step} (h : Records agenda cx run)
    (h' : run.outcome = .ok .next → Records rest run.context (next run.context))
    (ha : Task.Apart agenda rest) :
    Records (agenda ++ rest) cx (run.andThen Flow.isNext next) := by
  obtain ⟨calls, hf, he⟩ := h
  rcases hf.outcome_eq_or with hn | hs
  · obtain ⟨later, hf', he'⟩ := h' hn
    rw [StepRun.andThen_of_next hn]
    rw [hn] at hf
    refine ⟨calls ++ later, hf.append ha hf', ?_⟩
    rw [StepRun.after, List.flatMap_append, he, he']
  · rw [StepRun.andThen_of_stops hs]
    exact ⟨calls, hf.append_of_stops hs ha, he⟩

/-- A chain has the agendas of its steps one after the other. -/
theorem chain {agendas : α → List Task} {steps : α → Step} {l : List α}
    (h : ∀ a ∈ l, ∀ cx, Records (agendas a) cx (steps a cx))
    (ha : l.Pairwise fun a b => Task.Apart (agendas a) (agendas b)) (cx : Context) :
    Records (l.flatMap agendas) cx (Step.chain Flow.isNext (l.map steps) cx) := by
  induction l generalizing cx with
  | nil => exact done
  | cons a l ih =>
    rw [List.forall_mem_cons] at h
    rw [List.pairwise_cons] at ha
    apply (h.1 cx).andThen (fun _ => ih h.2 ha.2 _)
    intro s hs t ht
    obtain ⟨b, hb, ht⟩ := List.mem_flatMap.1 ht
    exact ha.1 b hb s hs t ht

end Records

namespace Task

def step (task : Task) : Step := fun cx =>
  (task.call? cx).getD (.done cx .next)

variable {task : Task} {cx : Context} {run : StepRun}

theorem step_of_none (h : task.call? cx = none) : task.step cx = .done cx .next := by
  simp only [step, h, Option.getD_none]

theorem step_of_some (h : task.call? cx = some run) : task.step cx = run := by
  simp only [step, h, Option.getD_some]

theorem records (task : Task) (cx : Context) : Records [task] cx (task.step cx).unskipped := by
  cases hc : task.call? cx with
  | none =>
    rw [step_of_none hc]
    exact .pass hc .done
  | some run =>
    rw [step_of_some hc]
    rcases stops_or run.outcome with hn | hs | hs
    · rw [StepRun.unskipped_of_next hn]
      -- A run is itself with the run of an empty agenda behind it.
      have hr : run = (StepRun.done run.context .next).after run.events := by
        rw [StepRun.after, StepRun.done, ← hn, List.append_nil]
      rw [hr]
      exact .go hc (by rw [hn]; rfl) .done
    · exact .skip hc hs fun t ht => absurd ht List.not_mem_nil
    · rw [StepRun.unskipped_of_stops hs]
      exact .stop hc hs

theorem records_route {tasks : List Task}
    (hr : ∀ s ∈ tasks, ∀ t ∈ tasks, s.site.sameRoute t.site = true) (cx : Context) :
    Records tasks cx (Step.chain Flow.isNext (tasks.map step) cx).unskipped := by
  induction tasks generalizing cx with
  | nil => exact .done
  | cons task rest ih =>
    have hrest : ∀ s ∈ rest, ∀ t ∈ rest, s.site.sameRoute t.site = true :=
      fun s hs t ht => hr s (List.mem_cons_of_mem _ hs) t (List.mem_cons_of_mem _ ht)
    rw [List.map_cons, Step.chain_cons]
    cases hc : task.call? cx with
    | none =>
      rw [step_of_none hc, StepRun.andThen_of_next rfl, StepRun.unskipped_after]
      exact .pass hc (ih hrest cx)
    | some run =>
      rw [step_of_some hc]
      rcases stops_or run.outcome with hn | hs | hs
      · rw [StepRun.andThen_of_next hn, StepRun.unskipped_after]
        exact .go hc (by rw [hn]; rfl) (ih hrest run.context)
      · rw [StepRun.andThen_of_skip hs]
        exact .skip hc hs fun t ht => hr task List.mem_cons_self t (List.mem_cons_of_mem _ ht)
      · rw [StepRun.andThen_of_stops hs, StepRun.unskipped_of_stops hs]
        exact .stop hc hs

/-- A chain of tasks outside the routes does them one after the other. -/
theorem records_chain {tasks : List Task}
    (ho : tasks.Pairwise fun s t => s.site.sameRoute t.site = false) (cx : Context) :
    Records tasks cx (Step.chain Flow.isNextOrSkip (tasks.map step) cx) := by
  rw [Step.chain_isNextOrSkip, List.map_map]
  have h : Records (tasks.flatMap fun task => [task]) cx _ :=
    Records.chain (fun task _ cx => task.records cx) (ho.imp fun hst u hu v hv => ?_) cx
  · rw [List.flatMap_singleton'] at h
    exact h
  · rw [List.mem_singleton.1 hu, List.mem_singleton.1 hv]
    exact hst

end Task

end QueryRouting
