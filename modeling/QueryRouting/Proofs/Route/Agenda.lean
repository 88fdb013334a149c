import Mathlib.Data.List.Nodup
import QueryRouting.Route.Table

namespace QueryRouting

/-- Where a step stands in a path table. -/
inductive Site
  | shared (i : Nat)
  | hook (i : Nat)
  /-- Place 0 of a route is its mark, and its argument steps follow. -/
  | route (r j : Nat)
  deriving DecidableEq, Repr

namespace Site

def sameRoute : Site → Site → Bool
  | .route r _, .route s _ => r == s
  | _, _ => false

end Site

structure Task where
  site : Site
  call? : Context → Option StepRun

/-- A step that ran: its site, the context that it saw, and what it did. -/
structure Call where
  site : Site
  before : Context
  run : StepRun

/-- The outcomes that end a run. -/
inductive Stops : Except StepError Flow → Prop
  | error (e : StepError) : Stops (.error e)
  | halt : Stops (.ok .halt)
  | exitRouter : Stops (.ok .exitRouter)

theorem not_stops_next : ¬ Stops (.ok .next) :=
  nofun

theorem stops_or (outcome : Except StepError Flow) :
    outcome = .ok .next ∨ outcome = .ok .skipRoute ∨ Stops outcome := by
  match outcome with
  | .error e => exact .inr (.inr (.error e))
  | .ok .next => exact .inl rfl
  | .ok .halt => exact .inr (.inr .halt)
  | .ok .skipRoute => exact .inr (.inl rfl)
  | .ok .exitRouter => exact .inr (.inr .exitRouter)

namespace Task

/-- The flow table: what is left of an agenda after a call; `none` if the run ends. -/
def remaining? (task : Task) (rest : List Task) : Except StepError Flow → Option (List Task)
  | .ok .next => some rest
  | .ok .skipRoute => some (rest.filter fun t => !task.site.sameRoute t.site)
  | .ok .halt => none
  | .ok .exitRouter => none
  | .error _ => none

variable {task : Task} {rest left : List Task} {outcome : Except StepError Flow}

theorem remaining?_eq_none_iff : task.remaining? rest outcome = none ↔ Stops outcome := by
  constructor
  · intro h
    match outcome with
    | .error e => exact .error e
    | .ok .next => cases h
    | .ok .halt => exact .halt
    | .ok .skipRoute => cases h
    | .ok .exitRouter => exact .exitRouter
  · rintro (_ | _ | _) <;> rfl

theorem remaining?_sublist (h : task.remaining? rest outcome = some left) :
    left.Sublist rest := by
  match outcome with
  | .error e => cases h
  | .ok .next =>
    cases h
    exact .refl _
  | .ok .halt => cases h
  | .ok .skipRoute =>
    cases h
    exact List.filter_sublist
  | .ok .exitRouter => cases h

/-- Tasks of which none belongs to a route that the others belong to. -/
def Apart (tasks others : List Task) : Prop :=
  ∀ s ∈ tasks, ∀ t ∈ others, s.site.sameRoute t.site = false

theorem Apart.of_cons {others : List Task} (h : Apart (task :: rest) others) : Apart rest others :=
  fun s hs => h s (List.mem_cons_of_mem _ hs)

theorem Apart.of_remaining {others : List Task} (h : Apart (task :: rest) others)
    (hl : task.remaining? rest outcome = some left) : Apart left others :=
  fun s hs => h.of_cons s ((remaining?_sublist hl).subset hs)

theorem Apart.append {tasks others rest : List Task} (h : Apart tasks rest)
    (h' : Apart others rest) : Apart (tasks ++ others) rest := by
  intro s hs
  rcases List.mem_append.1 hs with hs | hs
  · exact h s hs
  · exact h' s hs

theorem remaining?_append {others : List Task} (h : Apart (task :: rest) others) :
    task.remaining? (rest ++ others) outcome =
      (task.remaining? rest outcome).map (· ++ others) := by
  match outcome with
  | .ok .skipRoute =>
    have hf : (others.filter fun t => !task.site.sameRoute t.site) = others := by
      rw [List.filter_eq_self]
      intro t ht
      rw [h task List.mem_cons_self t ht]
      rfl
    rw [remaining?, remaining?, List.filter_append, hf]
    rfl
  | .ok .next | .ok .halt | .ok .exitRouter | .error e => rfl

end Task

/-- Every call sees the context that the one before it left. -/
def Chained : Context → List Call → Context → Prop
  | cx, [], final => final = cx
  | cx, call :: later, final => call.before = cx ∧ Chained call.run.context later final

/-- Either no call stops and the run ends in `Next`, or the last one alone stops and ends it. -/
def EndsAtFirstStop (calls : List Call) (outcome : Except StepError Flow) : Prop :=
  (∀ call ∈ calls, ¬ Stops call.run.outcome) ∧ outcome = .ok .next ∨
  ∃ earlier call, calls = earlier ++ [call] ∧ (∀ c ∈ earlier, ¬ Stops c.run.outcome) ∧
    Stops call.run.outcome ∧ outcome = call.run.outcome

theorem EndsAtFirstStop.cons {call : Call} {calls : List Call} {outcome : Except StepError Flow}
    (hc : ¬ Stops call.run.outcome) (h : EndsAtFirstStop calls outcome) :
    EndsAtFirstStop (call :: calls) outcome := by
  rcases h with ⟨hall, he⟩ | ⟨earlier, last, rfl, hall, hs, he⟩
  · exact .inl ⟨List.forall_mem_cons.2 ⟨hc, hall⟩, he⟩
  · exact .inr ⟨call :: earlier, last, rfl, List.forall_mem_cons.2 ⟨hc, hall⟩, hs, he⟩

theorem Chained.append {cx middle final : Context} {calls later : List Call}
    (h : Chained cx calls middle) (h' : Chained middle later final) :
    Chained cx (calls ++ later) final := by
  induction calls generalizing cx with
  | nil =>
    cases h
    exact h'
  | cons call calls ih => exact ⟨h.1, ih h.2⟩

theorem EndsAtFirstStop.of_next {calls : List Call} (h : EndsAtFirstStop calls (.ok .next)) :
    ∀ call ∈ calls, ¬ Stops call.run.outcome := by
  rcases h with ⟨hall, -⟩ | ⟨earlier, last, -, -, hs, he⟩
  · exact hall
  · rw [← he] at hs
    exact absurd hs not_stops_next

theorem EndsAtFirstStop.append {calls later : List Call} {outcome : Except StepError Flow}
    (h : EndsAtFirstStop calls (.ok .next)) (h' : EndsAtFirstStop later outcome) :
    EndsAtFirstStop (calls ++ later) outcome := by
  have hall := h.of_next
  clear h
  induction calls with
  | nil => exact h'
  | cons call calls ih =>
    rw [List.forall_mem_cons] at hall
    exact (ih hall.2).cons hall.1

/-- The calls that an agenda leads to, with the context and the outcome at their end. -/
inductive Follows : List Task → Context → List Call → Context → Except StepError Flow → Prop
  | done {cx : Context} : Follows [] cx [] cx (.ok .next)
  | pass {task : Task} {rest : List Task} {cx final : Context} {calls : List Call}
      {outcome : Except StepError Flow} (hc : task.call? cx = none)
      (tail : Follows rest cx calls final outcome) :
      Follows (task :: rest) cx calls final outcome
  | go {task : Task} {rest left : List Task} {cx final : Context} {run : StepRun}
      {calls : List Call} {outcome : Except StepError Flow} (hc : task.call? cx = some run)
      (hl : task.remaining? rest run.outcome = some left)
      (tail : Follows left run.context calls final outcome) :
      Follows (task :: rest) cx (⟨task.site, cx, run⟩ :: calls) final outcome
  | stop {task : Task} {rest : List Task} {cx : Context} {run : StepRun}
      (hc : task.call? cx = some run) (hl : task.remaining? rest run.outcome = none) :
      Follows (task :: rest) cx [⟨task.site, cx, run⟩] run.context run.outcome

namespace Follows

variable {agenda rest : List Task} {cx middle final : Context} {calls later : List Call}
  {outcome : Except StepError Flow}

theorem outcome_eq_or (h : Follows agenda cx calls final outcome) :
    outcome = .ok .next ∨ Stops outcome := by
  induction h with
  | done => exact .inl rfl
  | pass _ _ ih => exact ih
  | go _ _ _ ih => exact ih
  | stop _ hl => exact .inr (Task.remaining?_eq_none_iff.1 hl)

theorem total (agenda : List Task) (cx : Context) :
    ∃ calls final outcome, Follows agenda cx calls final outcome := by
  match agenda with
  | [] => exact ⟨_, _, _, .done⟩
  | task :: rest =>
    cases hc : task.call? cx with
    | none =>
      obtain ⟨calls, final, outcome, h⟩ := total rest cx
      exact ⟨_, _, _, .pass hc h⟩
    | some run =>
      cases hl : task.remaining? rest run.outcome with
      | none => exact ⟨_, _, _, .stop hc hl⟩
      | some left =>
        obtain ⟨calls, final, outcome, h⟩ := total left run.context
        exact ⟨_, _, _, .go hc hl h⟩
termination_by agenda.length
decreasing_by
  · simp
  · have := (Task.remaining?_sublist hl).length_le
    simp
    omega

theorem unique {calls' : List Call} {final' : Context} {outcome' : Except StepError Flow}
    (h : Follows agenda cx calls final outcome) (h' : Follows agenda cx calls' final' outcome') :
    calls = calls' ∧ final = final' ∧ outcome = outcome' := by
  induction h generalizing calls' final' outcome' with
  | done =>
    cases h'
    exact ⟨rfl, rfl, rfl⟩
  | pass hc _ ih =>
    cases h' with
    | pass _ tail => exact ih tail
    | go hc' | stop hc' => cases hc.symm.trans hc'
  | go hc hl _ ih =>
    cases h' with
    | pass hc' => cases hc.symm.trans hc'
    | go hc' hl' tail =>
      cases hc.symm.trans hc'
      cases hl.symm.trans hl'
      obtain ⟨rfl, hend⟩ := ih tail
      exact ⟨rfl, hend⟩
    | stop hc' hl' =>
      cases hc.symm.trans hc'
      cases hl.symm.trans hl'
  | stop hc hl =>
    cases h' with
    | pass hc' => cases hc.symm.trans hc'
    | go hc' hl' =>
      cases hc.symm.trans hc'
      cases hl.symm.trans hl'
    | stop hc' =>
      cases hc.symm.trans hc'
      exact ⟨rfl, rfl, rfl⟩

/-- Calls come in the order of the agenda, at most one for each task. -/
theorem sites_sublist (h : Follows agenda cx calls final outcome) :
    (calls.map (·.site)).Sublist (agenda.map (·.site)) := by
  induction h with
  | done => exact .slnil
  | pass _ _ ih => exact ih.cons _
  | go _ hl _ ih => exact (ih.trans ((Task.remaining?_sublist hl).map _)).cons_cons _
  | stop _ _ => exact (List.nil_sublist _).cons_cons _

theorem called (h : Follows agenda cx calls final outcome) :
    ∀ call ∈ calls, ∃ task ∈ agenda, task.site = call.site ∧
      task.call? call.before = some call.run := by
  induction h with
  | done => exact fun call hm => absurd hm List.not_mem_nil
  | pass _ _ ih =>
    intro call hm
    obtain ⟨task, ht, hcall⟩ := ih call hm
    exact ⟨task, List.mem_cons_of_mem _ ht, hcall⟩
  | go hc hl _ ih =>
    intro call hm
    rcases List.mem_cons.1 hm with rfl | hm
    · exact ⟨_, List.mem_cons_self, rfl, hc⟩
    · obtain ⟨task, ht, hcall⟩ := ih call hm
      exact ⟨task, List.mem_cons_of_mem _ ((Task.remaining?_sublist hl).subset ht), hcall⟩
  | stop hc _ =>
    intro call hm
    rw [List.mem_singleton.1 hm]
    exact ⟨_, List.mem_cons_self, rfl, hc⟩

theorem forall_site (p : Site → Prop) (h : Follows agenda cx calls final outcome)
    (hp : ∀ t ∈ agenda, p t.site) : ∀ c ∈ calls, p c.site := by
  intro c hc
  obtain ⟨t, ht, hs, -⟩ := h.called c hc
  rw [← hs]
  exact hp t ht

theorem head {task : Task} (h : Follows (task :: rest) cx calls final (.ok .next)) :
    task.call? cx = none ∧ Follows rest cx calls final (.ok .next) ∨
    ∃ run left later, task.call? cx = some run ∧ ¬ Stops run.outcome ∧ left.Sublist rest ∧
      calls = ⟨task.site, cx, run⟩ :: later ∧ Follows left run.context later final (.ok .next) := by
  generalize hn : (.ok .next : Except StepError Flow) = next at h
  cases h with
  | pass hc tail => exact .inl ⟨hc, tail⟩
  | go hc hl tail =>
    refine .inr ⟨_, _, _, hc, fun hs => ?_, Task.remaining?_sublist hl, rfl, tail⟩
    cases (Task.remaining?_eq_none_iff.2 hs).symm.trans hl
  | stop hc hl =>
    rw [Task.remaining?_eq_none_iff, ← hn] at hl
    exact absurd hl not_stops_next

theorem chained (h : Follows agenda cx calls final outcome) : Chained cx calls final := by
  induction h with
  | done => rfl
  | pass _ _ ih => exact ih
  | go _ _ _ ih => exact ⟨rfl, ih⟩
  | stop _ _ => exact ⟨rfl, rfl⟩

theorem endsAtFirstStop (h : Follows agenda cx calls final outcome) :
    EndsAtFirstStop calls outcome := by
  induction h with
  | done => exact .inl ⟨fun call hm => absurd hm List.not_mem_nil, rfl⟩
  | pass _ _ ih => exact ih
  | go _ hl _ ih =>
    apply EndsAtFirstStop.cons _ ih
    intro hs
    cases (Task.remaining?_eq_none_iff.2 hs).symm.trans hl
  | stop hc hl =>
    exact .inr ⟨[], _, rfl, fun c hm => absurd hm List.not_mem_nil,
      Task.remaining?_eq_none_iff.1 hl, rfl⟩

theorem append_of_stops (h : Follows agenda cx calls final outcome) (hs : Stops outcome)
    (ha : Task.Apart agenda rest) : Follows (agenda ++ rest) cx calls final outcome := by
  induction h with
  | done => exact absurd hs not_stops_next
  | pass hc _ ih => exact .pass hc (ih hs ha.of_cons)
  | go hc hl _ ih =>
    have hl' := (Task.remaining?_append ha).trans (congrArg _ hl)
    exact .go hc hl' (ih hs (ha.of_remaining hl))
  | stop hc hl => exact .stop hc ((Task.remaining?_append ha).trans (congrArg _ hl))

theorem append (h : Follows agenda cx calls middle (.ok .next)) (ha : Task.Apart agenda rest)
    (h' : Follows rest middle later final outcome) :
    Follows (agenda ++ rest) cx (calls ++ later) final outcome := by
  -- The outcome has to be a variable for the induction.
  generalize hn : (.ok .next : Except StepError Flow) = next at h
  induction h with
  | done => exact h'
  | pass hc _ ih => exact .pass hc (ih ha.of_cons h' hn)
  | go hc hl _ ih =>
    have hl' := (Task.remaining?_append ha).trans (congrArg _ hl)
    exact .go hc hl' (ih (ha.of_remaining hl) h' hn)
  | stop hc hl =>
    rw [Task.remaining?_eq_none_iff, ← hn] at hl
    exact absurd hl not_stops_next

/-- The calls of two agendas one behind the other: those of each, or the first one stops. -/
theorem split (h : Follows (agenda ++ rest) cx calls final outcome)
    (ha : Task.Apart agenda rest) :
    Follows agenda cx calls final outcome ∧ Stops outcome ∨
    ∃ earlier middle later, calls = earlier ++ later ∧
      Follows agenda cx earlier middle (.ok .next) ∧
      Follows rest middle later final outcome := by
  obtain ⟨earlier, middle, first, hf⟩ := total agenda cx
  rcases hf.outcome_eq_or with rfl | hs
  · obtain ⟨later, last, ending, hr⟩ := total rest middle
    obtain ⟨rfl, rfl, rfl⟩ := h.unique (hf.append ha hr)
    exact .inr ⟨earlier, middle, later, rfl, hf, hr⟩
  · obtain ⟨rfl, rfl, rfl⟩ := h.unique (hf.append_of_stops hs ha)
    exact .inl ⟨hf, hs⟩

end Follows

end QueryRouting
