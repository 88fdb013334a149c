import Mathlib.Data.List.Sort
import QueryRouting.Proofs.Settings.Check

namespace QueryRouting.Config

open Traversal

/-- The checks in a route at this place. -/
def checksOfRoute (route : RouteConfig × Nat) : List Check :=
  .method route.2 :: .path route.2 :: route.1.steps.zipIdx.map fun step => .step route.2 step.2

/-- All checks of these settings, one after the other. -/
def checks (c : Config) : List Check :=
  Check.fields ++ c.routes.zipIdx.flatMap checksOfRoute

/-- The checks that fail, and what each of them has found. -/
def faults (c : Config) : List (Check × String) :=
  c.checks.filterMap fun check => (check.fault? c).map (check, ·)

section Listing

variable {c : Config} {check other : Check} {route : RouteConfig × Nat}

theorem mem_checksOfRoute : check ∈ checksOfRoute route ↔ check = .method route.2 ∨
    check = .path route.2 ∨ ∃ j v, route.1.steps[j]? = some v ∧ check = .step route.2 j := by
  simp only [checksOfRoute, List.mem_cons, List.mem_map, Prod.exists,
    List.mk_mem_zipIdx_iff_getElem?]
  constructor
  · rintro (h | h | ⟨v, j, hj, rfl⟩)
    · exact .inl h
    · exact .inr (.inl h)
    · exact .inr (.inr ⟨j, v, hj, rfl⟩)
  · rintro (h | h | ⟨j, v, hj, rfl⟩)
    · exact .inl h
    · exact .inr (.inl h)
    · exact .inr (.inr ⟨v, j, hj, rfl⟩)

theorem exists_rank_of_mem_checksOfRoute (h : check ∈ checksOfRoute route) :
    ∃ rest, check.rank = 6 :: route.2 :: rest := by
  rcases mem_checksOfRoute.1 h with rfl | rfl | ⟨j, -, -, rfl⟩
  · exact ⟨[0], rfl⟩
  · exact ⟨[1], rfl⟩
  · exact ⟨[2, j], rfl⟩

theorem pairwise_snd_zipIdx (l : List α) : l.zipIdx.Pairwise fun x y => x.2 < y.2 := by
  have h : (l.zipIdx.map (·.2)).Pairwise (· < ·) := by
    rw [List.zipIdx_map_snd]
    exact List.pairwise_lt_range' 1
  exact List.pairwise_map.1 h

theorem pairwise_checksOfRoute (route : RouteConfig × Nat) :
    (checksOfRoute route).Pairwise Check.Precedes := by
  have hsteps : (route.1.steps.zipIdx.map fun step => Check.step route.2 step.2).Pairwise
      Check.Precedes := by
    rw [List.pairwise_map]
    apply (pairwise_snd_zipIdx route.1.steps).imp
    intro x y h
    simp [Check.Precedes, Check.rank, List.cons_lt_cons_iff, h]
  refine .cons (fun check h => ?_) (.cons (fun check h => ?_) hsteps)
  · rcases List.mem_cons.1 h with rfl | h
    · simp [Check.Precedes, Check.rank, List.cons_lt_cons_iff]
    · obtain ⟨step, -, rfl⟩ := List.mem_map.1 h
      simp [Check.Precedes, Check.rank, List.cons_lt_cons_iff]
  · obtain ⟨step, -, rfl⟩ := List.mem_map.1 h
    simp [Check.Precedes, Check.rank, List.cons_lt_cons_iff]

theorem exists_rank_of_mem_fields : ∀ check ∈ Check.fields, ∃ k, k < 6 ∧ check.rank = [k] := by
  decide

theorem pairwise_checks (c : Config) : c.checks.Pairwise Check.Precedes := by
  refine List.pairwise_append.2 ⟨by decide, List.pairwise_flatMap.2 ⟨?_, ?_⟩, ?_⟩
  · exact fun route _ => pairwise_checksOfRoute route
  · apply (pairwise_snd_zipIdx c.routes).imp
    intro route route' hlt check h other h'
    obtain ⟨rest, hr⟩ := exists_rank_of_mem_checksOfRoute h
    obtain ⟨rest', hr'⟩ := exists_rank_of_mem_checksOfRoute h'
    simp [Check.Precedes, hr, hr', List.cons_lt_cons_iff, hlt]
  · intro check h other h'
    obtain ⟨k, hk, hr⟩ := exists_rank_of_mem_fields check h
    obtain ⟨route, -, h'⟩ := List.mem_flatMap.1 h'
    obtain ⟨rest, hr'⟩ := exists_rank_of_mem_checksOfRoute h'
    simp [Check.Precedes, hr, hr', List.cons_lt_cons_iff, hk]

theorem mem_checks_of_fault {message : String} (h : check.fault? c = some message) :
    check ∈ c.checks := by
  rw [checks, List.mem_append, List.mem_flatMap]
  cases check with
  | bindAddress | requestTimeout | bodyLimit | url | maxConnections | acquireTimeout =>
    exact .inl (by decide)
  | method i =>
    obtain ⟨route, hr, -⟩ := Option.bind_eq_some_iff.1 h
    exact .inr ⟨(route, i), List.mk_mem_zipIdx_iff_getElem?.2 hr, mem_checksOfRoute.2 (.inl rfl)⟩
  | path i =>
    obtain ⟨route, hr, -⟩ := Option.bind_eq_some_iff.1 h
    exact .inr ⟨(route, i), List.mk_mem_zipIdx_iff_getElem?.2 hr,
      mem_checksOfRoute.2 (.inr (.inl rfl))⟩
  | step i j =>
    obtain ⟨route, hr, h⟩ := Option.bind_eq_some_iff.1 h
    obtain ⟨v, hv, -⟩ := Option.bind_eq_some_iff.1 h
    exact .inr ⟨(route, i), List.mk_mem_zipIdx_iff_getElem?.2 hr,
      mem_checksOfRoute.2 (.inr (.inr ⟨j, v, hv, rfl⟩))⟩

theorem mem_faults_iff {message : String} :
    (check, message) ∈ c.faults ↔ check.fault? c = some message := by
  simp only [faults, List.mem_filterMap, Option.map_eq_some_iff, Prod.mk.injEq]
  constructor
  · rintro ⟨_, -, _, h, rfl, rfl⟩
    exact h
  · intro h
    exact ⟨check, mem_checks_of_fault h, message, h, rfl, rfl⟩

theorem pairwise_faults (c : Config) : c.faults.Pairwise fun x y => x.1.Precedes y.1 := by
  refine (pairwise_checks c).filterMap _ fun check other h x hx y hy => ?_
  obtain ⟨_, -, rfl⟩ := Option.map_eq_some_iff.1 hx
  obtain ⟨_, -, rfl⟩ := Option.map_eq_some_iff.1 hy
  exact h

end Listing

/-- What the check adds to the errors of these settings. -/
def reported (c : Config) (check : Check) : List ValidationError :=
  ((check.fault? c).map fun message => Check.error (check, message)).toList

section Reported

variable {c : Config}

theorem map_error_faults (c : Config) :
    c.faults.map Check.error = c.checks.flatMap c.reported := by
  rw [faults, List.map_filterMap, List.filterMap_eq_flatMap_toList]
  simp only [Option.map_map]
  rfl

theorem report_isNone_eq (x : Option α) (key message : String) : report x.isNone key message =
    ((if x.isSome then none else some message).map (ValidationError.mk key)).toList := by
  cases x <;> rfl

theorem reportError_eq (key : String) (x : Except BindError α) :
    reportError key x = ((Check.refusal? x).map (ValidationError.mk key)).toList := by
  cases x <;> rfl

theorem positive_eq (key : String) (n : Nat) :
    positive key n = ((Check.positive? n).map (ValidationError.mk key)).toList := by
  cases n <;> rfl

theorem fieldErrors_eq (c : Config) :
    serverErrors c.server ++ databaseErrors c.database = Check.fields.flatMap c.reported := by
  simp only [serverErrors, databaseErrors, report_isNone_eq, positive_eq, Check.fields,
    List.flatMap_cons, List.flatMap_nil, List.append_nil, List.append_assoc]
  rfl

theorem reported_of_within {i : Nat} {check : Check} {rest : String} {x : Except BindError α}
    (h : Check.Within i check rest) (hf : check.fault? c = Check.refusal? x) :
    c.reported check = reportError (routeKey i ++ rest) x := by
  rw [reportError_eq, ← h.key, reported, hf]
  rfl

theorem stepErrors_eq (route : String) (j : Nat) (steps : List Json) :
    stepErrors route j steps = (steps.zipIdx j).flatMap fun step =>
      reportError (route ++ ".steps[" ++ toString step.2 ++ "]") (Argument.classify step.1) := by
  induction steps generalizing j with
  | nil => rfl
  | cons v rest ih => rw [stepErrors, List.zipIdx_cons, List.flatMap_cons, ih]

theorem routesErrors_eq (i : Nat) (routes : List RouteConfig) :
    routesErrors i routes = (routes.zipIdx i).flatMap fun route =>
      routeErrors route.2 route.1 := by
  induction routes generalizing i with
  | nil => rfl
  | cons route rest ih => rw [routesErrors, List.zipIdx_cons, List.flatMap_cons, ih]

theorem routeErrors_eq {i : Nat} {route : RouteConfig} (h : c.routes[i]? = some route) :
    routeErrors i route = (checksOfRoute (route, i)).flatMap c.reported := by
  have hmethod : c.reported (.method i) = reportError (routeKey i ++ ".method")
      (MethodMatcher.parse route.method) :=
    reported_of_within .method (by rw [Check.fault?, h, Option.bind_some])
  have hpath : c.reported (.path i) = reportError (routeKey i ++ ".path") (checkPath route.path) :=
    reported_of_within .path (by rw [Check.fault?, h, Option.bind_some])
  have hsteps : stepErrors (routeKey i) 0 route.steps =
      (route.steps.zipIdx.map fun step => Check.step i step.2).flatMap c.reported := by
    rw [stepErrors_eq, List.flatMap_map]
    apply List.flatMap_congr
    intro step hs
    have hv : route.steps[step.2]? = some step.1 := List.mem_zipIdx_iff_getElem?.1 hs
    have hf : (Check.step i step.2).fault? c = Check.refusal? (Argument.classify step.1) := by
      rw [Check.fault?, h, Option.bind_some, hv, Option.bind_some]
    rw [reported_of_within (.step step.2) hf]
    simp only [String.append_assoc]
  rw [routeErrors, checksOfRoute, List.flatMap_cons, List.flatMap_cons, hmethod, hpath, hsteps,
    List.append_assoc]

theorem errors_eq (c : Config) : c.errors = c.faults.map Check.error := by
  have hroutes : routesErrors 0 c.routes =
      (c.routes.zipIdx.flatMap checksOfRoute).flatMap c.reported := by
    rw [routesErrors_eq, List.flatMap_assoc]
    apply List.flatMap_congr
    intro route h
    exact routeErrors_eq (List.mem_zipIdx_iff_getElem?.1 h)
  rw [map_error_faults, checks, List.flatMap_append, ← fieldErrors_eq, ← hroutes]
  rfl

end Reported

end QueryRouting.Config
