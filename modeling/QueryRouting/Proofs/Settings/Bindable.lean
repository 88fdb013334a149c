import QueryRouting.Proofs.Route.Binding
import QueryRouting.Settings.Validation

namespace QueryRouting

/-- The key names a route, or something in one. -/
def ValidationError.IsInRoutes (e : ValidationError) : Prop :=
  "routes[".toList <+: e.key.toList

namespace Config

/-- An error of validation. -/
def Reports (c : Config) (e : ValidationError) : Prop :=
  ∃ errors, c.validate = .error errors ∧ e ∈ errors

theorem reports_iff {c : Config} {e : ValidationError} : c.Reports e ↔ e ∈ c.errors := by
  unfold Reports validate
  cases c.errors with
  | nil => simp
  | cons first rest => simp

theorem reportError_eq_nil_iff {key : String} {x : Except BindError α} :
    reportError key x = [] ↔ ∃ a, x = .ok a := by
  cases x <;> simp [reportError]

theorem stepErrors_eq_nil_iff {route : String} {j : Nat} {steps : List Json} :
    stepErrors route j steps = [] ↔
      ∀ v ∈ steps, ∃ argument, Argument.classify v = .ok argument := by
  induction steps generalizing j with
  | nil => simp [stepErrors]
  | cons v rest ih =>
    rw [stepErrors, List.append_eq_nil_iff, List.forall_mem_cons, ih, reportError_eq_nil_iff]

theorem routeErrors_eq_nil_iff {i : Nat} {route : RouteConfig} :
    routeErrors i route = [] ↔ route.Readable := by
  simp only [routeErrors, List.append_eq_nil_iff, reportError_eq_nil_iff, stepErrors_eq_nil_iff]
  constructor
  · rintro ⟨⟨hm, ⟨⟩, hp⟩, hs⟩
    exact ⟨hm, hp, hs⟩
  · rintro ⟨hm, hp, hs⟩
    exact ⟨⟨hm, (), hp⟩, hs⟩

theorem routesErrors_eq_nil_iff {i : Nat} {routes : List RouteConfig} :
    routesErrors i routes = [] ↔ ∀ route ∈ routes, route.Readable := by
  induction routes generalizing i with
  | nil => simp [routesErrors]
  | cons route rest ih =>
    rw [routesErrors, List.append_eq_nil_iff, List.forall_mem_cons, routeErrors_eq_nil_iff, ih]

theorem key_of_mem_report {failed : Bool} {key message : String} {e : ValidationError}
    (h : e ∈ report failed key message) : e.key = key := by
  rw [report] at h
  split at h
  · rw [List.mem_singleton.1 h]
  · cases h

theorem key_of_mem_reportError {key : String} {x : Except BindError α} {e : ValidationError}
    (h : e ∈ reportError key x) : e.key = key := by
  cases x with
  | ok a => cases h
  | error cause => rw [List.mem_singleton.1 h]

def fieldKeys : List String :=
  ["server.bind_address", "server.request_timeout_secs", "server.body_limit_bytes", "database.url",
    "database.max_connections", "database.acquire_timeout_secs"]

theorem key_mem_fieldKeys {server : ServerConfig} {database : DatabaseConfig}
    {e : ValidationError} (h : e ∈ serverErrors server ++ databaseErrors database) :
    e.key ∈ fieldKeys := by
  simp only [serverErrors, databaseErrors, positive, List.mem_append, or_assoc] at h
  rcases h with h | h | h | h | h | h <;> rw [key_of_mem_report h] <;> simp [fieldKeys]

theorem not_isInRoutes_of_key {e : ValidationError} (h : e.key ∈ fieldKeys) : ¬ e.IsInRoutes := by
  have hall : ∀ key ∈ fieldKeys, ¬ "routes[".toList <+: key.toList := by decide +kernel
  exact hall _ h

theorem isInRoutes_of_key {e : ValidationError} {i : Nat} {rest : String}
    (h : e.key = routeKey i ++ rest) : e.IsInRoutes := by
  refine ⟨(toString i ++ "]" ++ rest).toList, ?_⟩
  rw [h, routeKey]
  simp only [String.toList_append, List.append_assoc]

theorem key_of_mem_stepErrors {route : String} {j : Nat} {steps : List Json} {e : ValidationError}
    (h : e ∈ stepErrors route j steps) : ∃ rest, e.key = route ++ rest := by
  induction steps generalizing j with
  | nil => cases h
  | cons v steps ih =>
    rw [stepErrors, List.mem_append] at h
    rcases h with h | h
    · refine ⟨".steps[" ++ toString j ++ "]", ?_⟩
      rw [key_of_mem_reportError h]
      simp only [String.append_assoc]
    · exact ih h

theorem isInRoutes_of_mem_routesErrors {i : Nat} {routes : List RouteConfig} {e : ValidationError}
    (h : e ∈ routesErrors i routes) : e.IsInRoutes := by
  induction routes generalizing i with
  | nil => cases h
  | cons route routes ih =>
    rw [routesErrors, routeErrors, List.mem_append, List.mem_append, List.mem_append] at h
    rcases h with ((h | h) | h) | h
    · exact isInRoutes_of_key (key_of_mem_reportError h)
    · exact isInRoutes_of_key (key_of_mem_reportError h)
    · obtain ⟨rest, hk⟩ := key_of_mem_stepErrors h
      exact isInRoutes_of_key hk
    · exact ih h

theorem no_report_in_routes_iff {c : Config} :
    (∀ e, c.Reports e → ¬ e.IsInRoutes) ↔ ∀ route ∈ c.routes, route.Readable := by
  have hr : (∀ route ∈ c.routes, route.Readable) ↔ ∀ e, e ∉ routesErrors 0 c.routes := by
    rw [← routesErrors_eq_nil_iff, List.eq_nil_iff_forall_not_mem]
  rw [hr]
  simp only [reports_iff]
  constructor
  · intro h e he
    exact h e (List.mem_append_right _ he) (isInRoutes_of_mem_routesErrors he)
  · intro h e he
    rcases List.mem_append.1 he with he | he
    · exact not_isInRoutes_of_key (key_mem_fieldKeys he)
    · exact absurd he (h e)

/--
Routes can be bound just when checking reports nothing in them and each number among their steps
that is read as a status is one. Routes that pass the check fail only at such a number.
-/
theorem bindRoutes_iff_no_report (c : Config) (executor : Executor) :
    (((Builder.new executor).bindRoutes c.routes).2 = .ok () ↔
      (∀ e, c.Reports e → ¬ e.IsInRoutes) ∧ ∀ route ∈ c.routes, route.StatusesInRange) ∧
    ((∀ e, c.Reports e → ¬ e.IsInRoutes) →
      ∀ e, ((Builder.new executor).bindRoutes c.routes).2 = .error e →
        ∃ route ∈ c.routes, ∃ code : UInt16, .int code.toNat ∈ route.steps ∧
          ¬ Status.IsCode code ∧ e = .invalidStatus code) := by
  rw [no_report_in_routes_iff]
  constructor
  · rw [Builder.bindRoutes_isOk_iff]
    simp only [Builder.configuredBinding_isOk_iff]
    exact forall₂_and
  · intro hr e he
    obtain ⟨route, hm, hb⟩ := Builder.exists_route_of_bindRoutes he
    exact ⟨route, hm, Builder.exists_status_of_configuredBinding (hr route hm) hb⟩

/-- One route whose only step is a number below all statuses. -/
def noStatus : Config where
  routes := [⟨"get", "/a", [.int 42]⟩]

theorem errors_noStatus : noStatus.errors = [] := by
  decide +kernel

theorem bindRoutes_noStatus (executor : Executor) :
    ((Builder.new executor).bindRoutes noStatus.routes).2 = .error (.invalidStatus 42) := by
  rfl

/-- A route may pass the check and still not be bound. -/
theorem not_bindRoutes_iff_no_report :
    ¬ ∀ (c : Config) (executor : Executor),
      ((Builder.new executor).bindRoutes c.routes).2 = .ok () ↔
        ∀ e, c.Reports e → ¬ e.IsInRoutes := by
  intro h
  have hn : ∀ e, noStatus.Reports e → ¬ e.IsInRoutes := by
    intro e he
    rw [reports_iff, errors_noStatus] at he
    cases he
  have hb := (h noStatus (.custom fun _ => .ofResult (.ok .null))).2 hn
  cases (bindRoutes_noStatus _).symm.trans hb

end Config

end QueryRouting
