import QueryRouting.Proofs.Settings.Faults

namespace QueryRouting.Config

/-- A new value for one thing in the settings, or a new route in place of another one. -/
inductive Edit
  | bindAddress (value : String)
  | requestTimeout (value : Nat)
  | bodyLimit (value : Nat)
  | requestId (value : Bool)
  | url (value : String)
  | maxConnections (value : Nat)
  | acquireTimeout (value : Nat)
  | logLevel (value : String)
  | traceRequests (value : Bool)
  | metricsEnabled (value : Bool)
  | method (route : Nat) (value : String)
  | path (route : Nat) (value : String)
  | step (route place : Nat) (value : Json)
  | route (route : Nat) (value : RouteConfig)

def edit (c : Config) : Edit → Config
  | .bindAddress value => { c with server.bindAddress := value }
  | .requestTimeout value => { c with server.requestTimeoutSecs := value }
  | .bodyLimit value => { c with server.bodyLimitBytes := value }
  | .requestId value => { c with server.requestId := value }
  | .url value => { c with database.url := value }
  | .maxConnections value => { c with database.maxConnections := value }
  | .acquireTimeout value => { c with database.acquireTimeoutSecs := value }
  | .logLevel value => { c with observability.logLevel := value }
  | .traceRequests value => { c with observability.traceRequests := value }
  | .metricsEnabled value => { c with observability.metricsEnabled := value }
  | .method i value =>
    { c with routes := c.routes.modify i fun route => { route with method := value } }
  | .path i value =>
    { c with routes := c.routes.modify i fun route => { route with path := value } }
  | .step i j value =>
    { c with
      routes := c.routes.modify i fun route => { route with steps := route.steps.set j value } }
  | .route i value => { c with routes := c.routes.set i value }

namespace Edit

/-- Whether an error under the key may be about what is changed. -/
def covers : Edit → String → Bool
  | .bindAddress _, key => key == Check.bindAddress.key
  | .requestTimeout _, key => key == Check.requestTimeout.key
  | .bodyLimit _, key => key == Check.bodyLimit.key
  | .url _, key => key == Check.url.key
  | .maxConnections _, key => key == Check.maxConnections.key
  | .acquireTimeout _, key => key == Check.acquireTimeout.key
  | .requestId _, _ | .logLevel _, _ | .traceRequests _, _ | .metricsEnabled _, _ => false
  | .method i _, key => key == (Check.method i).key
  | .path i _, key => key == (Check.path i).key
  | .step i j _, key => key == (Check.step i j).key
  | .route i _, key => (routeKey i).toList.isPrefixOf key.toList

/-- A change of one route does not show in another one, nor in what it leaves alone. -/
theorem bind_modify {routes : List RouteConfig} {f : RouteConfig → RouteConfig}
    {g : RouteConfig → Option β} {i k : Nat} (h : i = k → ∀ route, g (f route) = g route) :
    (routes.modify i f)[k]?.bind g = routes[k]?.bind g := by
  rw [List.getElem?_modify]
  cases routes[k]? with
  | none => rfl
  | some route =>
    by_cases hk : i = k
    · simp [hk, h hk]
    · simp [hk]

theorem covers_route_of_within {i : Nat} {check : Check} {rest : String} {value : RouteConfig}
    (h : Check.Within i check rest) : (Edit.route i value).covers check.key = true := by
  rw [covers, h.key, List.isPrefixOf_iff_prefix, String.toList_append]
  exact List.prefix_append _ _

theorem fault?_edit {edit : Edit} {check : Check} (c : Config)
    (h : edit.covers check.key = false) : check.fault? (c.edit edit) = check.fault? c := by
  cases edit with
  | requestId value | logLevel value | traceRequests value | metricsEnabled value =>
    cases check <;> rfl
  | bindAddress value =>
    cases check with
    | bindAddress => simp [covers] at h
    | _ => rfl
  | requestTimeout value =>
    cases check with
    | requestTimeout => simp [covers] at h
    | _ => rfl
  | bodyLimit value =>
    cases check with
    | bodyLimit => simp [covers] at h
    | _ => rfl
  | url value =>
    cases check with
    | url => simp [covers] at h
    | _ => rfl
  | maxConnections value =>
    cases check with
    | maxConnections => simp [covers] at h
    | _ => rfl
  | acquireTimeout value =>
    cases check with
    | acquireTimeout => simp [covers] at h
    | _ => rfl
  | method i value =>
    cases check with
    | method k =>
      apply bind_modify
      rintro rfl
      simp [covers] at h
    | path k | step k l => exact bind_modify fun _ _ => rfl
    | _ => rfl
  | path i value =>
    cases check with
    | path k =>
      apply bind_modify
      rintro rfl
      simp [covers] at h
    | method k | step k l => exact bind_modify fun _ _ => rfl
    | _ => rfl
  | step i j value =>
    cases check with
    | step k l =>
      apply bind_modify
      rintro rfl route
      have hne : j ≠ l := by
        rintro rfl
        simp [covers] at h
      simp only [List.getElem?_set_ne hne]
    | method k | path k => exact bind_modify fun _ _ => rfl
    | _ => rfl
  | route i value =>
    have hne {k : Nat} {rest : String} (hw : Check.Within k check rest) : i ≠ k := by
      rintro rfl
      exact Bool.false_ne_true (h.symm.trans (covers_route_of_within hw))
    cases check with
    | method k => exact congrArg (Option.bind · _) (List.getElem?_set_ne (hne .method))
    | path k => exact congrArg (Option.bind · _) (List.getElem?_set_ne (hne .path))
    | step k l => exact congrArg (Option.bind · _) (List.getElem?_set_ne (hne (.step l)))
    | _ => rfl

end Edit

theorem filter_errors_eq {c c' : Config} (keep : String → Bool)
    (h : ∀ check : Check, keep check.key = true → check.fault? c = check.fault? c') :
    c.errors.filter (keep ·.key) = c'.errors.filter (keep ·.key) := by
  have hirrefl : Std.Irrefl fun x y : Check × String => x.1.Precedes y.1 :=
    ⟨fun x => Check.Precedes.irrefl x.1⟩
  have hantisymm : Std.Antisymm fun x y : Check × String => x.1.Precedes y.1 :=
    ⟨fun _ _ hxy hyx => absurd hyx hxy.asymm⟩
  have hfaults : c.faults.filter (keep ·.1.key) = c'.faults.filter (keep ·.1.key) := by
    apply ((pairwise_faults c).filter _).eq_of_mem_iff ((pairwise_faults c').filter _)
    rintro ⟨check, message⟩
    rw [List.mem_filter, List.mem_filter, mem_faults_iff, mem_faults_iff]
    apply and_congr_left
    intro hk
    rw [h check hk]
  rw [errors_eq, errors_eq, List.filter_map, List.filter_map]
  exact congrArg (List.map Check.error) hfaults

theorem nodup_keys (c : Config) : (c.errors.map (·.key)).Nodup := by
  rw [errors_eq, List.map_map, List.Nodup, List.pairwise_map]
  apply (pairwise_faults c).imp
  intro x y hxy hk
  rw [Check.key_injective hk] at hxy
  exact Check.Precedes.irrefl _ hxy

theorem errors_eq_nil_iff {c : Config} :
    c.errors = [] ↔ ∀ check : Check, check.fault? c = none := by
  rw [errors_eq, List.map_eq_nil_iff, List.eq_nil_iff_forall_not_mem]
  constructor
  · intro h check
    rw [Option.eq_none_iff_forall_not_mem]
    intro message hm
    exact h (check, message) (mem_faults_iff.2 hm)
  · rintro h ⟨check, message⟩ hm
    cases (h check).symm.trans (mem_faults_iff.1 hm)

/--
Checking reports each fault once, in the order of the checks and under a key of its own, and
settings pass just when no check finds a fault. A change at one place makes no difference to what is
reported under keys that are not about this place.
-/
theorem validate_reports_faults (c : Config) :
    (∃ faults : List (Check × String), (faults.Pairwise fun x y => x.1.Precedes y.1) ∧
      (∀ check message, (check, message) ∈ faults ↔ check.fault? c = some message) ∧
      c.errors = faults.map Check.error) ∧
    (c.errors.map (·.key)).Nodup ∧
    ((∀ check : Check, check.fault? c = none) ∧ c.validate = .ok c ∨
      (∃ (check : Check) (message : String), check.fault? c = some message) ∧
        c.validate = .error c.errors) ∧
    ∀ edit : Edit, (c.edit edit).errors.filter (!edit.covers ·.key) =
      c.errors.filter (!edit.covers ·.key) := by
  refine ⟨⟨c.faults, pairwise_faults c, fun _ _ => mem_faults_iff, errors_eq c⟩, nodup_keys c,
    ?_, ?_⟩
  · unfold validate
    cases he : c.errors with
    | nil => exact .inl ⟨errors_eq_nil_iff.1 he, rfl⟩
    | cons e rest =>
      have hm : e ∈ c.faults.map Check.error := by
        rw [← errors_eq, he]
        exact List.mem_cons_self
      obtain ⟨⟨check, message⟩, hf, -⟩ := List.mem_map.1 hm
      exact .inr ⟨⟨check, message, mem_faults_iff.1 hf⟩, rfl⟩
  · intro edit
    apply filter_errors_eq fun key => !edit.covers key
    intro check hk
    exact Edit.fault?_edit c (Bool.not_eq_eq_eq_not.1 hk)

end QueryRouting.Config
