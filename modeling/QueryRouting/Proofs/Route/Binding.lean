import QueryRouting.Proofs.Traversal
import QueryRouting.Route.Router

namespace QueryRouting

open Traversal

def Status.IsCode (code : UInt16) : Prop :=
  100 ≤ code.toNat ∧ code.toNat ≤ 999

instance (code : UInt16) : Decidable (Status.IsCode code) :=
  inferInstanceAs (Decidable (_ ∧ _))

namespace Argument

theorem classifyAll_eq_mapM (steps : List Json) : classifyAll steps = steps.mapM classify := by
  induction steps with
  | nil => rfl
  | cons v rest ih => rw [classifyAll, List.mapM_cons, ih]

theorem compileAll_eq_mapM (executor : Executor) (arguments : List Argument) :
    compileAll executor arguments = arguments.mapM (compile executor) := by
  induction arguments with
  | nil => rfl
  | cons argument rest ih => rw [compileAll, List.mapM_cons, ih]

theorem classify_eq_status_iff {v : Json} {code : UInt16} :
    classify v = .ok (.status code) ↔ v = .int code.toNat := by
  constructor
  · intro h
    cases v with
    | null | str _ | bool _ | arr _ | double _ => cases h
    | int n =>
      rw [classify] at h
      split at h
      · rename_i hn
        obtain ⟨rfl⟩ : UInt16.ofNat n.toNat = code := by simpa using h
        have hs : n.toNat < UInt16.size := by
          have hw : Word.size 16 = UInt16.size := by decide
          omega
        rw [UInt16.toNat_ofNat_of_lt' hs, Int.toNat_of_nonneg hn.1]
      · cases h
    | obj fields =>
      rw [classify] at h
      split at h <;> cases h
  · rintro rfl
    have hs : code.toNat < Word.size 16 := code.toNat_lt
    rw [classify, if_pos (by omega), Int.toNat_natCast, UInt16.ofNat_toNat]

theorem compile_eq_error_iff {executor : Executor} {argument : Argument} {e : BindError} :
    argument.compile executor = .error e ↔
      ∃ code, argument = .status code ∧ ¬ Status.IsCode code ∧ e = .invalidStatus code := by
  cases argument with
  | clear | map _ | query _ | queryMap _ | raw _ => simp [compile]
  | status code =>
    rw [compile]
    cases hs : Status.ofCode? code.toNat with
    | some status =>
      have hc : Status.IsCode code := Status.ofCode?_isSome.1 (Option.isSome_of_eq_some hs)
      constructor
      · intro he
        cases he
      · rintro ⟨code', he, hn, -⟩
        cases he
        exact absurd hc hn
    | none =>
      have hc : ¬ Status.IsCode code := by
        intro hc
        have hi := Status.ofCode?_isSome.2 hc
        rw [hs] at hi
        cases hi
      constructor
      · intro he
        cases he
        exact ⟨code, rfl, hc, rfl⟩
      · rintro ⟨code', he, -, rfl⟩
        cases he
        rfl

theorem compile_isOk_iff {executor : Executor} {argument : Argument} :
    (∃ step, argument.compile executor = .ok step) ↔
      ∀ code, argument = .status code → Status.IsCode code := by
  cases h : argument.compile executor with
  | ok step =>
    constructor
    · rintro - code rfl
      by_contra hc
      cases h.symm.trans (compile_eq_error_iff.2 ⟨code, rfl, hc, rfl⟩)
    · intro
      exact ⟨step, rfl⟩
  | error e =>
    obtain ⟨code, rfl, hc, -⟩ := compile_eq_error_iff.1 h
    constructor
    · rintro ⟨step, hs⟩
      cases hs
    · intro hall
      exact absurd (hall code rfl) hc

end Argument

namespace RouteConfig

/-- Every step can be read, the method names one, and the path may be declared. -/
structure Readable (route : RouteConfig) : Prop where
  method : ∃ matcher, MethodMatcher.parse route.method = .ok matcher
  path : checkPath route.path = .ok ()
  steps : ∀ v ∈ route.steps, ∃ argument, Argument.classify v = .ok argument

/-- Every step that is read as a status has the code of one. -/
def StatusesInRange (route : RouteConfig) : Prop :=
  ∀ code : UInt16, .int code.toNat ∈ route.steps → Status.IsCode code

variable {route : RouteConfig} {executor : Executor}

theorem mem_of_classifyAll {arguments : List Argument} {code : UInt16}
    (h : Argument.classifyAll route.steps = .ok arguments) (hc : .status code ∈ arguments) :
    .int code.toNat ∈ route.steps := by
  rw [Argument.classifyAll_eq_mapM, mapM_eq_ok_iff] at h
  have hm : .ok (.status code) ∈ route.steps.map Argument.classify := by
    rw [h]
    exact List.mem_map_of_mem hc
  obtain ⟨v, hv, he⟩ := List.mem_map.1 hm
  rw [Argument.classify_eq_status_iff] at he
  rwa [← he]

theorem status_mem_of_classifyAll {arguments : List Argument} {code : UInt16}
    (h : Argument.classifyAll route.steps = .ok arguments) (hc : .int code.toNat ∈ route.steps) :
    .status code ∈ arguments := by
  rw [Argument.classifyAll_eq_mapM, mapM_eq_ok_iff] at h
  have hm : .ok (.status code) ∈ arguments.map (Except.ok (ε := BindError)) := by
    rw [← h]
    exact List.mem_map.2 ⟨_, hc, Argument.classify_eq_status_iff.2 rfl⟩
  obtain ⟨argument, ha, he⟩ := List.mem_map.1 hm
  rwa [← Except.ok.inj he]

theorem compileAll_isOk_iff {arguments : List Argument}
    (h : Argument.classifyAll route.steps = .ok arguments) :
    (∃ steps, Argument.compileAll executor arguments = .ok steps) ↔ route.StatusesInRange := by
  rw [Argument.compileAll_eq_mapM, mapM_isOk_iff]
  simp only [Argument.compile_isOk_iff]
  constructor
  · intro hall code hc
    exact hall _ (status_mem_of_classifyAll h hc) code rfl
  · rintro hall _ ha code rfl
    exact hall code (mem_of_classifyAll h ha)

end RouteConfig

namespace Builder

variable {executor : Executor} {route : RouteConfig} {matcher : MethodMatcher} {path : String}
  {arguments : List Argument} {bound : Binding} {e : BindError}

theorem binding_eq_ok_iff :
    binding executor matcher path arguments = .ok bound ↔ checkPath path = .ok () ∧
      ∃ steps, Argument.compileAll executor arguments = .ok steps ∧
        bound = ⟨path, matcher, steps⟩ := by
  simp only [binding, bind_eq_ok_iff]
  constructor
  · rintro ⟨⟨⟩, hp, steps, hs, he⟩
    exact ⟨hp, steps, hs, (Except.ok.inj he).symm⟩
  · rintro ⟨hp, steps, hs, rfl⟩
    exact ⟨(), hp, steps, hs, rfl⟩

/-- The path is checked before the arguments. -/
theorem binding_eq_error_iff :
    binding executor matcher path arguments = .error e ↔ checkPath path = .error e ∨
      checkPath path = .ok () ∧ Argument.compileAll executor arguments = .error e := by
  simp only [binding, bind_eq_error_iff]
  constructor
  · rintro (hp | ⟨⟨⟩, hp, hs | ⟨steps, -, he⟩⟩)
    · exact .inl hp
    · exact .inr ⟨hp, hs⟩
    · cases he
  · rintro (hp | ⟨hp, hs⟩)
    · exact .inl hp
    · exact .inr ⟨(), hp, .inl hs⟩

theorem configuredBinding_eq_ok_iff :
    configuredBinding executor route = .ok bound ↔
      ∃ matcher arguments, MethodMatcher.parse route.method = .ok matcher ∧
        Argument.classifyAll route.steps = .ok arguments ∧
        binding executor matcher route.path arguments = .ok bound := by
  simp only [configuredBinding, bind_eq_ok_iff]
  constructor
  · rintro ⟨matcher, hm, arguments, ha, hb⟩
    exact ⟨matcher, arguments, hm, ha, hb⟩
  · rintro ⟨matcher, arguments, hm, ha, hb⟩
    exact ⟨matcher, hm, arguments, ha, hb⟩

/-- The method comes first, then the steps from left to right, then what binding checks. -/
theorem configuredBinding_eq_error_iff :
    configuredBinding executor route = .error e ↔ MethodMatcher.parse route.method = .error e ∨
      ∃ matcher, MethodMatcher.parse route.method = .ok matcher ∧
        (Argument.classifyAll route.steps = .error e ∨
          ∃ arguments, Argument.classifyAll route.steps = .ok arguments ∧
            binding executor matcher route.path arguments = .error e) := by
  simp only [configuredBinding, bind_eq_error_iff]

theorem configuredBinding_isOk_iff :
    (∃ bound, configuredBinding executor route = .ok bound) ↔
      route.Readable ∧ route.StatusesInRange := by
  constructor
  · rintro ⟨bound, hb⟩
    obtain ⟨matcher, arguments, hm, ha, hb⟩ := configuredBinding_eq_ok_iff.1 hb
    obtain ⟨hp, hs⟩ := binding_eq_ok_iff.1 hb
    obtain ⟨steps, hs, -⟩ := hs
    refine ⟨⟨⟨matcher, hm⟩, hp, ?_⟩, (RouteConfig.compileAll_isOk_iff ha).1 ⟨steps, hs⟩⟩
    rw [Argument.classifyAll_eq_mapM] at ha
    exact mapM_isOk_iff.1 ⟨arguments, ha⟩
  · rintro ⟨⟨⟨matcher, hm⟩, hp, hv⟩, hs⟩
    obtain ⟨arguments, ha⟩ := mapM_isOk_iff.2 hv
    rw [← Argument.classifyAll_eq_mapM] at ha
    obtain ⟨steps, hs⟩ : ∃ steps, Argument.compileAll executor arguments = .ok steps :=
      (RouteConfig.compileAll_isOk_iff ha).2 hs
    have hb : binding executor matcher route.path arguments = .ok ⟨route.path, matcher, steps⟩ :=
      binding_eq_ok_iff.2 ⟨hp, steps, hs, rfl⟩
    exact ⟨_, configuredBinding_eq_ok_iff.2 ⟨matcher, arguments, hm, ha, hb⟩⟩

theorem exists_status_of_configuredBinding (hr : route.Readable)
    (h : configuredBinding executor route = .error e) :
    ∃ code : UInt16, .int code.toNat ∈ route.steps ∧ ¬ Status.IsCode code ∧
      e = .invalidStatus code := by
  rcases configuredBinding_eq_error_iff.1 h with hm | ⟨matcher, hm, ha | ⟨arguments, ha, hb⟩⟩
  · obtain ⟨matcher, hr⟩ := hr.method
    cases hr.symm.trans hm
  · obtain ⟨arguments, hs⟩ := mapM_isOk_iff.2 hr.steps
    rw [← Argument.classifyAll_eq_mapM] at hs
    cases hs.symm.trans ha
  · rcases binding_eq_error_iff.1 hb with hp | ⟨-, hc⟩
    · cases hr.path.symm.trans hp
    · rw [Argument.compileAll_eq_mapM, mapM_eq_error_iff] at hc
      obtain ⟨before, argument, after, rfl, -, hc⟩ := hc
      obtain ⟨code, rfl, hn, rfl⟩ := Argument.compile_eq_error_iff.1 hc
      refine ⟨code, ?_, hn, rfl⟩
      apply RouteConfig.mem_of_classifyAll ha
      exact List.mem_append_right _ List.mem_cons_self

theorem bindRoutes_isOk_iff {b : Builder} {routes : List RouteConfig} :
    (b.bindRoutes routes).2 = .ok () ↔
      ∀ route ∈ routes, ∃ bound, configuredBinding b.executor route = .ok bound := by
  induction routes generalizing b with
  | nil => simp [bindRoutes]
  | cons route rest ih =>
    rw [bindRoutes, List.forall_mem_cons]
    cases h : configuredBinding b.executor route with
    | ok bound =>
      simp only [ih, Except.ok.injEq, exists_eq', true_and]
      rfl
    | error e => simp

/-- Routes fail with the error of one of them. -/
theorem exists_route_of_bindRoutes {b : Builder} {routes : List RouteConfig}
    (h : (b.bindRoutes routes).2 = .error e) :
    ∃ route ∈ routes, configuredBinding b.executor route = .error e := by
  induction routes generalizing b with
  | nil => cases h
  | cons route rest ih =>
    rw [bindRoutes] at h
    cases hc : configuredBinding b.executor route with
    | ok bound =>
      rw [hc] at h
      obtain ⟨other, hm, ho⟩ := ih h
      exact ⟨other, List.mem_cons_of_mem _ hm, ho⟩
    | error e' =>
      rw [hc] at h
      obtain rfl : e' = e := Except.error.inj h
      exact ⟨route, List.mem_cons_self, hc⟩

end Builder

end QueryRouting
