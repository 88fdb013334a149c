import QueryRouting.Proofs.Keyed
import QueryRouting.Proofs.Traversal
import QueryRouting.Route.Router

namespace QueryRouting

/-- The pattern has a parameter or a wildcard of this name. -/
def Pattern.Declares (pattern : Pattern) (name : String) : Prop :=
  .parameter name ∈ pattern ∨ .wildcard name ∈ pattern

theorem Pattern.mem_capture {pattern : Pattern} {path : List Char} {name : String}
    {captures : List (String × String)} (h : pattern.capture path = some captures)
    (hd : pattern.Declares name) : name ∈ captures.map (·.1) := by
  fun_induction Pattern.capture pattern path generalizing captures with
  | case1 => simp [Declares] at hd
  | case2 c rest path ih =>
    apply ih h
    simpa [Declares] using hd
  | case3 c rest d path hne => cases h
  | case4 key rest c path ih =>
    obtain ⟨others, ho, rfl⟩ := Option.map_eq_some_iff.1 h
    rw [List.map_cons, List.mem_cons]
    by_cases hk : name = key
    · exact .inl hk
    · apply Or.inr
      apply ih ho
      simpa [Declares, hk] using hd
  | case5 key c path =>
    cases h
    simpa [Declares] using hd
  | case6 => cases h

namespace PathMatch

variable {m : PathMatch} {name : String}

/-- Every captured value that is seen is text once it is decoded. -/
def Legible (m : PathMatch) : Prop :=
  ∀ c ∈ m.captures, isHidden c.1 = false → ∃ text, Percent.decodeText? c.2 = some text

def decoded? (c : String × String) : Option (String × String) :=
  (Percent.decodeText? c.2).map (c.1, ·)

theorem params_of_legible (h : m.Legible) :
    m.params = (m.captures.filter (!isHidden ·.1)).map fun c =>
      (c.1, (Percent.decodeText? c.2).getD "") := by
  have hm : (m.captures.filter (!isHidden ·.1)).mapM decoded? =
      some ((m.captures.filter (!isHidden ·.1)).map fun c =>
        (c.1, (Percent.decodeText? c.2).getD "")) := by
    rw [Traversal.mapM_eq_some_iff, List.map_map]
    apply List.map_congr_left
    intro c hc
    obtain ⟨hc, hv⟩ := List.mem_filter.1 hc
    obtain ⟨text, ht⟩ := h c hc (by simpa using hv)
    simp [decoded?, ht]
  exact congrArg (Option.getD · []) hm

theorem params_of_not_legible (h : ¬ m.Legible) : m.params = [] := by
  have hn : (m.captures.filter (!isHidden ·.1)).mapM decoded? = none := by
    rw [Option.eq_none_iff_forall_ne_some]
    intro params hp
    apply h
    intro c hc hv
    have hm : decoded? c ∈ params.map some := by
      rw [← Traversal.mapM_eq_some_iff.1 hp]
      exact List.mem_map_of_mem (List.mem_filter.2 ⟨hc, by simpa using hv⟩)
    obtain ⟨p, -, he⟩ := List.mem_map.1 hm
    obtain ⟨text, ht, -⟩ := Option.map_eq_some_iff.1 he.symm
    exact ⟨text, ht⟩
  exact congrArg (Option.getD · []) hn

/-- Which parameters there are depends on all values that the path captures. -/
theorem mem_params_iff (hc : name ∈ m.captures.map (·.1)) :
    name ∈ m.params.map (·.1) ↔ isHidden name = false ∧ m.Legible := by
  by_cases hl : m.Legible
  · rw [params_of_legible hl, List.map_map]
    constructor
    · intro hm
      obtain ⟨c, hf, rfl⟩ := List.mem_map.1 hm
      exact ⟨by simpa using (List.mem_filter.1 hf).2, hl⟩
    · rintro ⟨hv, -⟩
      obtain ⟨c, hm, rfl⟩ := List.mem_map.1 hc
      exact List.mem_map.2 ⟨c, List.mem_filter.2 ⟨hm, by simpa using hv⟩, rfl⟩
  · rw [params_of_not_legible hl]
    exact ⟨fun hm => absurd hm List.not_mem_nil, fun hv => absurd hv.2 hl⟩

theorem mem_of_best? {l : List PathMatch} {m : PathMatch} (h : best? l = some m) : m ∈ l := by
  induction l generalizing m with
  | nil => cases h
  | cons first rest ih =>
    rw [best?] at h
    cases hb : best? rest with
    | none =>
      rw [hb] at h
      cases h
      exact List.mem_cons_self
    | some other =>
      rw [hb] at h
      by_cases hp : other.entry.pattern.precedes first.entry.pattern
      · simp only [hp, if_true] at h
        cases h
        exact List.mem_cons_of_mem _ (ih hb)
      · simp only [hp] at h
        cases h
        exact List.mem_cons_self

theorem capture_of_mem_all {paths : List RegisteredPath} {path : List Char} {m : PathMatch}
    (h : m ∈ all paths path) : m.entry.pattern.capture path = some m.captures := by
  obtain ⟨entry, -, he⟩ := List.mem_filterMap.1 h
  obtain ⟨captures, hc, rfl⟩ := Option.map_eq_some_iff.1 he
  exact hc

end PathMatch

theorem Context.param?_ofRequest {request : Request} {params : List (String × String)}
    {fresh name : String} {body : Json} :
    (∃ value, ((Context.ofRequest request params fresh).setBody body).request.param? name =
      some value) ↔ name ∈ params.map (·.1) := by
  have hp : ((Context.ofRequest request params fresh).setBody body).request.param? name =
      (Keyed.find? name (Keyed.ofList (params.map fun p => (p.1, Json.str p.2)))).bind
        Json.string? := rfl
  have hk : (params.map fun p => (p.1, Json.str p.2)).map (·.1) = params.map (·.1) := by
    rw [List.map_map]
    rfl
  rw [hp, ← hk, ← Keyed.exists_find?_ofList_iff]
  constructor
  · rintro ⟨value, hv⟩
    obtain ⟨v, hf, -⟩ := Option.bind_eq_some_iff.1 hv
    exact ⟨v, hf⟩
  · rintro ⟨v, hf⟩
    obtain ⟨p, -, he⟩ := List.mem_map.1 (Keyed.mem_of_find?_ofList hf)
    cases he
    exact ⟨p.2, by rw [hf]; rfl⟩

end QueryRouting
