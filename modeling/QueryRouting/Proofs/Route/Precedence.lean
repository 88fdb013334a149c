import QueryRouting.Proofs.Route.Params
import QueryRouting.Proofs.Route.PatternGrammar

namespace QueryRouting

namespace Pattern

variable {p q r : Pattern} {path : List Char} {captures captures' : List (String × String)}

theorem precedes_asymm (h : precedes p q) : precedes q p = false := by
  fun_induction precedes p q with
  | case1 c p d q ih => exact ih h
  | case2 name p name' q ih => exact ih h
  | case3 c p q hn =>
    cases q with
    | nil => rfl
    | cons part q =>
      cases part with
      | literal d => exact absurd rfl (hn d q)
      | parameter | wildcard => rfl
  | case4 => rfl
  | case5 => cases h

theorem exists_literal_of_precedes {c : Char} (h : precedes p (.literal c :: q)) :
    ∃ d p', p = .literal d :: p' := by
  cases p with
  | nil => cases h
  | cons part p =>
    cases part with
    | literal d => exact ⟨d, p, rfl⟩
    | parameter | wildcard => cases h

theorem precedes_wildcard (name : String) (p q : Pattern) :
    precedes (.wildcard name :: p) q = false := by
  cases q <;> rfl

theorem precedes_trans (h : precedes p q) (h' : precedes q r) : precedes p r := by
  fun_induction precedes p q generalizing r with
  | case1 c p d q ih =>
    cases r with
    | nil => rfl
    | cons part r =>
      cases part with
      | literal e => exact ih h h'
      | parameter | wildcard => rfl
  | case2 name p name' q ih =>
    cases r with
    | nil => cases h'
    | cons part r =>
      cases part with
      | literal e => cases h'
      | parameter => exact ih h h'
      | wildcard => rfl
  | case3 c p q hn =>
    cases r with
    | nil => rfl
    | cons part r =>
      cases part with
      | literal e =>
        obtain ⟨d, q', rfl⟩ := exists_literal_of_precedes h'
        exact absurd rfl (hn d q')
      | parameter | wildcard => rfl
  | case4 =>
    rw [precedes_wildcard] at h'
    cases h'
  | case5 => cases h

/-- Patterns for the same path that can be told apart differ first where one takes precedence. -/
theorem precedes_or_of_capture (hp : p.capture path = some captures)
    (hq : q.capture path = some captures') (hn : conflicts p q = false) :
    precedes p q ∨ precedes q p := by
  fun_induction capture p path generalizing q captures captures' with
  | case1 =>
    cases q with
    | nil => cases hn
    | cons part q =>
      cases part with
      | literal | parameter => cases hq
      | wildcard => cases q <;> cases hq
  | case2 c rest path ih =>
    cases q with
    | nil => cases hq
    | cons part q =>
      cases part with
      | literal d =>
        rw [capture] at hq
        split at hq
        · rename_i hd
          subst hd
          rw [conflicts, beq_self_eq_true, Bool.true_and] at hn
          exact ih hp hq hn
        · cases hq
      | parameter | wildcard => exact .inl rfl
  | case3 => cases hp
  | case4 name rest c path ih =>
    obtain ⟨others, ho, -⟩ := Option.map_eq_some_iff.1 hp
    cases q with
    | nil => cases hq
    | cons part q =>
      cases part with
      | literal d => exact .inr rfl
      | parameter name' =>
        obtain ⟨others', ho', -⟩ := Option.map_eq_some_iff.1 hq
        exact ih ho ho' hn
      | wildcard => cases hn
  | case5 name c path =>
    cases q with
    | nil => cases hq
    | cons part q =>
      cases part with
      | literal d => exact .inr rfl
      | parameter | wildcard => cases hn
  | case6 => cases hp

end Pattern

namespace PathMatch

/-- Of two matches, one wins. -/
def Decided (m other : PathMatch) : Prop :=
  m.entry.pattern.precedes other.entry.pattern ∨ other.entry.pattern.precedes m.entry.pattern

variable {ms ms' : List PathMatch} {m other : PathMatch}

theorem Decided.symm (h : m.Decided other) : other.Decided m :=
  Or.symm h

theorem best?_eq_none_iff : best? ms = none ↔ ms = [] := by
  cases ms with
  | nil => exact iff_of_true rfl rfl
  | cons m rest =>
    apply iff_of_false
    · rw [best?]
      split
      · exact Option.some_ne_none _
      · split <;> exact Option.some_ne_none _
    · exact List.cons_ne_nil _ _

theorem eq_or_precedes_of_best? (hd : ms.Pairwise Decided) (h : best? ms = some m) :
    ∀ other ∈ ms, other = m ∨ m.entry.pattern.precedes other.entry.pattern := by
  induction ms generalizing m with
  | nil => cases h
  | cons first rest ih =>
    rw [List.pairwise_cons] at hd
    rw [List.forall_mem_cons]
    rw [best?] at h
    cases hb : best? rest with
    | none =>
      rw [hb] at h
      cases h
      rw [best?_eq_none_iff.1 hb]
      exact ⟨.inl rfl, fun other ho => absurd ho List.not_mem_nil⟩
    | some winner =>
      simp only [hb] at h
      have hrest := ih hd.2 hb
      split at h
      · rename_i hw
        cases h
        exact ⟨.inr hw, hrest⟩
      · rename_i hw
        cases h
        have hfirst := (hd.1 winner (mem_of_best? hb)).resolve_right hw
        refine ⟨.inl rfl, fun other ho => .inr ?_⟩
        rcases hrest other ho with rfl | hlater
        · exact hfirst
        · exact Pattern.precedes_trans hfirst hlater

/-- The winner does not depend on the order in which matches are looked at. -/
theorem best?_perm (hp : ms.Perm ms') (hd : ms.Pairwise Decided) : best? ms = best? ms' := by
  cases h : best? ms with
  | none =>
    rw [best?_eq_none_iff.1 h] at hp
    rw [← hp.nil_eq, best?]
  | some m =>
    cases h' : best? ms' with
    | none =>
      rw [best?_eq_none_iff.1 h'] at hp
      rw [hp.eq_nil] at h
      cases h
    | some m' =>
      have hd' : ms'.Pairwise Decided := (hp.pairwise_iff fun hmo => Decided.symm hmo).1 hd
      rcases eq_or_precedes_of_best? hd h m' (hp.mem_iff.2 (mem_of_best? h')) with rfl | hm
      · rfl
      · rcases eq_or_precedes_of_best? hd' h' m (hp.mem_iff.1 (mem_of_best? h)) with rfl | hm'
        · rfl
        · rw [Pattern.precedes_asymm hm] at hm'
          cases hm'

/-- Paths that can be told apart leave no two matches undecided. -/
theorem decided_all {paths : List RegisteredPath}
    (h : paths.Pairwise fun x y => ¬ Pattern.Clash x.pattern y.pattern) (path : List Char) :
    (all paths path).Pairwise Decided := by
  apply h.filterMap
  intro x y hn m hm m' hm'
  obtain ⟨captures, hc, rfl⟩ := Option.map_eq_some_iff.1 hm
  obtain ⟨captures', hc', rfl⟩ := Option.map_eq_some_iff.1 hm'
  rw [← Pattern.conflicts_iff, Bool.not_eq_true] at hn
  exact Pattern.precedes_or_of_capture hc hc' hn

end PathMatch

end QueryRouting
