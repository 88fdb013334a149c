import Mathlib.Data.List.Nodup
import Mathlib.Data.List.Perm.Basic

namespace QueryRouting.Traversal

theorem map_eq_ok_iff {x : Except ε α} {g : α → β} {b : β} :
    x.map g = .ok b ↔ ∃ a, x = .ok a ∧ g a = b := by
  cases x <;> simp [Except.map]

theorem map_eq_error_iff {x : Except ε α} {g : α → β} {e : ε} :
    x.map g = .error e ↔ x = .error e := by
  cases x <;> simp [Except.map]

theorem mapError_eq_ok_iff {x : Except ε α} {g : ε → δ} {a : α} :
    x.mapError g = .ok a ↔ x = .ok a := by
  cases x <;> simp [Except.mapError]

theorem mapError_eq_error_iff {x : Except ε α} {g : ε → δ} {d : δ} :
    x.mapError g = .error d ↔ ∃ e, x = .error e ∧ g e = d := by
  cases x <;> simp [Except.mapError]

theorem bind_eq_ok_iff {x : Except ε α} {g : α → Except ε β} {b : β} :
    (x >>= g) = .ok b ↔ ∃ a, x = .ok a ∧ g a = .ok b := by
  cases x <;> simp [bind, Except.bind]

theorem bind_eq_error_iff {x : Except ε α} {g : α → Except ε β} {e : ε} :
    (x >>= g) = .error e ↔ x = .error e ∨ ∃ a, x = .ok a ∧ g a = .error e := by
  cases x <;> simp [bind, Except.bind]

/-- The failure of a computation, if it fails. -/
def failure? : Except ε α → Option ε
  | .ok _ => none
  | .error e => some e

theorem failure?_eq_some_iff {x : Except ε α} {e : ε} : failure? x = some e ↔ x = .error e := by
  cases x <;> simp [failure?]

theorem failure?_eq_none_iff {x : Except ε α} : failure? x = none ↔ ∃ a, x = .ok a := by
  cases x <;> simp [failure?]

theorem failure?_map (x : Except ε α) (g : α → β) : failure? (x.map g) = failure? x := by
  cases x <;> rfl

theorem failure?_bind_pure (x : Except ε α) (g : α → β) :
    failure? (x >>= fun a => pure (g a)) = failure? x := by
  cases x <;> rfl

section List

variable {α : Type u} {β : Type v} {ε : Type w} {f : α → Except ε β} {l : List α}

theorem mapM_nil : [].mapM f = .ok [] := rfl

theorem mapM_cons_ok {a : α} {b : β} (h : f a = .ok b) :
    (a :: l).mapM f = (l.mapM f).map (b :: ·) := by
  rw [List.mapM_cons, h]
  cases l.mapM f <;> rfl

theorem mapM_cons_error {a : α} {e : ε} (h : f a = .error e) : (a :: l).mapM f = .error e := by
  rw [List.mapM_cons, h]
  rfl

theorem mapM_eq_ok_iff {bs : List β} : l.mapM f = .ok bs ↔ l.map f = bs.map .ok := by
  induction l generalizing bs with
  | nil =>
    rw [mapM_nil]
    cases bs <;> simp
  | cons a l ih =>
    cases ha : f a with
    | error e =>
      rw [mapM_cons_error ha, List.map_cons, ha]
      cases bs <;> simp
    | ok b =>
      rw [mapM_cons_ok ha, List.map_cons, ha]
      cases hl : l.mapM f with
      | error e =>
        cases bs with
        | nil => simp [Except.map]
        | cons c cs =>
          have hn : l.map f ≠ cs.map .ok := mt ih.2 (by simp [hl])
          simp [Except.map, hn]
      | ok others =>
        have ho := ih.1 hl
        cases bs with
        | nil => simp [Except.map]
        | cons c cs =>
          have hinj : others.map (Except.ok (ε := ε)) = cs.map .ok ↔ others = cs :=
            List.map_inj_right fun _ _ h => Except.ok.inj h
          simp [Except.map, ho, hinj]

theorem mapM_eq_error_iff {e : ε} :
    l.mapM f = .error e ↔ ∃ before a after, l = before ++ a :: after ∧
      (∀ x ∈ before, ∃ b, f x = .ok b) ∧ f a = .error e := by
  constructor
  · intro h
    induction l with
    | nil =>
      rw [mapM_nil] at h
      cases h
    | cons a l ih =>
      cases ha : f a with
      | error e' =>
        rw [mapM_cons_error ha] at h
        exact ⟨[], a, l, rfl, by simp, by rw [ha, Except.error.inj h]⟩
      | ok b =>
        rw [mapM_cons_ok ha] at h
        cases hl : l.mapM f with
        | ok bs => simp [hl, Except.map] at h
        | error e' =>
          rw [hl] at h
          obtain ⟨before, x, after, rfl, hb, hx⟩ := ih (hl.trans h)
          refine ⟨a :: before, x, after, rfl, ?_, hx⟩
          intro y hy
          rcases List.mem_cons.1 hy with rfl | hy
          · exact ⟨b, ha⟩
          · exact hb y hy
  · rintro ⟨before, a, after, rfl, hb, ha⟩
    induction before with
    | nil => exact mapM_cons_error ha
    | cons x before ih =>
      obtain ⟨b, hx⟩ := hb x List.mem_cons_self
      rw [List.cons_append, mapM_cons_ok hx, ih fun y hy => hb y (List.mem_cons_of_mem _ hy)]
      rfl

theorem failure?_mapM : failure? (l.mapM f) = (l.filterMap fun a => failure? (f a)).head? := by
  induction l with
  | nil => rfl
  | cons a l ih =>
    rw [List.filterMap_cons]
    cases ha : f a with
    | error e =>
      rw [mapM_cons_error ha]
      rfl
    | ok b =>
      rw [mapM_cons_ok ha, failure?_map, ih]
      rfl

theorem mapM_eq_ok_iff_forall₂ {bs : List β} :
    l.mapM f = .ok bs ↔ List.Forall₂ (fun a b => f a = .ok b) l bs := by
  rw [mapM_eq_ok_iff, ← List.forall₂_eq_eq_eq, List.forall₂_map_left_iff,
    List.forall₂_map_right_iff]

theorem mapM_isOk_iff : (∃ bs, l.mapM f = .ok bs) ↔ ∀ a ∈ l, ∃ b, f a = .ok b := by
  constructor
  · rintro ⟨bs, h⟩ a ha
    have hm : f a ∈ bs.map .ok := by
      rw [← mapM_eq_ok_iff.1 h]
      exact List.mem_map_of_mem ha
    obtain ⟨b, -, hb⟩ := List.mem_map.1 hm
    exact ⟨b, hb.symm⟩
  · intro h
    cases hl : l.mapM f with
    | ok bs => exact ⟨bs, rfl⟩
    | error e =>
      obtain ⟨before, a, after, rfl, -, ha⟩ := mapM_eq_error_iff.1 hl
      obtain ⟨b, hb⟩ := h a (List.mem_append_right _ List.mem_cons_self)
      simp [ha] at hb

/-- What holds of each element and its value holds along the traversal. -/
theorem map_eq_map_of_mapM {g : α → γ} {k : β → γ} {bs : List β}
    (h : ∀ a b, f a = .ok b → g a = k b) (hl : l.mapM f = .ok bs) : l.map g = bs.map k := by
  rw [mapM_eq_ok_iff] at hl
  induction l generalizing bs with
  | nil =>
    cases bs with
    | nil => rfl
    | cons b bs => cases hl
  | cons a l ih =>
    cases bs with
    | nil => cases hl
    | cons b bs =>
      obtain ⟨ha, hl⟩ := List.cons.inj hl
      rw [List.map_cons, List.map_cons, h a b ha, ih hl]

/-- Where success has a condition and a value of its own, so has the traversal. -/
theorem mapM_eq_ok_map_iff {p : α → Prop} {g : α → β}
    (h : ∀ a b, f a = .ok b ↔ p a ∧ b = g a) {bs : List β} :
    l.mapM f = .ok bs ↔ (∀ a ∈ l, p a) ∧ bs = l.map g := by
  constructor
  · intro hb
    refine ⟨fun a ha => ?_, ?_⟩
    · obtain ⟨b, hfb⟩ := mapM_isOk_iff.1 ⟨bs, hb⟩ a ha
      exact ((h a b).1 hfb).1
    · have hm := map_eq_map_of_mapM (k := id) (fun a b hab => ((h a b).1 hab).2.symm) hb
      rw [hm, List.map_id]
  · rintro ⟨hl, rfl⟩
    rw [mapM_eq_ok_iff, List.map_map]
    exact List.map_congr_left fun a ha => (h a (g a)).2 ⟨hl a ha, rfl⟩

/-- If no two elements fail, the order of a traversal shows only in the order of its values. -/
theorem mapM_perm {l' : List α} (hp : l.Perm l')
    (hone : ∀ a ∈ l, ∀ a' ∈ l, (∃ e, f a = .error e) → (∃ e, f a' = .error e) → a = a') :
    (∃ e, l.mapM f = .error e ∧ l'.mapM f = .error e) ∨
      ∃ bs bs', l.mapM f = .ok bs ∧ l'.mapM f = .ok bs' ∧ bs.Perm bs' := by
  cases hl : l.mapM f with
  | error e =>
    obtain ⟨before, a, after, rfl, -, ha⟩ := mapM_eq_error_iff.1 hl
    have hm : a ∈ before ++ a :: after := List.mem_append_right _ List.mem_cons_self
    refine .inl ⟨e, rfl, ?_⟩
    cases hl' : l'.mapM f with
    | error e' =>
      obtain ⟨before', a', after', rfl, -, ha'⟩ := mapM_eq_error_iff.1 hl'
      have hm' := hp.mem_iff.2 (List.mem_append_right before' (List.mem_cons_self (a := a')))
      obtain rfl := hone a hm a' hm' ⟨e, ha⟩ ⟨e', ha'⟩
      rw [← Except.error.inj (ha.symm.trans ha')]
    | ok bs =>
      obtain ⟨b, hb⟩ := mapM_isOk_iff.1 ⟨bs, hl'⟩ a (hp.mem_iff.1 hm)
      cases ha.symm.trans hb
  | ok bs =>
    obtain ⟨bs', hl'⟩ := mapM_isOk_iff.2 fun a ha =>
      mapM_isOk_iff.1 ⟨bs, hl⟩ a (hp.mem_iff.2 ha)
    have hmap := hp.map f
    rw [mapM_eq_ok_iff.1 hl, mapM_eq_ok_iff.1 hl'] at hmap
    exact .inr ⟨bs, bs', rfl, hl', (List.map_perm_map_iff fun _ _ => Except.ok.inj).1 hmap⟩

theorem mapM_eq_some_iff {f : α → Option β} {bs : List β} :
    l.mapM f = some bs ↔ l.map f = bs.map some := by
  induction l generalizing bs with
  | nil => cases bs <;> simp
  | cons a l ih =>
    rw [List.mapM_cons]
    cases bs with
    | nil => simp [Option.bind_eq_some_iff]
    | cons b bs => simp [Option.bind_eq_some_iff, ih]

theorem exists_of_forall₂ {R : α → β → Prop} {l' : List β} (h : List.Forall₂ R l l') {a : α}
    (ha : a ∈ l) : ∃ b ∈ l', R a b := by
  induction h with
  | nil => cases ha
  | cons hr _ ih =>
    cases ha with
    | head => exact ⟨_, List.mem_cons_self, hr⟩
    | tail _ ha =>
      obtain ⟨b, hb, hr⟩ := ih ha
      exact ⟨b, List.mem_cons_of_mem _ hb, hr⟩

theorem map_mapIdx {f : Nat → α → β} {g : β → γ} {k : α → γ} (h : ∀ i a, g (f i a) = k a)
    (l : List α) : (l.mapIdx f).map g = l.map k := by
  apply List.ext_getElem?
  intro i
  rw [List.getElem?_map, List.getElem?_map, List.getElem?_mapIdx, Option.map_map]
  congr 1
  funext a
  exact h i a

theorem nodup_map_mapIdx {f : Nat → α → β} {g : β → γ} (k : Nat → γ)
    (h : ∀ i a, g (f i a) = k i) (hk : Function.Injective k) (l : List α) :
    ((l.mapIdx f).map g).Nodup := by
  have hm : (l.mapIdx f).map g = (l.zipIdx.map (·.2)).map k := by
    rw [List.mapIdx_eq_zipIdx_map, List.map_map, List.map_map]
    exact List.map_congr_left fun a _ => h a.2 a.1
  rw [hm, List.zipIdx_map_snd]
  exact List.Nodup.map hk List.nodup_range'

end List

end QueryRouting.Traversal
