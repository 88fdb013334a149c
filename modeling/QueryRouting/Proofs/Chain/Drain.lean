import QueryRouting.Chain.QueryMap
import QueryRouting.Proofs.Keyed

namespace QueryRouting

namespace Event

def started? : Event → Option Descriptor
  | .started _ query => some query
  | _ => none

def finished? : Event → Option (Descriptor × Bool)
  | .finished _ query succeeded => some (query, succeeded)
  | _ => none

end Event

namespace QueryMap

namespace Pending

def Fails (p : Pending) (e : ExecError) : Prop :=
  p.execution.result = .error e

def Succeeds (p : Pending) : Prop :=
  ∃ v, p.execution.result = .ok v

theorem Fails.not_succeeds {p : Pending} (h : p.Fails e) : ¬ p.Succeeds := by
  rintro ⟨v, hv⟩
  cases h.symm.trans hv

theorem started_turnEvents (p : Pending) (backend : String) :
    (p.turnEvents backend).filterMap Event.started? = if p.started then [] else [p.query] := by
  have hsent : (p.execution.sent.map Event.sent).filterMap Event.started? = [] := by
    simp [List.filterMap_map, Function.comp_def, Event.started?]
  rw [turnEvents, List.filterMap_append]
  by_cases hs : p.started <;> by_cases hl : p.left = 0 <;>
    simp [hs, hl, Execution.startEvents, Execution.endEvent, Event.started?, hsent]

theorem finished_turnEvents (p : Pending) (backend : String) :
    (p.turnEvents backend).filterMap Event.finished? =
      if p.left = 0 then [(p.query, p.execution.succeeded)] else [] := by
  rw [turnEvents, List.filterMap_append]
  by_cases hs : p.started <;> by_cases hl : p.left = 0 <;>
    simp [hs, hl, Execution.startEvents, Execution.endEvent, Event.finished?]

end Pending

namespace Gathered

theorem add_ok {g : Gathered} (hg : g.failure = none) (key : String) (v : Json) :
    g.add key (.ok v) = ⟨g.results.insert key v, none⟩ := by
  simp only [add, hg]

theorem add_error {g : Gathered} (hg : g.failure = none) (key : String) (e : ExecError) :
    g.add key (.error e) = ⟨g.results, some e⟩ := by
  simp only [add, hg]

theorem add_of_failure {g : Gathered} {e : ExecError} (hg : g.failure = some e) (key : String)
    (result : Except ExecError Json) : g.add key result = g := by
  simp only [add, hg]

end Gathered

variable {backend : String} {g : Gathered} {line : List Pending}

theorem drain_nil : drain backend g [] = (g, []) := by
  rw [drain]

theorem drain_last {p : Pending} (h : p.left = 0) (rest : List Pending) :
    drain backend g (p :: rest) =
      ((drain backend (g.add p.key p.execution.result) rest).1,
        p.turnEvents backend ++ (drain backend (g.add p.key p.execution.result) rest).2) := by
  rw [drain, if_pos h]

theorem drain_wait {p : Pending} (h : p.left ≠ 0) (rest : List Pending) :
    drain backend g (p :: rest) =
      ((drain backend g (rest ++ [p.wait])).1,
        p.turnEvents backend ++ (drain backend g (rest ++ [p.wait])).2) := by
  rw [drain, if_neg h]

/-- What holds of an empty line, and is kept by each turn backwards, holds of every line. -/
theorem drain_induction {motive : Gathered → List Pending → Prop} (done : ∀ g, motive g [])
    (last : ∀ g p rest, p.left = 0 → motive (g.add p.key p.execution.result) rest →
      motive g (p :: rest))
    (wait : ∀ g p rest, p.left ≠ 0 → motive g (rest ++ [p.wait]) → motive g (p :: rest))
    (g : Gathered) (line : List Pending) : motive g line :=
  drain.induct "" motive done (fun g p rest h _ _ _ ih => last g p rest h ih)
    (fun g p rest h _ _ _ ih => wait g p rest h ih) g line

theorem drain_started (g : Gathered) (line : List Pending) :
    (drain backend g line).2.filterMap Event.started? =
      (line.filter (!·.started)).map (·.query) := by
  induction g, line using drain_induction with
  | done g =>
    rw [drain_nil]
    rfl
  | last g p rest h ih =>
    rw [drain_last h, List.filterMap_append, ih, p.started_turnEvents]
    by_cases hs : p.started <;> simp [hs]
  | wait g p rest h ih =>
    rw [drain_wait h, List.filterMap_append, ih, p.started_turnEvents]
    by_cases hs : p.started <;> simp [hs, Pending.wait]

theorem drain_finished (g : Gathered) (line : List Pending) :
    ((drain backend g line).2.filterMap Event.finished?).Perm
      (line.map fun p => (p.query, p.execution.succeeded)) := by
  induction g, line using drain_induction with
  | done g =>
    rw [drain_nil]
    exact .refl _
  | last g p rest h ih =>
    rw [drain_last h, List.filterMap_append, p.finished_turnEvents, if_pos h]
    exact ih.cons _
  | wait g p rest h ih =>
    rw [drain_wait h, List.filterMap_append, p.finished_turnEvents, if_neg h, List.nil_append]
    rw [List.map_append] at ih
    exact ih.trans List.perm_append_comm

theorem drain_of_failure {e : ExecError} (hg : g.failure = some e) (line : List Pending) :
    (drain backend g line).1 = g := by
  induction g, line using drain_induction with
  | done g => rw [drain_nil]
  | last g p rest h ih =>
    rw [Gathered.add_of_failure hg] at ih
    rw [drain_last h, Gathered.add_of_failure hg, ih hg]
  | wait g p rest h ih => rw [drain_wait h, ih hg]

def values (line : List Pending) : List (String × Json) :=
  line.filterMap fun p =>
    match p.execution.result with
    | .ok v => some (p.key, v)
    | .error _ => none

theorem values_cons_of_ok {p : Pending} {v : Json} (h : p.execution.result = .ok v)
    (rest : List Pending) : values (p :: rest) = (p.key, v) :: values rest := by
  simp [values, h]

theorem values_eq_zip {vs : List Json} (h : line.map (·.execution.result) = vs.map .ok) :
    values line = (line.map (·.key)).zip vs := by
  induction line generalizing vs with
  | nil => rfl
  | cons p rest ih =>
    cases vs with
    | nil => cases h
    | cons v vs =>
      obtain ⟨hp, hrest⟩ := List.cons.inj h
      rw [values_cons_of_ok hp, ih hrest]
      rfl

theorem values_wait (p : Pending) (rest : List Pending) :
    (values (rest ++ [p.wait])).Perm (values (p :: rest)) := by
  have hw : values [p.wait] = values [p] := rfl
  have ha : values (rest ++ [p.wait]) = values rest ++ values [p] := by
    rw [← hw]
    exact List.filterMap_append
  have hc : values (p :: rest) = values [p] ++ values rest :=
    List.filterMap_append (l := [p])
  rw [ha, hc]
  exact List.perm_append_comm

theorem values_keys_sublist (line : List Pending) :
    ((values line).map (·.1)).Sublist (line.map (·.key)) := by
  induction line with
  | nil => exact .slnil
  | cons p rest ih =>
    cases h : p.execution.result with
    | ok v =>
      rw [values_cons_of_ok h]
      exact ih.cons_cons _
    | error e =>
      have hv : values (p :: rest) = values rest := by simp [values, h]
      rw [hv]
      exact ih.cons _

/-- If no query fails, the results are the values of all, in whichever order they came. -/
theorem drain_results (hg : g.failure = none) (hs : ∀ p ∈ line, p.Succeeds)
    (hk : (line.map (·.key)).Nodup) :
    (drain backend g line).1 = ⟨g.results.insertAll (values line), none⟩ := by
  induction g, line using drain_induction with
  | done g =>
    rw [drain_nil, ← hg]
    rfl
  | last g p rest h ih =>
    obtain ⟨v, hv⟩ := hs p List.mem_cons_self
    rw [drain_last h, hv, Gathered.add_ok hg, values_cons_of_ok hv, Keyed.insertAll_cons]
    rw [hv, Gathered.add_ok hg] at ih
    rw [List.map_cons, List.nodup_cons] at hk
    exact ih rfl (fun q hq => hs q (List.mem_cons_of_mem _ hq)) hk.2
  | wait g p rest h ih =>
    have hs' : ∀ q ∈ rest ++ [p.wait], q.Succeeds := by
      intro q hq
      rcases List.mem_append.1 hq with hq | hq
      · exact hs q (List.mem_cons_of_mem _ hq)
      · rw [List.mem_singleton.1 hq]
        exact hs p List.mem_cons_self
    have hk' : ((rest ++ [p.wait]).map (·.key)).Nodup := by
      have hp : ((rest ++ [p.wait]).map (·.key)).Perm ((p :: rest).map (·.key)) := by
        rw [List.map_append]
        exact List.perm_append_comm
      exact hp.nodup_iff.2 hk
    -- The line has changed its order only, which distinct keys do not notice.
    have hv := (values_keys_sublist (rest ++ [p.wait])).nodup hk'
    rw [drain_wait h, ih hg hs' hk', Keyed.insertAll_perm (values_wait p rest) hv]

/-- The failure of the query with the least delay, of several such the first in line. -/
def FirstToFail (line : List Pending) (e : ExecError) : Prop :=
  ∃ before p after, line = before ++ p :: after ∧ p.Fails e ∧
    (∀ q ∈ before, ∀ e', q.Fails e' → p.left < q.left) ∧
    ∀ q ∈ after, ∀ e', q.Fails e' → p.left ≤ q.left

/-- Sending a query to the end of the line with one turn less keeps the order of the ends. -/
theorem FirstToFail.of_wait {p : Pending} {rest : List Pending} {e : ExecError}
    (hp : p.left ≠ 0) (h : FirstToFail (rest ++ [p.wait]) e) : FirstToFail (p :: rest) e := by
  obtain ⟨before, q, after, he, hq, hb, ha⟩ := h
  have hw : p.wait.left + 1 = p.left := by
    rw [Pending.wait]
    exact Nat.succ_pred_eq_of_ne_zero hp
  -- The query with one turn less is last: it fails first, or stands behind the one that does.
  rcases List.eq_nil_or_concat' after with rfl | ⟨after, r, rfl⟩
  · obtain ⟨rfl, hlast⟩ := List.append_inj' he rfl
    obtain ⟨rfl, -⟩ := List.cons.inj hlast
    refine ⟨[], p, rest, rfl, hq, fun q hm => absurd hm List.not_mem_nil, fun q hm e' hf => ?_⟩
    have hlt := hb q hm e' hf
    omega
  · have he' : rest ++ [p.wait] = (before ++ q :: after) ++ [r] := by
      rw [he, List.append_assoc, List.cons_append]
    obtain ⟨rfl, hlast⟩ := List.append_inj' he' rfl
    obtain ⟨rfl, -⟩ := List.cons.inj hlast
    refine ⟨p :: before, q, after, rfl, hq, fun x hm e' hf => ?_, fun x hm e' hf => ?_⟩
    · rcases List.mem_cons.1 hm with rfl | hm
      · have hle := ha x.wait (List.mem_append_right _ (List.mem_singleton_self _)) e' hf
        omega
      · exact hb x hm e' hf
    · exact ha x (List.mem_append_left _ hm) e' hf

theorem drain_failure (hg : g.failure = none) (hf : ¬ ∀ p ∈ line, p.Succeeds) :
    ∃ e, (drain backend g line).1.failure = some e ∧ FirstToFail line e := by
  induction g, line using drain_induction with
  | done g => exact absurd (fun p hp => absurd hp List.not_mem_nil) hf
  | last g p rest h ih =>
    rw [drain_last h]
    cases hr : p.execution.result with
    | error e =>
      rw [Gathered.add_error hg, drain_of_failure rfl]
      refine ⟨e, rfl, [], p, rest, rfl, hr, fun q hm => absurd hm List.not_mem_nil, ?_⟩
      intro q _ _ _
      rw [h]
      exact Nat.zero_le _
    | ok v =>
      have hf' : ¬ ∀ q ∈ rest, q.Succeeds := by
        intro hall
        apply hf
        intro q hq
        rcases List.mem_cons.1 hq with rfl | hq
        · exact ⟨v, hr⟩
        · exact hall q hq
      rw [hr, Gathered.add_ok hg] at ih
      obtain ⟨e, he, before, q, after, rfl, hq, hb, ha⟩ := ih rfl hf'
      rw [Gathered.add_ok hg]
      refine ⟨e, he, p :: before, q, after, rfl, hq, fun x hm e' hx => ?_, ha⟩
      rcases List.mem_cons.1 hm with rfl | hm
      · exact absurd ⟨v, hr⟩ hx.not_succeeds
      · exact hb x hm e' hx
  | wait g p rest h ih =>
    have hf' : ¬ ∀ q ∈ rest ++ [p.wait], q.Succeeds := by
      intro hall
      apply hf
      intro q hq
      rcases List.mem_cons.1 hq with rfl | hq
      · exact hall q.wait (List.mem_append_right _ (List.mem_singleton_self _))
      · exact hall q (List.mem_append_left _ hq)
    obtain ⟨e, he, hfirst⟩ := ih hg hf'
    rw [drain_wait h]
    exact ⟨e, he, hfirst.of_wait h⟩

end QueryMap

end QueryRouting
