import Mathlib.Data.List.Induction
import QueryRouting.Proofs.Chain.Response
import QueryRouting.Route.Exchange

namespace QueryRouting

inductive HeaderEdit
  | insert (name : String) (value : Bytes)
  | append (name : String) (value : Bytes)

/-- The body of a result, as it is before it is rendered. -/
def Response.ofResult : Option Json → Response
  | none => Response.empty Status.ok
  | some (.str s) => Response.ofText s
  | some v => Response.ofJson v

theorem Context.renderResult_eq (cx : Context) :
    cx.renderResult = cx.response.render (Response.ofResult cx.result) := by
  rw [renderResult]
  split
  · rename_i h
    rw [h, Response.ofResult]
  · rename_i h
    rw [h, Response.ofResult]
  · rename_i v hs h
    rw [h, Response.ofResult]
    exact hs

namespace HeaderEdit

def name : HeaderEdit → String
  | .insert name _ => name
  | .append name _ => name

def value : HeaderEdit → Bytes
  | .insert _ value => value
  | .append _ value => value

def change : HeaderEdit → Headers → Headers
  | .insert name value, headers => headers.insert name value
  | .append name value, headers => headers.append name value

def action (edit : HeaderEdit) : ResponseAction :=
  .changeHeaders edit.change

/-- What the values of a name become by an edit. -/
def hold (name : String) (held : List Bytes) : HeaderEdit → List Bytes
  | .insert other value => if other = name then [value] else held
  | .append other value => if other = name then held ++ [value] else held

/-- The values of a name after edits of no headers. -/
def held (name : String) (edits : List HeaderEdit) : List Bytes :=
  edits.foldl (hold name) []

/-- A value is appended to another one of its name, and none is inserted behind it. -/
def Crowds (name : String) (edits : List HeaderEdit) : Prop :=
  ∃ earlier value later, edits = earlier ++ .append name value :: later ∧
    (∃ edit ∈ earlier, edit.name = name) ∧ ∀ value, .insert name value ∉ later

variable {name : String} {edit : HeaderEdit} {edits : List HeaderEdit}

theorem hold_of_ne (h : edit.name ≠ name) (held : List Bytes) : edit.hold name held = held := by
  cases edit with
  | insert | append => exact if_neg h

theorem getLast?_hold (h : edit.name = name) (held : List Bytes) :
    (edit.hold name held).getLast? = some edit.value := by
  cases edit with
  | insert => rw [hold, if_pos (by exact h), List.getLast?_singleton, value]
  | append => rw [hold, if_pos (by exact h), List.getLast?_concat, value]

theorem values_change (edit : HeaderEdit) (headers : Headers) (name : String) :
    (edit.change headers).values name = edit.hold name (headers.values name) := by
  cases edit with
  | insert other value =>
    by_cases h : other = name
    · rw [change, hold, if_pos h, h, Headers.values_insert_self]
    · rw [change, hold, if_neg h, Headers.values_insert_of_ne (Ne.symm h)]
  | append other value =>
    by_cases h : other = name
    · rw [change, hold, if_pos h, h, Headers.values_append_self]
    · rw [change, hold, if_neg h, Headers.values_append_of_ne (Ne.symm h)]

theorem held_concat : held name (edits ++ [edit]) = edit.hold name (held name edits) := by
  rw [held, List.foldl_append]
  rfl

theorem values_accumulated (edits : List HeaderEdit) (name : String) :
    (ResponseAction.accumulated (edits.map action)).values name = held name edits := by
  induction edits using List.reverseRecOn with
  | nil => rfl
  | append_singleton edits edit ih =>
    rw [held_concat, ← ih, ← values_change, List.map_append, ResponseAction.accumulated,
      List.foldl_append]
    rfl

theorem getLast?_held (name : String) (edits : List HeaderEdit) :
    (held name edits).getLast? = (edits.filter (·.name = name)).getLast?.map value := by
  induction edits using List.reverseRecOn with
  | nil => rfl
  | append_singleton edits edit ih =>
    rw [held_concat, List.filter_append]
    by_cases h : edit.name = name
    · rw [getLast?_hold h, List.filter_cons_of_pos (by simpa using h), List.filter_nil,
        List.getLast?_concat, Option.map_some]
    · rw [hold_of_ne h, ih, List.filter_cons_of_neg (by simpa using h), List.filter_nil,
        List.append_nil]

theorem held_eq_nil_iff : held name edits = [] ↔ ∀ edit ∈ edits, edit.name ≠ name := by
  rw [← List.getLast?_eq_none_iff, getLast?_held, Option.map_eq_none_iff,
    List.getLast?_eq_none_iff, List.filter_eq_nil_iff]
  simp only [decide_eq_true_eq, ne_eq]

theorem concat_eq_append_cons_iff {l earlier later : List α} {a b : α} :
    l ++ [a] = earlier ++ b :: later ↔ later = [] ∧ l = earlier ∧ a = b ∨
      ∃ rest, later = rest ++ [a] ∧ l = earlier ++ b :: rest := by
  rcases List.eq_nil_or_concat later with rfl | ⟨rest, last, rfl⟩
  · rw [← List.append_singleton_inj]
    simp
  · rw [List.concat_eq_append, ← List.cons_append, ← List.append_assoc, List.append_singleton_inj]
    simp only [List.append_eq_nil_iff, List.cons_ne_self, and_false, false_and, false_or,
      List.append_singleton_inj]
    constructor
    · intro h
      exact ⟨rest, ⟨rfl, h.2.symm⟩, h.1⟩
    · intro h
      obtain ⟨_, ⟨rfl, rfl⟩, hl⟩ := h
      exact ⟨hl, rfl⟩

theorem crowds_concat_iff : Crowds name (edits ++ [edit]) ↔
    (∃ value, edit = .append name value) ∧ (∃ edit ∈ edits, edit.name = name) ∨
      Crowds name edits ∧ ∀ value, edit ≠ .insert name value := by
  constructor
  · intro h
    obtain ⟨earlier, value, later, he, hname, hn⟩ := h
    rcases concat_eq_append_cons_iff.1 he with ⟨rfl, rfl, rfl⟩ | ⟨rest, rfl, rfl⟩
    · exact .inl ⟨⟨value, rfl⟩, hname⟩
    · refine .inr ⟨⟨earlier, value, rest, rfl, hname, fun v hv => ?_⟩, fun v hv => ?_⟩
      · exact hn v (List.mem_append_left _ hv)
      · exact hn v (List.mem_append_right _ (List.mem_singleton.2 hv.symm))
  · intro h
    rcases h with ⟨⟨value, rfl⟩, hname⟩ | ⟨⟨earlier, value, rest, rfl, hname, hn⟩, hi⟩
    · exact ⟨edits, value, [], rfl, hname, fun _ => List.not_mem_nil⟩
    · refine ⟨earlier, value, rest ++ [edit], by simp, hname, fun v hv => ?_⟩
      rcases List.mem_append.1 hv with hv | hv
      · exact hn v hv
      · exact hi v (List.mem_singleton.1 hv).symm

theorem Crowds.exists_edit (h : Crowds name edits) : ∃ edit ∈ edits, edit.name = name := by
  obtain ⟨earlier, value, later, rfl, -⟩ := h
  exact ⟨_, List.mem_append_right _ List.mem_cons_self, rfl⟩

theorem length_held_le_one_iff : (held name edits).length ≤ 1 ↔ ¬ Crowds name edits := by
  induction edits using List.reverseRecOn with
  | nil =>
    apply iff_of_true (Nat.zero_le 1)
    intro h
    obtain ⟨earlier, value, later, he, -⟩ := h
    exact List.append_ne_nil_of_right_ne_nil _ (List.cons_ne_nil _ _) he.symm
  | append_singleton edits edit ih =>
    rw [held_concat, crowds_concat_iff]
    cases edit with
    | insert other value =>
      by_cases h : other = name
      · subst h
        rw [hold, if_pos rfl]
        apply iff_of_true (Nat.le_refl 1)
        simp
      · rw [hold, if_neg h, ih]
        simp [h]
    | append other value =>
      by_cases h : other = name
      · subst h
        -- The new value is alone just if no edit of the name came before it.
        have hc : Crowds other edits → ∃ edit ∈ edits, edit.name = other := Crowds.exists_edit
        rw [hold, if_pos rfl, List.length_append, List.length_singleton, Nat.add_one_le_iff,
          Nat.lt_one_iff, List.length_eq_zero_iff, held_eq_nil_iff]
        simp only [append.injEq, true_and, exists_eq', reduceCtorEq, ne_eq, not_false_eq_true,
          implies_true, and_true, or_iff_left_of_imp hc, not_exists, not_and]
      · rw [hold, if_neg h, ih]
        simp [h]

/-- The response of a chain that sets a status and edits headers. -/
def edited (status : Status) (edits : List HeaderEdit) : ResponseState :=
  ResponseState.initial.actAll (.setStatus status :: edits.map action)

/-- The values of a name with none lost: all that the edits left, or else those of the body. -/
def carried (edits : List HeaderEdit) (response : Response) (name : String) : List Bytes :=
  match held name edits with
  | [] => response.headers.values name
  | values => values

theorem values_edited (status : Status) (edits : List HeaderEdit) (name : String) :
    (edited status edits).headers.values name = held name edits := by
  rw [edited, ResponseState.actAll_headers]
  exact values_accumulated edits name

theorem accumulated_setStatus (status : Status) (actions : List ResponseAction) :
    ResponseAction.accumulated (.setStatus status :: actions) =
      ResponseAction.accumulated actions := rfl

theorem render_edited (status : Status) (edits : List HeaderEdit) (response : Response) :
    (edited status edits).render response =
      ResponseAction.rendered (.setStatus status :: edits.map action) response :=
  ResponseState.render_actAll

theorem sent_edited (status : Status) (edits : List HeaderEdit) :
    (edited status edits).sent = none := by
  apply ResponseState.actAll_sent_of_not_isSend
  intro a ha
  rcases List.mem_cons.1 ha with rfl | ha
  · exact id
  · obtain ⟨edit, -, rfl⟩ := List.mem_map.1 ha
    exact id

theorem values_render_eq_carried_iff {status : Status} {response : Response} :
    ((edited status edits).render response).headers.values name = carried edits response name ↔
      ¬ Crowds name edits := by
  have hcarried : ResponseAction.carried (.setStatus status :: edits.map action) response name =
      carried edits response name := by
    rw [ResponseAction.carried, accumulated_setStatus, values_accumulated]
    rfl
  rw [← hcarried, render_edited, ResponseAction.values_rendered_eq_carried_iff,
    accumulated_setStatus, values_accumulated, length_held_le_one_iff]

/--
A rendered response has the value of the last edit of a name, or what its body had, if there was no
edit. These are all values that the edits left just if none of them was appended to another one and
stayed. The same goes for a response that is sent and for that of a result.
-/
theorem values_render_edited (status : Status) (edits : List HeaderEdit) (response : Response)
    (name : String) :
    let state := edited status edits
    state.headers.values name = held name edits ∧
    (state.render response).headers.values name =
      (match (edits.filter (·.name = name)).getLast? with
        | some edit => [edit.value]
        | none => response.headers.values name) ∧
    ((state.render response).headers.values name = carried edits response name ↔
      ¬ Crowds name edits) ∧
    (state.send response).sent = some (state.render response) ∧
    ∀ cx : Context, { cx with response := state }.renderResult =
      state.render (Response.ofResult cx.result) := by
  intro state
  have hsent : (state.send response).sent = some (state.render response) := by
    rw [ResponseState.send_of_unsent (sent_edited status edits)]
  refine ⟨values_edited status edits name, ?_, values_render_eq_carried_iff, hsent,
    fun cx => Context.renderResult_eq _⟩
  rw [render_edited, ResponseAction.values_rendered, accumulated_setStatus, values_accumulated,
    getLast?_held]
  cases (edits.filter (·.name = name)).getLast? <;> rfl

/-- Whatever is rendered, it has all values that the edits left. -/
def LosesNothing (edits : List HeaderEdit) : Prop :=
  ∀ status response name,
    ((edited status edits).render response).headers.values name = carried edits response name

/-- Of two cookies that are appended, the first one is lost. -/
theorem not_losesNothing_of_two_cookies :
    ¬ LosesNothing [.append "set-cookie" (Bytes.ofString "a=1"),
      .append "set-cookie" (Bytes.ofString "b=2")] := by
  intro h
  have hc := values_render_eq_carried_iff.1 (h Status.ok (Response.ofText "ok") "set-cookie")
  exact hc ⟨[_], _, [], rfl, ⟨_, List.mem_cons_self, rfl⟩, fun _ => List.not_mem_nil⟩

end HeaderEdit

end QueryRouting
