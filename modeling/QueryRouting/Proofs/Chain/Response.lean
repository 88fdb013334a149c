import QueryRouting.Chain.Context
import QueryRouting.Proofs.Message.Headers

namespace QueryRouting

inductive ResponseAction
  | setStatus (status : Status)
  | changeHeaders (change : Headers → Headers)
  | send (response : Response)

namespace ResponseAction

def IsSend : ResponseAction → Prop
  | .send _ => True
  | _ => False

def status (last : Status) : ResponseAction → Status
  | .setStatus status => status
  | _ => last

def headers (last : Headers) : ResponseAction → Headers
  | .changeHeaders change => change last
  | _ => last

/-- The status that is set last; 200 without any. -/
def lastStatus (actions : List ResponseAction) : Status :=
  actions.foldl status Status.ok

/-- What changes make of no headers. -/
def accumulated (actions : List ResponseAction) : Headers :=
  actions.foldl headers Headers.empty

/--
A response that is sent after other actions: its own status unless this is 200, and its own headers
except where the actions gave some of the same name.
-/
def rendered (earlier : List ResponseAction) (response : Response) : Response where
  status := if response.status = Status.ok then lastStatus earlier else response.status
  headers := response.headers.insertAll (accumulated earlier).entries
  body := response.body

theorem values_rendered (earlier : List ResponseAction) (response : Response) (name : String) :
    (rendered earlier response).headers.values name =
      match ((accumulated earlier).values name).getLast? with
      | some value => [value]
      | none => response.headers.values name :=
  Headers.values_insertAll _ _ _

/-- The values of a name with none lost: all that the actions gave, or else the response's own. -/
def carried (earlier : List ResponseAction) (response : Response) (name : String) : List Bytes :=
  match (accumulated earlier).values name with
  | [] => response.headers.values name
  | values => values

/-- Values are lost just where a name was given several. -/
theorem values_rendered_eq_carried_iff {earlier : List ResponseAction} {response : Response}
    {name : String} :
    (rendered earlier response).headers.values name = carried earlier response name ↔
      ((accumulated earlier).values name).length ≤ 1 := by
  rw [values_rendered, carried]
  match (accumulated earlier).values name with
  | [] => exact iff_of_true rfl (Nat.zero_le 1)
  | [value] => exact iff_of_true rfl (Nat.le_refl 1)
  | first :: second :: rest =>
    apply iff_of_false
    · intro h
      rw [List.getLast?_cons_cons, List.getLast?_cons] at h
      cases h
    · exact Nat.not_le.2 (Nat.succ_lt_succ (Nat.succ_pos _))

end ResponseAction

namespace ResponseState

def act (state : ResponseState) : ResponseAction → ResponseState
  | .setStatus status => state.setStatus status
  | .changeHeaders change => { state with headers := change state.headers }
  | .send response => state.send response

def actAll (state : ResponseState) (actions : List ResponseAction) : ResponseState :=
  actions.foldl act state

variable {state : ResponseState} {action : ResponseAction} {response : Response}
  {actions earlier later : List ResponseAction}

theorem actAll_cons : state.actAll (action :: actions) = (state.act action).actAll actions := rfl

theorem actAll_append :
    state.actAll (earlier ++ later) = (state.actAll earlier).actAll later :=
  List.foldl_append

theorem send_of_sent (h : state.sent = some response) (other : Response) :
    state.send other = state := by
  rw [send, h]

theorem send_of_unsent (h : state.sent = none) (response : Response) :
    state.send response = { state with sent := some (state.render response) } := by
  rw [send, h]

theorem act_status : (state.act action).status = action.status state.status := by
  cases action with
  | setStatus | changeHeaders => rfl
  | send response =>
    cases h : state.sent with
    | none => rw [act, send_of_unsent h]; rfl
    | some sent => rw [act, send_of_sent h]; rfl

theorem act_headers : (state.act action).headers = action.headers state.headers := by
  cases action with
  | setStatus | changeHeaders => rfl
  | send response =>
    cases h : state.sent with
    | none => rw [act, send_of_unsent h]; rfl
    | some sent => rw [act, send_of_sent h]; rfl

theorem act_sent_of_sent (h : state.sent = some response) :
    (state.act action).sent = some response := by
  cases action with
  | setStatus | changeHeaders => exact h
  | send other => rw [act, send_of_sent h, h]

theorem act_sent_of_not_isSend (h : ¬ action.IsSend) : (state.act action).sent = state.sent := by
  cases action with
  | setStatus | changeHeaders => rfl
  | send response => exact absurd trivial h

theorem actAll_status :
    (state.actAll actions).status = actions.foldl ResponseAction.status state.status := by
  induction actions generalizing state with
  | nil => rfl
  | cons action rest ih => rw [actAll_cons, ih, act_status, List.foldl_cons]

theorem actAll_headers :
    (state.actAll actions).headers = actions.foldl ResponseAction.headers state.headers := by
  induction actions generalizing state with
  | nil => rfl
  | cons action rest ih => rw [actAll_cons, ih, act_headers, List.foldl_cons]

theorem actAll_sent_of_sent (h : state.sent = some response) :
    (state.actAll actions).sent = some response := by
  induction actions generalizing state with
  | nil => exact h
  | cons action rest ih => exact ih (act_sent_of_sent h)

theorem actAll_sent_of_not_isSend (h : ∀ action ∈ actions, ¬ action.IsSend) :
    (state.actAll actions).sent = state.sent := by
  induction actions generalizing state with
  | nil => rfl
  | cons action rest ih =>
    rw [List.forall_mem_cons] at h
    exact (ih h.2).trans (act_sent_of_not_isSend h.1)

theorem render_actAll :
    (initial.actAll earlier).render response = ResponseAction.rendered earlier response := by
  rw [render, actAll_status, actAll_headers]
  rfl

/-- Whatever comes later, the first response that was sent stays. -/
theorem actAll_sent (h : ∀ action ∈ earlier, ¬ action.IsSend) :
    (initial.actAll (earlier ++ .send response :: later)).sent =
      some (ResponseAction.rendered earlier response) := by
  have hn : (initial.actAll earlier).sent = none := actAll_sent_of_not_isSend h
  have hs : ((initial.actAll earlier).act (.send response)).sent =
      some (ResponseAction.rendered earlier response) := by
    rw [act, send_of_unsent hn, render_actAll]
  rw [actAll_append, actAll_cons]
  exact actAll_sent_of_sent hs

end ResponseState

end QueryRouting
