import QueryRouting.Proofs.Backend.TypeRegistry
import QueryRouting.Proofs.Chain.Query
import QueryRouting.Proofs.Query.Rewriting

namespace QueryRouting

open Traversal

/-- The arguments of a declared type: empty parentheses say as much as none. -/
def ParameterType.arguments (type : ParameterType) : List Nat :=
  type.args.getD []

namespace TypeRegistry

/-- The type that is built for a declared one; what declares no type gets none. -/
inductive Types (registry : TypeRegistry) : Option ParameterType → Option SqlType → Prop
  | undeclared : Types registry none none
  | declared (hf : registry.constructors.find? declared.name = some constructor)
      (hc : constructor declared.arguments = .ok type) :
      Types registry (some declared) (some type)

/-- Why no type can be built for a declared one. -/
inductive Rejects (registry : TypeRegistry) : Option ParameterType → ExecError → Prop
  | unknown (hf : registry.constructors.find? declared.name = none) :
      Rejects registry (some declared) (.unknownType declared.name)
  | arguments (hf : registry.constructors.find? declared.name = some constructor)
      (hc : constructor declared.arguments = .error reason) :
      Rejects registry (some declared)
        (.typeArguments declared.name declared.arguments reason)

end TypeRegistry

/-- The rejection of the first reference for which no type can be built. -/
def FirstRejection (registry : TypeRegistry) (rs : List Reference) (e : ExecError) : Prop :=
  ∃ before r after, rs = before ++ r :: after ∧
    (∀ x ∈ before, ∃ type, registry.Types x.declared type) ∧ registry.Rejects r.declared e

namespace SqlServer

variable {registry : TypeRegistry} {declared : Option ParameterType} {lookup : Lookup}

theorem inputType_eq_ok_iff {type : Option SqlType} :
    inputType registry declared = .ok type ↔ registry.Types declared type := by
  cases declared with
  | none =>
    constructor
    · intro h
      cases h
      exact .undeclared
    · intro h
      cases h
      rfl
  | some declared =>
    rw [inputType, map_eq_ok_iff]
    constructor
    · intro h
      obtain ⟨built, hb, rfl⟩ := h
      obtain ⟨constructor, hf, hc⟩ := TypeRegistry.construct_eq_ok_iff.1 hb
      exact .declared hf hc
    · intro h
      cases h with
      | declared hf hc => exact ⟨_, TypeRegistry.construct_eq_ok_iff.2 ⟨_, hf, hc⟩, rfl⟩

theorem inputType_eq_error_iff {e : ExecError} :
    inputType registry declared = .error e ↔ registry.Rejects declared e := by
  cases declared with
  | none =>
    constructor
    · intro h
      cases h
    · intro h
      cases h
  | some declared =>
    rw [inputType, map_eq_error_iff, TypeRegistry.construct_eq_error_iff]
    constructor
    · intro h
      obtain ⟨hf, rfl⟩ | ⟨constructor, reason, hf, hc, rfl⟩ := h
      · exact .unknown hf
      · exact .arguments hf hc
    · intro h
      cases h with
      | unknown hf => exact .inl ⟨hf, rfl⟩
      | arguments hf hc => exact .inr ⟨_, _, hf, hc, rfl⟩

theorem untyped_of_firstRejection {rs : List Reference} {e : ExecError}
    (h : FirstRejection registry rs e) : ∃ r ∈ rs, ∀ type, ¬ registry.Types r.declared type := by
  obtain ⟨before, r, after, rfl, -, hr⟩ := h
  exists r
  constructor
  · exact List.mem_append_right _ List.mem_cons_self
  · intro type ht
    cases (inputType_eq_ok_iff.2 ht).symm.trans (inputType_eq_error_iff.2 hr)

/-- The input of a reference at a position, counted from one. -/
structure Input.Of (registry : TypeRegistry) (lookup : Lookup) (position : Nat) (r : Reference)
    (input : Input) : Prop where
  name : input.name = "v" ++ String.ofList (Text.decimal position)
  value : r.resolve lookup = .ok input.value
  type : registry.Types r.declared input.type

/-- An input for each reference, in their order, the first one at the given position. -/
inductive Inputs (registry : TypeRegistry) (lookup : Lookup) :
    Nat → List Reference → List Input → Prop
  | nil : Inputs registry lookup position [] []
  | cons (h : input.Of registry lookup position r)
      (hrest : Inputs registry lookup (position + 1) rs inputs) :
      Inputs registry lookup position (r :: rs) (input :: inputs)

theorem Inputs.length_eq {position : Nat} {rs : List Reference} {inputs : List Input}
    (h : Inputs registry lookup position rs inputs) : inputs.length = rs.length := by
  induction h with
  | nil => rfl
  | cons _ _ ih => rw [List.length_cons, ih, List.length_cons]

theorem Inputs.typed {position : Nat} {rs : List Reference} {inputs : List Input}
    (h : Inputs registry lookup position rs inputs) :
    ∀ r ∈ rs, ∃ type, registry.Types r.declared type := by
  induction h with
  | nil =>
    intro r hr
    cases hr
  | cons h _ ih =>
    intro r hr
    cases hr with
    | head => exact ⟨_, h.type⟩
    | tail _ hr => exact ih r hr

theorem Inputs.getElem? {position i : Nat} {rs : List Reference} {inputs : List Input}
    {r : Reference} (h : Inputs registry lookup position rs inputs) (hr : rs[i]? = some r) :
    ∃ input, inputs[i]? = some input ∧ input.Of registry lookup (position + i) r := by
  induction h generalizing i with
  | nil => cases hr
  | cons h _ ih =>
    cases i with
    | zero =>
      cases hr
      exact ⟨_, rfl, h⟩
    | succ i =>
      obtain ⟨input', hi, ho⟩ := ih hr
      rw [Nat.add_assoc, Nat.add_comm 1 i] at ho
      exact ⟨input', hi, ho⟩

theorem Inputs.of_occurrence {os : List Occurrence} {inputs : List Input} {i : Nat}
    {o : Occurrence} (h : Inputs registry lookup 1 (os.map (·.reference)) inputs)
    (ho : os[i]? = some o) :
    ∃ input : Input, inputs[i]? = some input ∧ input.Of registry lookup (i + 1) o.reference := by
  have hr : (os.map (·.reference))[i]? = some o.reference := by
    rw [List.getElem?_map, ho]
    rfl
  have hin := h.getElem? hr
  rwa [Nat.add_comm] at hin

theorem inputsFrom_eq_error_iff {position : Nat} {pairs : List (Json × Option ParameterType)}
    {e : ExecError} : inputsFrom registry position pairs = .error e ↔
      (pairs.map (·.2)).mapM (inputType registry) = .error e := by
  induction pairs generalizing position with
  | nil => exact ⟨nofun, nofun⟩
  | cons pair pairs ih =>
    rw [List.map_cons, inputsFrom, bind_eq_error_iff]
    cases ht : inputType registry pair.2 with
    | error e' =>
      rw [mapM_cons_error ht]
      simp
    | ok type =>
      rw [mapM_cons_ok ht, map_eq_error_iff, ← @ih (position + 1)]
      constructor
      · intro h
        obtain h | ⟨type', -, h⟩ := h
        · cases h
        · exact (bind_eq_error_iff.1 h).resolve_right nofun
      · intro h
        exact .inr ⟨type, rfl, bind_eq_error_iff.2 (.inl h)⟩

theorem inputsFrom_eq_ok_iff {position : Nat} {values : List Json} {inputs : List Input}
    {rs : List Reference} (hv : values.map .ok = rs.map (·.resolve lookup)) :
    inputsFrom registry position (values.zip (rs.map (·.declared))) = .ok inputs ↔
      Inputs registry lookup position rs inputs := by
  induction rs generalizing values position inputs with
  | nil =>
    obtain rfl := List.map_eq_nil_iff.1 hv
    constructor
    · intro h
      cases h
      exact .nil
    · intro h
      cases h
      rfl
  | cons r rs ih =>
    obtain ⟨v, values, rfl, hr, hrest⟩ := List.map_eq_cons_iff.1 hv
    rw [List.map_cons, List.zip_cons_cons, inputsFrom, bind_eq_ok_iff]
    constructor
    · intro h
      obtain ⟨type, ht, h⟩ := h
      obtain ⟨others, ho, h⟩ := bind_eq_ok_iff.1 h
      cases h
      exact .cons ⟨rfl, hr.symm, inputType_eq_ok_iff.1 ht⟩ ((ih hrest).1 ho)
    · intro h
      cases h with
      | @cons _ _ _ _ input h hothers =>
        obtain ⟨name, type, value⟩ := input
        obtain ⟨rfl, hvalue, htype⟩ := h
        cases hr.trans hvalue
        have ho := (ih hrest).2 hothers
        exact ⟨type, inputType_eq_ok_iff.2 htype, bind_eq_ok_iff.2 ⟨_, ho, rfl⟩⟩

section Described

variable {query : Descriptor} {rs : List Reference}
  (hv : query.values.map .ok = rs.map (·.resolve lookup))
  (ht : query.types = rs.map (·.declared))

include hv ht

theorem request_eq_ok_iff {request : Request} :
    SqlServer.request registry query = .ok request ↔
      request.sql = Placeholder.numbered query.text mark ∧
        Inputs registry lookup 1 rs request.inputs := by
  rw [SqlServer.request, ht, bind_eq_ok_iff]
  constructor
  · intro h
    obtain ⟨inputs, hi, h⟩ := h
    cases h
    exact ⟨rfl, (inputsFrom_eq_ok_iff hv).1 hi⟩
  · intro h
    obtain ⟨sql, inputs⟩ := request
    obtain ⟨rfl, hi⟩ := h
    exact ⟨inputs, (inputsFrom_eq_ok_iff hv).2 hi, rfl⟩

theorem request_eq_error_iff {e : ExecError} :
    SqlServer.request registry query = .error e ↔ FirstRejection registry rs e := by
  have hl : query.values.length = query.types.length := by
    rw [ht, List.length_map, ← List.length_map, hv, List.length_map]
  have hr : SqlServer.request registry query = .error e ↔
      inputsFrom registry 1 (query.values.zip query.types) = .error e := by
    rw [SqlServer.request, bind_eq_error_iff]
    exact or_iff_left nofun
  rw [hr, inputsFrom_eq_error_iff, List.map_snd_zip (Nat.le_of_eq hl.symm), ht, List.mapM_map,
    mapM_eq_error_iff]
  simp only [Function.comp_apply, inputType_eq_ok_iff, inputType_eq_error_iff, FirstRejection]

end Described

section Run

variable (registry : TypeRegistry) (client : Request → Except String Json) {query : Descriptor}
  {request : Request} {s : String} {cx : Context}

theorem execute_of_error {e : ExecError} (h : SqlServer.request registry query = .error e) :
    (Executor.sqlServer registry client).execute query = .ofResult (.error e) := by
  simp only [Executor.sqlServer, h]

theorem execute_of_ok (h : SqlServer.request registry query = .ok request) :
    (Executor.sqlServer registry client).execute query =
      ⟨(client request).mapError .driver, 0, [request]⟩ := by
  simp only [Executor.sqlServer, h]

theorem sent_query (hd : (Template.ofString s).describe cx.lookup = .ok query) :
    (Step.query (.sqlServer registry client) s cx).events.filterMap Event.sent? =
      ((Executor.sqlServer registry client).execute query).sent := by
  rw [Step.query_events hd, Step.sent_queryEvents]

theorem query_of_rejection {e : ExecError}
    (hd : (Template.ofString s).describe cx.lookup = .ok query)
    (h : SqlServer.request registry query = .error e) :
    ∃ events, events.filterMap Event.sent? = [] ∧
      Step.query (.sqlServer registry client) s cx = ⟨cx, .error (.execute e), events⟩ := by
  have hx := execute_of_error registry client h
  have hs := sent_query registry client hd
  rw [hx, Step.query_events hd] at hs
  exact ⟨_, hs, Step.query_of_failure hd (congrArg Execution.result hx)⟩

/-- What becomes of a query whose request the client gets. -/
def answered (cx : Context) (answer : Except String Json) (events : List Event) : StepRun :=
  match answer with
  | .ok v => ⟨cx.setResult v, .ok .next, events⟩
  | .error text => ⟨cx, .error (.execute (.driver text)), events⟩

theorem query_of_request (hd : (Template.ofString s).describe cx.lookup = .ok query)
    (h : SqlServer.request registry query = .ok request) :
    ∃ events, events.filterMap Event.sent? = [request] ∧
      Step.query (.sqlServer registry client) s cx = answered cx (client request) events := by
  have hx := execute_of_ok registry client h
  have hs := sent_query registry client hd
  rw [hx, Step.query_events hd] at hs
  refine ⟨_, hs, ?_⟩
  cases hc : client request with
  | ok v =>
    rw [hc] at hx
    exact Step.query_of_value hd (congrArg Execution.result hx)
  | error text =>
    rw [hc] at hx
    exact Step.query_of_failure hd (congrArg Execution.result hx)

variable (hb : ∀ r ∈ (Template.ofString s).references, r.Binds cx.lookup)

include hb

theorem query_of_untyped
    (h : ∃ r ∈ (Template.ofString s).references, ∀ type, ¬ registry.Types r.declared type) :
    ∃ e events, FirstRejection registry (Template.ofString s).references e ∧
      events.filterMap Event.sent? = [] ∧
      Step.query (.sqlServer registry client) s cx = ⟨cx, .error (.execute e), events⟩ := by
  obtain ⟨query, hd⟩ := Template.describe_isOk_iff.2 hb
  obtain ⟨-, hv, ht⟩ := Template.describe_eq_ok hd
  cases hr : SqlServer.request registry query with
  | error e =>
    obtain ⟨events, hs, hq⟩ := query_of_rejection registry client hd hr
    exact ⟨e, events, (request_eq_error_iff hv ht).1 hr, hs, hq⟩
  | ok request =>
    obtain ⟨r, hm, hn⟩ := h
    obtain ⟨type, htype⟩ := ((request_eq_ok_iff hv ht).1 hr).2.typed r hm
    exact absurd htype (hn type)

theorem query_of_typed
    (h : ∀ r ∈ (Template.ofString s).references, ∃ type, registry.Types r.declared type) :
    ∃ request events, events.filterMap Event.sent? = [request] ∧
      Step.query (.sqlServer registry client) s cx = answered cx (client request) events ∧
      request.sql = Placeholder.numbered (Template.ofString s).text mark ∧
      Inputs registry cx.lookup 1 (Template.ofString s).references request.inputs := by
  obtain ⟨query, hd⟩ := Template.describe_isOk_iff.2 hb
  obtain ⟨htext, hv, ht⟩ := Template.describe_eq_ok hd
  cases hr : SqlServer.request registry query with
  | error e =>
    obtain ⟨r, hm, hn⟩ := untyped_of_firstRejection ((request_eq_error_iff hv ht).1 hr)
    obtain ⟨type, htype⟩ := h r hm
    exact absurd htype (hn type)
  | ok request =>
    obtain ⟨events, hs, hq⟩ := query_of_request registry client hd hr
    rw [← htext]
    exact ⟨request, events, hs, hq, (request_eq_ok_iff hv ht).1 hr⟩

end Run

open Occurrence in
/--
A template asks the client only if each reference binds and has a type that can be built. Else its
step fails: for the first reference that does not bind, whatever types stand before it, and only
then for the first one without a type. The request has one input for each reference, named and typed
by it and with its value, and the answer of the client decides what becomes of the step.
-/
theorem query_positioned_or_unsent (registry : TypeRegistry)
    (client : Request → Except String Json) (s : String) (cx : Context) :
    ∃ os, Leftmost s.toList 0 os ∧ (∀ os', Leftmost s.toList 0 os' → os' = os) ∧
      ∀ run, Step.query (.sqlServer registry client) s cx = run →
        ((∃ o ∈ os, ¬ o.reference.Binds cx.lookup) →
          ∃ e, FirstFailure cx.lookup (os.map (·.reference)) e ∧
            run = .failed cx (.template e)) ∧
        ((∀ o ∈ os, o.reference.Binds cx.lookup) →
          (∃ o ∈ os, ∀ type, ¬ registry.Types o.reference.declared type) →
            ∃ e events, FirstRejection registry (os.map (·.reference)) e ∧
              events.filterMap Event.sent? = [] ∧ run = ⟨cx, .error (.execute e), events⟩) ∧
        ((∀ o ∈ os, o.reference.Binds cx.lookup) →
          (∀ o ∈ os, ∃ type, registry.Types o.reference.declared type) →
            ∃ request events, events.filterMap Event.sent? = [request] ∧
              run = answered cx (client request) events ∧
              request.sql = Placeholder.numbered (String.ofList
                (weave (stretches s.toList 0 os) (Template.placeholders os.length))) "@v" ∧
              (Placeholder.Safe (stretches s.toList 0 os) → request.sql =
                Placeholder.parametrized (stretches s.toList 0 os) os.length "@v") ∧
              request.inputs.length = os.length ∧
              ∀ i o, os[i]? = some o → ∃ input : Input, request.inputs[i]? = some input ∧
                input.Of registry cx.lookup (i + 1) o.reference) := by
  obtain ⟨os, hdiv⟩ := Template.divides_scan true [] s.toList (by simp)
  have hrefs : (Template.ofString s).references = os.map (·.reference) := hdiv.references
  have hlits : (Template.ofString s).literals = stretches s.toList 0 os := hdiv.literals
  have hcount : (Template.ofString s).references.length = os.length := by
    rw [hrefs, List.length_map]
  have hall {p : Reference → Prop} :
      (∀ r ∈ (Template.ofString s).references, p r) ↔ ∀ o ∈ os, p o.reference := by
    rw [hrefs, List.forall_mem_map]
  have hex {p : Reference → Prop} :
      (∃ r ∈ (Template.ofString s).references, p r) ↔ ∃ o ∈ os, p o.reference := by
    simp [hrefs]
  refine ⟨os, hdiv.leftmost, fun os' h => h.unique hdiv.leftmost, ?_⟩
  intro run hrun
  subst hrun
  rw [← hrefs]
  refine ⟨fun h => Step.query_of_unbound (hex.2 h),
    fun hb h => query_of_untyped registry client (hall.2 hb) (hex.2 h), fun hb h => ?_⟩
  obtain ⟨request, events, hs, hq, hsql, hi⟩ :=
    query_of_typed registry client (hall.2 hb) (hall.2 h)
  have hsafe := Placeholder.numbered_text (Template.ofString s)
  rw [← hlits, ← hcount, ← Template.text_eq_weave]
  refine ⟨request, events, hs, hq, hsql, fun h => ?_, hi.length_eq, fun i o ho => ?_⟩
  · rw [hsql]
    exact hsafe h mark
  · rw [hrefs] at hi
    exact hi.of_occurrence ho

/-- A reference that leads nowhere counts before an unknown type, wherever the two stand. -/
example : (Step.query (.sqlServer .empty fun _ => .ok .null) ":{Nope}method: :missing:"
    Placeholder.plainContext).outcome = .error (.template (.resolve ⟨"missing", "missing"⟩)) := by
  cbv

end SqlServer

end QueryRouting
