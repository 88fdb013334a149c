import QueryRouting.Proofs.Chain.Query
import QueryRouting.Proofs.Query.Description
import QueryRouting.Query.Placeholder

namespace QueryRouting

open Traversal

/-- A query without its values. -/
structure Statement where
  text : String
  types : List (Option ParameterType)

def Descriptor.statement (query : Descriptor) : Statement :=
  ⟨query.text, query.types⟩

/-- A request in which every path leads to a value. -/
def resolving : Lookup := fun _ => .ok .null

theorem Reference.Binds.resolving {r : Reference} {lookup : Lookup} (h : r.Binds lookup) :
    r.Binds QueryRouting.resolving :=
  ⟨⟨.null, rfl⟩, h.2⟩

namespace Template

variable {t : Template} {lookup lookup' : Lookup} {d d' : Descriptor} {type raw : String}

def statement (t : Template) : Statement :=
  ⟨t.text, t.references.map (·.declared)⟩

theorem statement_of_describe (h : t.describe lookup = .ok d) : d.statement = t.statement := by
  obtain ⟨htext, -, htypes⟩ := describe_eq_ok h
  rw [Descriptor.statement, htext, htypes, statement]

theorem describe_resolving (h : t.describe lookup = .error (.typeArgument type raw)) :
    t.describe resolving = .error (.typeArgument type raw) := by
  rw [describe_eq_error_iff] at h ⊢
  obtain ⟨before, r, after, he, hb, hf⟩ := h
  cases hf with
  | note hv hn hd =>
    have hb' : ∀ x ∈ before, x.Binds resolving := by
      intro x hx
      exact (hb x hx).resolving
    exact ⟨before, r, after, he, hb', .note rfl hn hd⟩

theorem describe_ne_ok_of_typeArgument
    (h : t.describe lookup = .error (.typeArgument type raw)) : t.describe lookup' ≠ .ok d := by
  intro hd
  have hb : ∀ r ∈ t.references, r.Binds lookup' := describe_isOk_iff.1 ⟨d, hd⟩
  obtain ⟨d', hd'⟩ : ∃ d', t.describe resolving = .ok d' := by
    apply describe_isOk_iff.2
    intro r hr
    exact (hb r hr).resolving
  cases hd'.symm.trans (describe_resolving h)

theorem typeArgument_unique {type' raw' : String}
    (h : t.describe lookup = .error (.typeArgument type raw))
    (h' : t.describe lookup' = .error (.typeArgument type' raw')) :
    type' = type ∧ raw' = raw := by
  cases (describe_resolving h).symm.trans (describe_resolving h')
  exact ⟨rfl, rfl⟩

theorem map_statement_of_map_describe {templates : List String} {queries : List Descriptor}
    (h : templates.map (fun template => (ofString template).describe lookup) = queries.map .ok) :
    queries.map Descriptor.statement = templates.map fun template =>
      (ofString template).statement := by
  apply Eq.symm
  apply map_eq_map_of_mapM _ (mapM_eq_ok_iff.2 h)
  intro template query hq
  exact (statement_of_describe hq).symm

end Template

/--
What a backend is told does not depend on the request. Of one template, two requests get queries
with the same text and types, which stay the same in every parameter syntax; where one request
fails at a type, the other one has no query and no other type fails. What an argument with queries
hands to its executor is settled before any request: all of it, or nothing where a template fails.
-/
theorem statement_independent :
    (∀ (s : String) (cx cx' : Context),
      (∀ d d', (Template.ofString s).describe cx.lookup = .ok d →
        (Template.ofString s).describe cx'.lookup = .ok d' →
          d.text = d'.text ∧ d.types = d'.types ∧
          (∀ mark, Placeholder.numbered d.text mark = Placeholder.numbered d'.text mark) ∧
          Placeholder.positional d.text = Placeholder.positional d'.text) ∧
      ∀ type raw, (Template.ofString s).describe cx.lookup = .error (.typeArgument type raw) →
        (∀ d', (Template.ofString s).describe cx'.lookup ≠ .ok d') ∧
        ∀ type' raw',
          (Template.ofString s).describe cx'.lookup = .error (.typeArgument type' raw') →
            type' = type ∧ raw' = raw) ∧
    ∀ (argument : Argument) (templates : List String), argument.Queries templates →
      ∃ statements : List Statement, statements.length = templates.length ∧
        ∀ (executor : Executor) (step : Step) (cx : Context),
          argument.compile executor = .ok step →
            (∃ template ∈ templates, ∃ e,
              (Template.ofString template).describe cx.lookup = .error e ∧
                step cx = .failed cx (.template e)) ∨
            ((step cx).events.filterMap Event.started?).map Descriptor.statement = statements := by
  constructor
  · intro s cx cx'
    constructor
    · intro d d' h h'
      have hs := (Template.statement_of_describe h).trans (Template.statement_of_describe h').symm
      obtain ⟨htext, htypes⟩ : d.text = d'.text ∧ d.types = d'.types := Statement.mk.inj hs
      rw [htext, htypes]
      exact ⟨rfl, rfl, fun _ => rfl, rfl⟩
    · intro type raw h
      constructor
      · intro d'
        exact Template.describe_ne_ok_of_typeArgument h
      · intro type' raw' h'
        exact Template.typeArgument_unique h h'
  · intro argument templates hq
    exists templates.map fun template => (Template.ofString template).statement
    constructor
    · exact List.length_map _
    · intro executor step cx hc
      cases hq.started hc cx with
      | inl hf => exact .inl hf
      | inr hs => exact .inr (Template.map_statement_of_map_describe hs)

end QueryRouting
