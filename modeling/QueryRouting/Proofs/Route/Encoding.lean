import QueryRouting.Proofs.Chain.QueryOrder
import QueryRouting.Proofs.Route.BoundPrefix

namespace QueryRouting

open Traversal

/-- What binds arguments to a path in code: one for each of these methods, and one for all. -/
inductive Verb
  | get
  | post
  | put
  | delete
  | patch
  | head
  | options
  | trace
  | connect
  | all
  deriving DecidableEq, Repr

namespace Verb

def name : Verb → String
  | .get => "GET"
  | .post => "POST"
  | .put => "PUT"
  | .delete => "DELETE"
  | .patch => "PATCH"
  | .head => "HEAD"
  | .options => "OPTIONS"
  | .trace => "TRACE"
  | .connect => "CONNECT"
  | .all => "ALL"

def matcher (verb : Verb) : MethodMatcher :=
  if verb = .all then .any else .only ⟨verb.name⟩

/-- Configuration may write the name in any case, and white space around it. -/
def Named (verb : Verb) (name : String) : Prop :=
  (Text.trim name.toList).map Char.toUpper = verb.name.toList

theorem Named.parse {verb : Verb} {name : String} (h : verb.Named name) :
    MethodMatcher.parse name = .ok verb.matcher := by
  unfold Named at h
  simp only [MethodMatcher.parse, h]
  cases verb <;> rfl

end Verb

namespace Argument

/-- The step that stands for an argument in configuration; functions and custom steps have none. -/
def toJson? : Argument → Option Json
  | .clear => some .null
  | .query template => some (.str template)
  | .queryMap queries => some (.ofPairs (queries.map fun q => (q.1, .str q.2)))
  | .status code => some (.int code.toNat)
  | .map _ | .raw _ => none

/-- The same argument, but that a query map has each key once, and these in any order. -/
inductive Reordered : Argument → Argument → Prop
  | clear : Reordered .clear .clear
  | query (template : String) : Reordered (.query template) (.query template)
  | queryMap {queries entries : List (String × String)}
      (h : entries.Perm (QueryMap.lastOfEachKey queries)) :
      Reordered (.queryMap queries) (.queryMap entries)
  | status (code : UInt16) : Reordered (.status code) (.status code)

theorem templates?_map (entries : List (String × String)) :
    templates? (entries.map fun entry => (entry.1, .str entry.2)) = some entries := by
  induction entries with
  | nil => rfl
  | cons entry rest ih => rw [List.map_cons, templates?, ih, Option.map_some]

theorem classify_of_toJson? {argument : Argument} {v : Json} (h : argument.toJson? = some v) :
    ∃ read, classify v = .ok read ∧ argument.Reordered read := by
  cases argument with
  | clear =>
    cases h
    exact ⟨_, rfl, .clear⟩
  | query template =>
    cases h
    exact ⟨_, rfl, .query template⟩
  | queryMap queries =>
    cases h
    refine ⟨.queryMap (Keyed.ofList queries), ?_, .queryMap (QueryMap.perm_ofList queries)⟩
    rw [Json.ofPairs, Keyed.ofList_map, classify, templates?_map]
  | status code =>
    cases h
    exact ⟨_, classify_eq_status_iff.2 rfl, .status code⟩
  | map _ | raw _ => cases h

theorem classifyAll_of_toJson? {arguments : List Argument} {steps : List Json}
    (h : arguments.mapM toJson? = some steps) :
    ∃ read, classifyAll steps = .ok read ∧ List.Forall₂ Reordered arguments read := by
  rw [mapM_eq_some_iff] at h
  induction arguments generalizing steps with
  | nil =>
    cases steps with
    | nil => exact ⟨[], rfl, .nil⟩
    | cons v steps => cases h
  | cons argument arguments ih =>
    cases steps with
    | nil => cases h
    | cons v steps =>
      obtain ⟨ha, hs⟩ := List.cons.inj h
      obtain ⟨read, hr, ho⟩ := classify_of_toJson? ha
      obtain ⟨others, hall, hos⟩ := ih hs
      refine ⟨read :: others, ?_, .cons ho hos⟩
      rw [classifyAll, hr, hall]
      rfl

theorem Reordered.refusal? {argument read : Argument} (h : argument.Reordered read) :
    argument.refusal? = read.refusal? := by
  cases h <;> rfl

theorem filterMap_refusal? {arguments read : List Argument}
    (h : List.Forall₂ Reordered arguments read) :
    arguments.filterMap Argument.refusal? = read.filterMap Argument.refusal? := by
  induction h with
  | nil => rfl
  | cons ho _ ih => rw [List.filterMap_cons, List.filterMap_cons, ih, ho.refusal?]

/-- If the argument is a query map, no two of its queries fail in this context. -/
def AtMostOneFails (executor : Executor) (argument : Argument) (cx : Context) : Prop :=
  ∀ queries, argument = .queryMap queries → QueryMap.AtMostOneFails executor queries cx

/-- Steps of the arguments that go alike where no two queries of a map fail. -/
inductive Alike (executor : Executor) : List Argument → List Step → List Step → Prop
  | nil : Alike executor [] [] []
  | cons {argument : Argument} {arguments : List Argument} {step step' : Step}
      {steps steps' : List Step}
      (h : ∀ cx, argument.AtMostOneFails executor cx → (step cx).Alike (step' cx))
      (hs : Alike executor arguments steps steps') :
      Alike executor (argument :: arguments) (step :: steps) (step' :: steps')

variable {executor executor' : Executor}

theorem Reordered.compile {argument read : Argument} {step step' : Step}
    (h : argument.Reordered read) (hx : executor.Agrees executor')
    (hc : argument.compile executor = .ok step) (hc' : read.compile executor' = .ok step')
    (cx : Context) (hone : argument.AtMostOneFails executor cx) : (step cx).Alike (step' cx) := by
  cases h with
  | clear =>
    cases hc
    cases hc'
    exact .refl _
  | query template =>
    cases hc
    cases hc'
    exact StepRun.alike_of_eq (hx.query template cx)
  | queryMap hp =>
    cases hc
    cases hc'
    exact QueryMap.step_alike hx hp (hone _ rfl)
  | status code =>
    rw [Argument.compile] at hc hc'
    cases hs : Status.ofCode? code.toNat with
    | none =>
      rw [hs] at hc
      cases hc
    | some status =>
      rw [hs] at hc hc'
      cases hc
      cases hc'
      exact .refl _

theorem alike_of_reordered {arguments read : List Argument} {steps steps' : List Step}
    (h : List.Forall₂ Reordered arguments read) (hx : executor.Agrees executor')
    (hc : List.Forall₂ (fun a step => a.compile executor = .ok step) arguments steps)
    (hc' : List.Forall₂ (fun a step => a.compile executor' = .ok step) read steps') :
    Alike executor arguments steps steps' := by
  induction h generalizing steps steps' with
  | nil =>
    cases hc
    cases hc'
    exact .nil
  | cons ho _ ih =>
    cases hc with
    | cons hs hrest =>
      cases hc' with
      | cons hs' hrest' => exact .cons (ho.compile hx hs hs') (ih hrest hrest')

end Argument

end QueryRouting
