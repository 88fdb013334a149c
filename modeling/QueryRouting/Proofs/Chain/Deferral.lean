import QueryRouting.Proofs.Chain.Frame
import QueryRouting.Proofs.Route.Binding
import QueryRouting.Proofs.Route.Records

namespace QueryRouting

/-- What a function is given that another one defers to: what that one left, and no data. -/
def FunctionEffect.input (effect : FunctionEffect) : FunctionInput :=
  ⟨effect.request, effect.response, none⟩

/-- The context after effects in their order. -/
def Context.applyAll (cx : Context) (effects : List FunctionEffect) : Context :=
  effects.foldl apply cx

namespace Argument

/-- A function defers to another one, and so on down to an argument; each leaves its effect. -/
inductive Defers : FunctionInput → Argument → List FunctionEffect → Argument → Prop
  | refl {input : FunctionInput} {argument : Argument} : Defers input argument [] argument
  | head {f : FunctionInput → FunctionOutput} {input : FunctionInput} {effect : FunctionEffect}
      {effects : List FunctionEffect} {next last : Argument} (h : f input = .defer effect next)
      (tail : Defers effect.input next effects last) :
      Defers input (.map f) (effect :: effects) last

/-- Compiles and runs an argument in place. -/
def run (executor : Executor) (argument : Argument) : Step := fun cx =>
  match argument.compile executor with
  | .ok step => step cx
  | .error e => .failed cx (.bind e)

variable {executor : Executor} {argument last : Argument} {step : Step} {cx : Context}
  {f : FunctionInput → FunctionOutput} {effects : List FunctionEffect}

theorem run_of_ok (h : argument.compile executor = .ok step) : argument.run executor = step := by
  funext cx
  rw [run, h]

theorem run_of_error {e : BindError} (h : argument.compile executor = .error e) (cx : Context) :
    argument.run executor cx = .failed cx (.bind e) := by
  rw [run, h]

theorem continue_defer (executor : Executor) (effect : FunctionEffect) (argument : Argument)
    (cx : Context) : (FunctionOutput.defer effect argument).continue executor cx =
      (argument.run executor (cx.apply effect)).after effect.events := by
  rw [FunctionOutput.continue, run]
  cases argument.compile executor <;> rfl

theorem Defers.run {input : FunctionInput} (h : Defers input argument effects last)
    (hcx : cx.functionInput = input) : argument.run executor cx =
      (last.run executor (cx.applyAll effects)).after (effects.flatMap (·.events)) := by
  induction h generalizing cx with
  | refl => rfl
  | @head f input effect effects next last hf _ ih =>
    calc (map f).run executor cx
      _ = (f cx.functionInput).continue executor cx := rfl
      _ = (next.run executor (cx.apply effect)).after effect.events := by
        rw [hcx, hf, continue_defer]
      _ = _ := by
        rw [ih rfl, StepRun.after_after]
        rfl

/-- Of effects the last one shows, and no result is left. -/
theorem leftBy_applyAll (cx : Context) (effects : List FunctionEffect) (effect : FunctionEffect) :
    cx.LeftBy effect (cx.applyAll (effects ++ [effect])) := by
  induction effects generalizing cx with
  | nil => exact ⟨rfl, rfl, rfl, rfl, rfl⟩
  | cons first effects ih =>
    have h := ih (cx.apply first)
    exact ⟨h.request, h.response, h.matched, h.requestId, h.result⟩

theorem applyAll_concat (cx : Context) (effects : List FunctionEffect) (effect : FunctionEffect) :
    cx.applyAll (effects ++ [effect]) = (cx.applyAll effects).apply effect := by
  rw [Context.applyAll, List.foldl_append]
  rfl

/--
Deferral is transparent at any depth. The step of a function that defers by way of others does what
the step of the last argument does where the effects of all of them lead, and so does every chain
that begins with it. A function that fails, or a status out of range, ends it there.
-/
theorem compile_of_defers (h : Defers cx.functionInput (.map f) effects last) :
    ∃ step, (map f).compile executor = .ok step ∧
      (∀ inner, last.compile executor = .ok inner →
        step cx = (inner (cx.applyAll effects)).after (effects.flatMap (·.events)) ∧
        ∀ passes rest, Step.chain passes (step :: rest) cx =
          (Step.chain passes (inner :: rest) (cx.applyAll effects)).after
            (effects.flatMap (·.events))) ∧
      (∀ code, last = .status code → ¬ Status.IsCode code →
        step cx = ⟨cx.applyAll effects, .error (.bind (.invalidStatus code)),
          effects.flatMap (·.events)⟩) ∧
      (∀ g effect text, last = .map g →
        g (cx.applyAll effects).functionInput = .fail effect text →
          step cx = ⟨cx.applyAll (effects ++ [effect]), .error (.application text),
            (effects ++ [effect]).flatMap (·.events)⟩) ∧
      ∀ earlier effect, cx.LeftBy effect (cx.applyAll (earlier ++ [effect])) := by
  have hrun : (map f).run executor cx =
      (last.run executor (cx.applyAll effects)).after (effects.flatMap (·.events)) := h.run rfl
  refine ⟨(map f).run executor, rfl, ?_, ?_, ?_, leftBy_applyAll cx⟩
  · intro inner hi
    rw [run_of_ok hi] at hrun
    refine ⟨hrun, fun passes rest => ?_⟩
    rw [Step.chain_cons, Step.chain_cons, hrun, StepRun.andThen_after]
  · intro code hl hc
    rw [hrun, run_of_error (compile_eq_error_iff.2 ⟨code, hl, hc, rfl⟩), StepRun.after,
      StepRun.failed, List.append_nil]
  · intro g effect text hl hg
    subst hl
    have hfail : (map g).run executor (cx.applyAll effects) =
        ⟨(cx.applyAll effects).apply effect, .error (.application text), effect.events⟩ := by
      rw [run_of_ok rfl, hg]
      exact congrArg (StepRun.mk _ _) (List.append_nil _)
    rw [hrun, hfail, applyAll_concat, List.flatMap_append, List.flatMap_singleton, StepRun.after]

/-- A function that shows the data it is given, sets a status, and defers. -/
def deferring (status : Status) (next : Argument) : FunctionInput → FunctionOutput := fun input =>
  .defer ⟨input.request, input.response.setStatus status, [.note (input.data.getD .null)]⟩ next

def leaving : Step := fun cx =>
  ⟨cx, .ok .exitRouter, []⟩

theorem compile_of_three_deferring :
    ∃ effects, Defers withResult.functionInput
        (.map (deferring ⟨201, by decide⟩ (.map (deferring ⟨202, by decide⟩
          (.map (deferring ⟨203, by decide⟩ (.raw leaving))))))) effects (.raw leaving) ∧
      ∃ step, (map (deferring ⟨201, by decide⟩ (.map (deferring ⟨202, by decide⟩
          (.map (deferring ⟨203, by decide⟩ (.raw leaving))))))).compile halfFailing = .ok step ∧
        (step withResult).outcome = .ok .exitRouter ∧
        (step withResult).context.response.status.code = 203 ∧
        (step withResult).context.result = none ∧
        (step withResult).events = [.note (.str "before"), .note .null, .note .null] := by
  have h : Defers withResult.functionInput
      (.map (deferring ⟨201, by decide⟩ (.map (deferring ⟨202, by decide⟩
        (.map (deferring ⟨203, by decide⟩ (.raw leaving))))))) _ (.raw leaving) :=
    .head rfl (.head rfl (.head rfl .refl))
  obtain ⟨step, hc, hinner, -⟩ := @compile_of_defers halfFailing _ _ _ _ h
  have hrun := (hinner leaving rfl).1
  refine ⟨_, h, step, hc, ?_⟩
  rw [hrun]
  exact ⟨rfl, rfl, rfl, rfl⟩

end Argument

end QueryRouting
