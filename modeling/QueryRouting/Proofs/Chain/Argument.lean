import QueryRouting.Chain.Argument

namespace QueryRouting

mutual

/-- Functions and custom steps move between related contexts, also those that are deferred. -/
def Argument.Within (R : Context → Context → Prop) : Argument → Prop
  | .map f => ∀ cx, (f cx.functionInput).Within R cx
  | .raw step => ∀ cx, R cx (step cx).context
  | .clear | .query _ | .queryMap _ | .status _ => True

def FunctionOutput.Within (R : Context → Context → Prop) : FunctionOutput → Context → Prop
  | .fail effect _ => fun cx => R cx (cx.apply effect)
  | .direct effect _ => fun cx => R cx (cx.apply effect)
  | .defer effect argument => fun cx => R cx (cx.apply effect) ∧ argument.Within R

end

/-- A relation of contexts that allows what the other arguments do. -/
structure Permits (R : Context → Context → Prop) : Prop where
  trans {cx middle final : Context} : R cx middle → R middle final → R cx final
  refl (cx : Context) : R cx cx
  result (cx : Context) (result : Option Json) : R cx { cx with result }
  status (cx : Context) (status : Status) :
    R cx { cx with response := cx.response.setStatus status }

namespace Permits

variable {R : Context → Context → Prop}

theorem query (hR : Permits R) (executor : Executor) (template : String) (cx : Context) :
    R cx (Step.query executor template cx).context := by
  rw [Step.query]
  split
  · exact hR.refl cx
  · dsimp only
    split
    · exact hR.result cx _
    · exact hR.refl cx

theorem queryMap (hR : Permits R) (executor : Executor) (queries : List (String × String))
    (cx : Context) : R cx (QueryMap.step executor queries cx).context := by
  rw [QueryMap.step, QueryMap.stepUnder]
  split
  · exact hR.refl cx
  · rw [QueryMap.runAll]
    dsimp only
    split
    · exact hR.refl cx
    · exact hR.result cx _

end Permits

mutual

theorem Argument.Within.compile {R : Context → Context → Prop} (hR : Permits R)
    {executor : Executor} : ∀ {argument : Argument} {step : Step}, argument.Within R →
      argument.compile executor = .ok step → ∀ cx, R cx (step cx).context
  | .clear, _, _, hc, cx => by
    cases hc
    exact hR.result cx none
  | .map f, _, h, hc, cx => by
    cases hc
    exact (h cx).continue hR
  | .query template, _, _, hc, cx => by
    cases hc
    exact hR.query executor template cx
  | .queryMap queries, _, _, hc, cx => by
    cases hc
    exact hR.queryMap executor queries cx
  | .status code, _, _, hc, cx => by
    rw [Argument.compile] at hc
    split at hc
    · cases hc
      exact hR.status cx _
    · cases hc
  | .raw step, _, h, hc, cx => by
    cases hc
    exact h cx

theorem FunctionOutput.Within.continue {R : Context → Context → Prop} (hR : Permits R)
    {executor : Executor} : ∀ {output : FunctionOutput} {cx : Context}, output.Within R cx →
      R cx (output.continue executor cx).context
  | .fail effect text, cx, h => h
  | .direct effect value, cx, h => hR.trans h (hR.result _ _)
  | .defer effect argument, cx, h => by
    rw [FunctionOutput.continue]
    split
    · rename_i step hc
      exact hR.trans h.1 (h.2.compile hR hc _)
    · exact h.1

end

end QueryRouting
