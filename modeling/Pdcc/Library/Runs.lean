import Mathlib.Logic.Basic
import Pdcc.Library.Fallible

/-!
# Runs

A system moves by labelled steps; a label says who moves and settles every choice of the
step, so that a step is a function of the state and the label. What holds in every run is
what one step preserves, under a condition on the label and on the state before it.
-/

set_option autoImplicit false

namespace Pdcc.Library

variable {State Label : Type} {step : State → Label → Option State}
  {Meets : State → Label → Prop} {start final : State}

/-- The states reached by runs all of whose steps meet a condition. -/
inductive Run (step : State → Label → Option State) (Meets : State → Label → Prop)
    (start : State) : State → Prop where
  | refl : Run step Meets start start
  | tail {before after : State} (earlier : Run step Meets start before) (label : Label) :
      Meets before label → step before label = some after → Run step Meets start after

def Reach (step : State → Label → Option State) (start final : State) : Prop :=
  Run step (fun _ _ => True) start final

namespace Run

theorem invariant (Inv : State → Prop) (initially : Inv start) (preserved : ∀ before label after, Inv before → Meets before label →
      step before label = some after → Inv after)
    (run : Run step Meets start final) : Inv final := by
  induction run with
  | refl => exact initially
  | tail _ label meets moved ih => exact preserved _ label _ ih meets moved

end Run

theorem Run.of_foldlM [∀ state label, Decidable (Meets state label)] (labels : List Label) (followed : labels.foldlM (fun state label =>
      if Meets state label then step state label else none) start = some final) :
    Run step Meets start final := by
  refine foldlM_some_invariant followed .refl ?_
  intro _ label before after run moved
  split at moved
  · next meets => exact run.tail label meets moved
  · cases moved

end Pdcc.Library
