/-
Compositing.Pipeline.Graph — the passes of a compiled pipeline.

An engine turns a program into passes. A pass is known only by the
effect that it runs and by the index of the step that takes parameters
for it.
-/
import Compositing.Effect.Id

namespace Compositing

/-- One effect inside a compiled pipeline. -/
structure Pass where
  effect : EffectId
  step : Nat
  deriving DecidableEq

/-- The passes of a pipeline in their order. -/
structure PipelineGraph where
  passes : List Pass := []
  deriving DecidableEq

namespace PipelineGraph

/-- The passes that run an effect, in their order. -/
def running (g : PipelineGraph) (effect : EffectId) : List Pass :=
  g.passes.filter fun pass => pass.effect = effect

/-- The steps of the passes that run an effect, each once. -/
def stepsOf (g : PipelineGraph) (effect : EffectId) : List Nat :=
  ((g.running effect).map (·.step)).eraseDups

/-- The step of the pass that runs an effect for the `n`th time, counted
from zero. -/
def nthStep? (g : PipelineGraph) (effect : EffectId) (n : Nat) :
    Option Nat :=
  ((g.running effect)[n]?).map (·.step)

end PipelineGraph

/-- The name of the texture that a slot has at a step. -/
def textureName (slot : String) (step : Nat) : String :=
  slot ++ "_step_" ++ toString step

end Compositing
