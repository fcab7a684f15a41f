/-
Compositing.Pipeline.StepMap — from layers to pipeline steps.

A pass names only its effect, so invocations and passes are matched by
occurrence: the nth invocation of an effect in program text belongs to
the nth pass that runs it. The count runs over invocations of every role
alike; backdrops and blanks are counted but not mapped.
-/
import Compositing.Pipeline.Graph
import Compositing.Program.Script

namespace Compositing

/-- Which step runs which layer, child effect or blend. -/
structure StepMap where
  steps : List (LayerId × Nat) := []
  blendSteps : List (LayerId × Nat) := []
  baseHasBlend : Bool := false
  deriving DecidableEq

namespace StepMap

/-- The step that runs the layer's or child effect's own call. -/
def step? (m : StepMap) (id : LayerId) : Option Nat :=
  Assoc.get? id m.steps

/-- The step that puts the layer onto what lies beneath. -/
def blendStep? (m : StepMap) (id : LayerId) : Option Nat :=
  Assoc.get? id m.blendSteps

/-- How many layers and child effects have a step. -/
def size (m : StepMap) : Nat :=
  m.steps.length

/-- Map one invocation to a step. -/
def bind (m : StepMap) (role : Role) (step : Nat) : StepMap :=
  match role with
  | .backdrop | .blank => m
  | .layer id => { m with steps := Assoc.insert id step m.steps }
  | .child _ id => { m with steps := Assoc.insert id step m.steps }
  | .blend id => { m with blendSteps := Assoc.insert id step m.blendSteps }

/-- Map invocations one after another, behind others that invoked the
effects in `before`. -/
def bindAll (graph : PipelineGraph) (m : StepMap)
    (before : List EffectId) : List Invocation → StepMap
  | [] => m
  | inv :: rest =>
    let m :=
      match graph.nthStep? inv.effect (before.count inv.effect) with
      | some step => m.bind inv.role step
      | none => m
    bindAll graph m (inv.effect :: before) rest

/-- The step map of a program that was compiled to a graph. -/
def build (p : Program) (graph : PipelineGraph) : StepMap :=
  bindAll graph { baseHasBlend := p.baseHasBlend } [] p.invocations

end StepMap

end Compositing
