/-
Compositing.Session.Basic — a stack and the pipeline that shows it.

A session owns a composition and an engine. What the engine was last
given is kept beside its step map; the map is valid as long as the
session is not stale. Every request to the engine and the rasterizer,
every commit and every word to the users is written into a journal, in
order.
-/
import Compositing.Config
import Compositing.Layer.Composition
import Compositing.Pipeline.Engine
import Compositing.Pipeline.StepMap
import Compositing.Program.Synthesis

namespace Compositing

/-- A program that was committed, and where its parts run. -/
structure Compiled where
  program : Program
  stepMap : StepMap

/-- A session on an engine and perhaps a rasterizer. -/
structure Session (σ ρ : Type) where
  engine : σ
  rasterizer : Option ρ
  config : Config
  composition : Composition
  compiled : Option Compiled
  /-- The step map does not describe what the engine runs. -/
  stale : Bool
  /-- Counts the changes of the stack's structure. -/
  revision : Nat
  /-- Counts the step maps that were built. -/
  generation : Nat
  journal : List Event

namespace Session

variable {σ ρ : Type}

/-- A session over a list of layers. Nothing is compiled yet. -/
def ofLayers (engine : σ) (rasterizer : Option ρ) (config : Config)
    (layers : List Layer) : Except Error (Session σ ρ) := do
  let stack ← LayerStack.ofLayers layers
  return {
    engine := engine
    rasterizer := rasterizer
    config := config
    composition := Composition.ofStack IdSource.fresh stack
    compiled := none
    stale := true
    revision := 0
    generation := 0
    journal := [] }

/-- The stack. -/
def stack (s : Session σ ρ) : LayerStack :=
  s.composition.stack

/-- The layers bottom to top. -/
def layers (s : Session σ ρ) : List Layer :=
  s.composition.layers

/-- The visible layers bottom to top. -/
def visibleLayers (s : Session σ ρ) : List Layer :=
  s.layers.filter (·.visible)

/-- The step map, unless it is stale. -/
def stepMap? (s : Session σ ρ) : Option StepMap :=
  if s.stale then none else s.compiled.map (·.stepMap)

/-- The text of the program that was committed last. -/
def programText? (s : Session σ ρ) : Option String :=
  s.compiled.map fun compiled => compiled.program.text

/-- The stack's structure has changed; the pipeline has to follow. -/
def invalidate (s : Session σ ρ) : Session σ ρ :=
  { s with revision := s.revision + 1, stale := true }

/-- Hand out an identity. -/
def mint (s : Session σ ρ) : LayerId × Session σ ρ :=
  let (id, c) := s.composition.mint
  (id, { s with composition := c })

/-- Write an event into the journal. -/
def log (s : Session σ ρ) (event : Event) : Session σ ρ :=
  { s with journal := s.journal ++ [event] }

variable [EffectEngine σ] [TextRasterizer ρ]

/-- The engine's manifest with the session's settings. -/
def catalog (s : Session σ ρ) : Catalog :=
  { manifest := EffectEngine.manifest s.engine
    generatorNamespaces := s.config.generatorNamespaces }

/-- The program of layers under the session's settings. -/
def programOf (s : Session σ ρ) (layers : List Layer) : Program :=
  Program.ofLayers s.catalog s.config.defaultGenerator layers

/-! ## Requests -/

/-- Ask the engine to make effects known. -/
def requestLoad (effects : List EffectId) (s : Session σ ρ) :
    Except Error Unit × Session σ ρ :=
  let (result, engine) := EffectEngine.loadEffects effects s.engine
  (result, { s with engine := engine }.log (.load effects))

/-- Ask the engine to compile. -/
def requestCompile (text : String) (s : Session σ ρ) :
    Except Error Unit × Session σ ρ :=
  let (result, engine) := EffectEngine.compile text s.engine
  (result, { s with engine := engine }.log (.compile text result.isOk))

/-- Give the engine parameters for a step; the result says whether it
took them. -/
def push (step : Nat) (params : Params) (s : Session σ ρ) :
    Bool × Session σ ρ :=
  let values : StepParams := [(step, params)]
  let (result, engine) := EffectEngine.applyParams values s.engine
  (result.isOk, { s with engine := engine }.log (.push values result.isOk))

/-- Give the engine a texture; the result is its extent, if the engine
took it. -/
def requestUpload (texture : String) (source : TextureSource)
    (s : Session σ ρ) : Option Extent × Session σ ρ :=
  let flip := s.config.flipY
  let (result, engine) :=
    EffectEngine.uploadTexture texture source flip s.engine
  let s := { s with engine := engine }.log
    (.upload texture source flip result.isOk)
  (result.toOption, s)

/-- Ask the rasterizer for a picture, if there is a rasterizer. -/
def requestRaster (params : Params) (s : Session σ ρ) :
    Option Extent × Session σ ρ :=
  match s.rasterizer with
  | none => (none, s)
  | some rasterizer =>
    let (result, rasterizer) := TextRasterizer.rasterize params rasterizer
    let s := { s with rasterizer := some rasterizer }.log
      (.rasterize params)
    (result.toOption, s)

end Session

end Compositing
