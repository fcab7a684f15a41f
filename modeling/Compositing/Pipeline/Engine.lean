/-
Compositing.Pipeline.Engine — what a session asks of its surroundings.

An engine compiles programs and runs them; a rasterizer draws the
textures of text effects. Both are states with total answers: each
request gives a result, which may be an error, and the next state.
Nothing else is assumed of them here.
-/
import Compositing.Effect.Manifest
import Compositing.Layer.Basic
import Compositing.Pipeline.Graph
import Compositing.Program.Script

namespace Compositing

/-- Parameters by step. -/
abbrev StepParams := List (Nat × Params)

/-- Width and height of a picture. -/
structure Extent where
  width : Nat
  height : Nat
  deriving DecidableEq, Repr, Inhabited

/-- What a texture is filled from. -/
inductive TextureSource where
  | media (reference : String) (kind : MediaKind)
  /-- A rasterized picture of some extent. -/
  | raster (extent : Extent)
  deriving DecidableEq, Repr

/-- An effect engine with states of type `σ`. -/
class EffectEngine (σ : Type) where
  /-- What it publishes about its effects. -/
  manifest : σ → Manifest
  /-- The effect can be used in a program. -/
  isRegistered : σ → EffectId → Bool
  /-- Make effects known. -/
  loadEffects : List EffectId → σ → Except Error Unit × σ
  /-- Compile a program and run it in place of the one before. -/
  compile : String → σ → Except Error Unit × σ
  /-- The passes of the running pipeline; there may be none to see. -/
  graph? : σ → Option PipelineGraph
  /-- Set parameters of steps. -/
  applyParams : StepParams → σ → Except Error Unit × σ
  /-- Fill a texture, flipped if asked to; the result is its extent. -/
  uploadTexture :
    String → TextureSource → Bool → σ → Except Error Extent × σ

/-- A rasterizer with states of type `ρ`. -/
class TextRasterizer (ρ : Type) where
  /-- Draw the text that parameters describe. -/
  rasterize : Params → ρ → Except Error Extent × ρ

/-- What was there when a program became the session's own. -/
structure Commit where
  /-- The layers that the program was made of. -/
  layers : List Layer
  program : Program
  /-- The passes that the engine showed. -/
  graph? : Option PipelineGraph

/-- What happens between a session and its surroundings. Requests come
with their success where a session goes on after either. -/
inductive Event where
  | load (effects : List EffectId)
  | compile (text : String) (accepted : Bool)
  | push (values : StepParams) (accepted : Bool)
  | upload (texture : String) (source : TextureSource) (flipY : Bool)
    (accepted : Bool)
  | rasterize (params : Params)
  /-- A program that was compiled became the session's own. -/
  | commit (made : Commit)
  /-- Users were told why a reordering was undone. -/
  | notify (reason : String)

end Compositing
