/-
Compositing.Session.Update — changes that reach the pipeline without a
recompile.

A change of parameters, opacity or offset is applied to the stack and
then pushed to the step that the step map names. While the map is stale,
or where it has no step, the change stays with the stack alone. What is
pushed is what synthesis would write: the alpha of a flat base is pushed
under its opacity.
-/
import Compositing.Session.Compile

namespace Compositing.Session

variable {σ ρ : Type} [EffectEngine σ] [TextRasterizer ρ]

/-- The step of a layer or child effect, unless the map is stale. -/
def step? (s : Session σ ρ) (id : LayerId) : Option Nat :=
  s.stepMap?.bind (·.step? id)

/-- The step that blends a layer, unless the map is stale. -/
def blendStep? (s : Session σ ρ) (id : LayerId) : Option Nat :=
  s.stepMap?.bind (·.blendStep? id)

/-- The alpha that a flat base shows under its opacity; only the first
visible layer can be one. -/
def solidBaseAlpha? (s : Session σ ρ) (id : LayerId) : Option Float :=
  match s.layers.find? (·.visible) with
  | some base =>
    if base.id = id ∧
        base.effectOr s.config.defaultGenerator = EffectId.solid then
      some base.bakedAlpha
    else none
  | none => none

/-- A patch as it is pushed: with the alpha that synthesis would bake. -/
def bakePatch (s : Session σ ρ) (id : LayerId) (patch : Params) :
    Params :=
  match patch.get? "a", s.solidBaseAlpha? id with
  | some _, some alpha => patch.insertFloat "a" alpha
  | _, _ => patch

/-- Draw and upload the text of a layer again, if it is a text. -/
def refreshText (id : LayerId) (step : Nat) (s : Session σ ρ) :
    Session σ ρ :=
  match s.textUploadFor? id step with
  | some u => s.uploadText u
  | none => s

/-- Set parameters of a layer or child effect. The result says whether
they reached the pipeline. -/
def updateParams (id : LayerId) (patch : Params) (s : Session σ ρ) :
    Except Error Bool × Session σ ρ :=
  match s.touch (Composition.patchParams id patch) with
  | (.error e, s) => (.error e, s)
  | (.ok (), s) =>
    match s.step? id with
    | none => (.ok false, s)
    | some step =>
      let (pushed, s) := s.push step (s.bakePatch id patch)
      (.ok pushed, s.refreshText id step)

/-- Where the opacity of a layer is pushed, and as what: the alpha of a
flat base, else the weight of the layer's blend. -/
def opacityPatch (s : Session σ ρ) (id : LayerId) (opacity : Float) :
    Option Nat × Params :=
  match s.solidBaseAlpha? id with
  | some alpha => (s.step? id, Params.empty.insertFloat "a" alpha)
  | none =>
    (s.blendStep? id,
      Params.empty.insertFloat "amount" (blendWeight opacity))

/-- Set the opacity of a layer. The result says whether it reached the
pipeline. -/
def updateOpacity (id : LayerId) (opacity : Float) (s : Session σ ρ) :
    Except Error Bool × Session σ ρ :=
  match s.touch (Composition.setOpacity id opacity) with
  | (.error e, s) => (.error e, s)
  | (.ok (), s) =>
    match s.opacityPatch id opacity with
    | (none, _) => (.ok false, s)
    | (some step, patch) =>
      let (pushed, s) := s.push step patch
      (.ok pushed, s)

/-- The layer's effect is moved by its offset. -/
def followsOffset (s : Session σ ρ) (id : LayerId) : Bool :=
  (s.stack.get? id).any fun l =>
    (s.catalog.classify (l.effectOr s.config.defaultGenerator)).hasOffset

/-- Move a layer. The result says whether the move reached the
pipeline. -/
def updateOffset (id : LayerId) (offset : Offset) (s : Session σ ρ) :
    Except Error Bool × Session σ ρ :=
  match s.touch (Composition.setOffset id offset) with
  | (.error e, s) => (.error e, s)
  | (.ok (), s) =>
    match if s.followsOffset id then s.step? id else none with
    | none => (.ok false, s)
    | some step =>
      let (pushed, s) :=
        s.push step (Params.empty.insertPair "offset" offset.x offset.y)
      (.ok pushed, s)

end Compositing.Session
