/-
Compositing.Session.Texture — textures that come from outside.

Media layers and text layers show textures. Passes and layers are paired
by position: the steps that run the media effect with the visible media
layers, and for each text effect the steps that run it with the visible
layers of that effect. An upload that fails holds up no other one.
-/
import Compositing.Session.Basic

namespace Compositing

/-- Media for a step. -/
structure MediaUpload where
  step : Nat
  reference : String
  kind : MediaKind
  deriving DecidableEq, Repr

/-- A text for a step. -/
structure TextUpload where
  step : Nat
  slot : String
  params : Params

namespace Session

variable {σ ρ : Type} [EffectEngine σ] [TextRasterizer ρ]

/-- The parameter that tells an effect the extent of its texture. -/
def sizeParams (size : Extent) : Params :=
  Params.empty.insert "imageSize" (.arr [.int size.width, .int size.height])
    ⟨trivial, trivial, trivial⟩

/-! ## What there is to upload -/

/-- The media of the visible layers with the steps that show them, if
there is a pipeline. -/
def mediaUploads? (s : Session σ ρ) : Option (List MediaUpload) :=
  (EffectEngine.graph? s.engine).map fun graph =>
    let media := s.visibleLayers.filterMap Layer.media?
    ((graph.stepsOf EffectId.media).zip media).map
      fun (step, reference, kind) =>
        { step := step, reference := reference, kind := kind }

/-- The text effects of visible layers, each once, in the order in which
they first appear. -/
def textEffects (s : Session σ ρ) : List EffectId :=
  let effects := s.visibleLayers.map
    (·.effectOr s.config.defaultGenerator)
  (effects.filter fun effect =>
    s.catalog.classify effect = .text).eraseDups

/-- The texts of the visible layers of one effect with their steps. -/
def textUploadsOf (s : Session σ ρ) (graph : PipelineGraph)
    (effect : EffectId) : List TextUpload :=
  match s.catalog.externalTexture? effect with
  | none => []
  | some slot =>
    let layers := s.visibleLayers.filter fun l =>
      l.effectOr s.config.defaultGenerator = effect
    ((graph.stepsOf effect).zip layers).map fun (step, l) =>
      { step := step, slot := slot, params := l.params }

/-- The texts of all visible layers with their steps. -/
def textUploads (s : Session σ ρ) : List TextUpload :=
  match EffectEngine.graph? s.engine with
  | none => []
  | some graph => s.textEffects.flatMap (s.textUploadsOf graph)

/-- The text of one layer for a known step. -/
def textUploadFor? (s : Session σ ρ) (id : LayerId) (step : Nat) :
    Option TextUpload := do
  let l ← s.stack.get? id
  let effect := l.effectOr s.config.defaultGenerator
  if s.catalog.classify effect = .text then
    let slot ← s.catalog.externalTexture? effect
    return { step := step, slot := slot, params := l.params }
  else none

/-! ## Uploading -/

/-- Upload media. On request the step is told the extent afterwards. -/
def uploadMedia (u : MediaUpload) (pushSize : Bool) (s : Session σ ρ) :
    Bool × Session σ ρ :=
  match s.requestUpload (textureName mediaSlot u.step)
      (.media u.reference u.kind) with
  | (some size, s) =>
    if pushSize then (true, (s.push u.step (sizeParams size)).2)
    else (true, s)
  | (none, s) => (false, s)

/-- Draw and upload a text; the step is told the extent afterwards. -/
def uploadText (u : TextUpload) (s : Session σ ρ) : Session σ ρ :=
  match s.requestRaster u.params with
  | (none, s) => s
  | (some picture, s) =>
    match s.requestUpload (textureName u.slot u.step) (.raster picture) with
    | (some size, s) => (s.push u.step (sizeParams size)).2
    | (none, s) => s

/-- Upload all media and all texts. -/
def syncTextures (s : Session σ ρ) : Session σ ρ :=
  let media := s.mediaUploads?.getD []
  let s := media.foldl (fun s u => (s.uploadMedia u true).2) s
  s.textUploads.foldl (fun s u => s.uploadText u) s

/-- Upload media one after another and count those that were taken. -/
def uploadCounting : List MediaUpload → Session σ ρ → Nat × Session σ ρ
  | [], s => (0, s)
  | u :: rest, s =>
    let (taken, s) := s.uploadMedia u false
    let (count, s) := uploadCounting rest s
    (if taken then count + 1 else count, s)

/-- Upload the video of every visible layer again, as for a new frame;
the result says how many uploads were taken. -/
def refreshVideo (s : Session σ ρ) : Nat × Session σ ρ :=
  match s.stepMap?, s.mediaUploads? with
  | some _, some uploads =>
    uploadCounting (uploads.filter fun u => u.kind = .video) s
  | _, _ => (0, s)

end Session

end Compositing
