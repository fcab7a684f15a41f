/-
Compositing.Layer.Basic — layers and their child effects.

A layer shows media from outside or the output of an effect, with its
own chain of filters, and is composited onto the layers beneath it.
-/
import Compositing.Effect.Id
import Compositing.Layer.Id
import Compositing.Layer.Opacity
import Compositing.Layer.Params

namespace Compositing

/-- How a layer is mixed with what lies beneath. -/
inductive BlendMode where
  | mix
  | add
  | subtract
  | multiply
  | screen
  | overlay
  | darken
  | lighten
  | difference
  deriving DecidableEq, Repr, Inhabited

namespace BlendMode

/-- All modes in the order in which messages list them. -/
def all : List BlendMode :=
  [.mix, .add, .subtract, .multiply, .screen, .overlay, .darken, .lighten,
    .difference]

/-- The word for a mode. -/
def word : BlendMode → String
  | .mix => "mix"
  | .add => "add"
  | .subtract => "subtract"
  | .multiply => "multiply"
  | .screen => "screen"
  | .overlay => "overlay"
  | .darken => "darken"
  | .lighten => "lighten"
  | .difference => "difference"

/-- The mode of a word. -/
def ofWord? (word : String) : Option BlendMode :=
  all.find? fun mode => mode.word = word

end BlendMode

/-- Still or moving media. -/
inductive MediaKind where
  | image
  | video
  deriving DecidableEq, Repr, Inhabited

namespace MediaKind

/-- Both kinds in the order in which messages list them. -/
def all : List MediaKind := [.image, .video]

/-- The word for a kind. -/
def word : MediaKind → String
  | .image => "image"
  | .video => "video"

/-- The kind of a word. -/
def ofWord? (word : String) : Option MediaKind :=
  all.find? fun kind => kind.word = word

end MediaKind

/-- What a layer shows. -/
inductive LayerSource where
  | media (reference : String) (kind : MediaKind)
  /-- An effect; `none` leaves the choice to the session's settings. -/
  | effect (effect : Option EffectId)
  deriving DecidableEq

/-- A filter in a layer's own chain. -/
structure ChildEffect where
  id : LayerId
  effect : EffectId
  params : Params := Params.empty
  visible : Bool := true

/-- How far a layer is moved. -/
structure Offset where
  x : Float
  y : Float
  deriving DecidableEq

namespace Offset

/-- Not moved. -/
def zero : Offset := { x := 0.0, y := 0.0 }

/-- Both distances are finite numbers. -/
def isFinite (o : Offset) : Bool :=
  o.x.isFinite && o.y.isFinite

end Offset

/-- A visual layer. -/
structure Layer where
  id : LayerId
  name : String := ""
  visible : Bool := true
  /-- In percent, 0 … 100. -/
  opacity : Float := 100.0
  blendMode : BlendMode := .mix
  locked : Bool := false
  offset : Offset := Offset.zero
  source : LayerSource
  params : Params := Params.empty
  children : List ChildEffect := []

namespace Layer

/-- The effect that the layer runs; `fallback` if it names none. -/
def effectOr (l : Layer) (fallback : EffectId) : EffectId :=
  match l.source with
  | .media _ _ => EffectId.media
  | .effect (some effect) => effect
  | .effect none => fallback

/-- The media that the layer shows, if it shows any. -/
def media? (l : Layer) : Option (String × MediaKind) :=
  match l.source with
  | .media reference kind => some (reference, kind)
  | .effect _ => none

/-- The alpha of a flat colour under this layer's opacity: the declared
parameter `a`, or 1, scaled. -/
def bakedAlpha (l : Layer) : Float :=
  let declared := ((l.params.get? "a").bind (·.number?)).getD 1.0
  declared * clampOpacity l.opacity / 100.0

/-- The filters that take part. -/
def visibleChildren (l : Layer) : List ChildEffect :=
  l.children.filter (·.visible)

/-- The identities of the layer and of its child effects. -/
def ids (l : Layer) : List LayerId :=
  l.id :: l.children.map (·.id)

end Layer

end Compositing
