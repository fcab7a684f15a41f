/-
Compositing.Layer.Opacity — opacity in percent and the weight of a blend.

The compositing operator takes a weight from −100 to 100: at 0% opacity
the layer is suppressed, at 50% both sides count alike, at 100% the
layer replaces what lies beneath.
-/
namespace Compositing

/-- An opacity brought into 0 … 100; one that is no finite number counts
as full. -/
def clampOpacity (opacity : Float) : Float :=
  if opacity.isFinite then
    if opacity < 0.0 then 0.0
    else if 100.0 < opacity then 100.0
    else opacity
  else 100.0

/-- The weight with which a layer of this opacity is blended. -/
def blendWeight (opacity : Float) : Float :=
  (clampOpacity opacity - 50.0) * 2.0

end Compositing
