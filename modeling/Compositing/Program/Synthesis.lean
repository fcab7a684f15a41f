/-
Compositing.Program.Synthesis — the program of a stack of layers.

Layers are composited bottom to top; hidden layers and hidden child
effects leave no trace. Every statement writes the next free buffer, and
the last buffer written always holds the composite so far:

* a flat base takes up its opacity in its own alpha and its filters run
  on it;
* any other base is blended, filters and all, onto a transparent
  backdrop;
* a further layer is produced, filtered, and blended onto the composite
  beneath it, which a filter layer also reads.
-/
import Compositing.Effect.Catalog
import Compositing.Program.Script

namespace Compositing.Program

/-- Parameters of a flat colour that cannot be seen. -/
def transparent : Params :=
  ((((Params.empty.insert "r" (.int 0) trivial).insert "g" (.int 0)
    trivial).insert "b" (.int 0) trivial).insert "a" (.int 0) trivial)

/-- The call for a backdrop or a blank picture. -/
def transparentCall (role : Role) : Call :=
  { effect := EffectId.solid, params := transparent, role := role }

/-- The call of a child effect. -/
def childCall (l : Layer) (c : ChildEffect) : Call :=
  { effect := c.effect
    params := c.params
    role := .child l.id c.id }

/-- The parameters of a layer's own effect. Media and texts are moved by
the layer's offset. -/
def layerParams (effectClass : EffectClass) (l : Layer) : Params :=
  if effectClass.hasOffset then
    l.params.insertPair "offset" l.offset.x l.offset.y
  else l.params

/-- The parameters of a flat base, with its opacity in the alpha. -/
def bakedParams (l : Layer) : Params :=
  l.params.insertFloat "a" l.bakedAlpha

/-- How a layer is blended. -/
def mixOf (l : Layer) : Mix :=
  { layer := l.id, weight := blendWeight l.opacity, mode := l.blendMode }

/-- Filters run one after another from buffer `b`; each writes the next
buffer. -/
def filterChain (l : Layer) : Buffer → List ChildEffect → List Statement
  | _, [] => []
  | b, c :: rest =>
    .produce (some b) (childCall l c) (b + 1) ::
      filterChain l (b + 1) rest

section

variable (catalog : Catalog) (fallback : EffectId)

/-- The call of a layer's own effect. -/
def layerCall (l : Layer) : Call :=
  let effect := l.effectOr fallback
  { effect := effect
    params := layerParams (catalog.classify effect) l
    role := .layer l.id }

/-- The buffer that a layer's effect reads: `below`, unless the effect
needs none. -/
def layerInput (below : Buffer) (l : Layer) : Option Buffer :=
  if (catalog.classify (l.effectOr fallback)).isStandalone then none
  else some below

/-- The statements of the base layer, from buffer 0 on. -/
def baseStatements (l : Layer) : List Statement :=
  let effect := l.effectOr fallback
  if catalog.classify effect = .solid then
    let call : Call :=
      { effect := effect, params := bakedParams l, role := .layer l.id }
    .produce none call 0 :: filterChain l 0 l.visibleChildren
  else
    let content : Content :=
      .chain (layerInput catalog fallback 0 l)
        (layerCall catalog fallback l)
        (l.visibleChildren.map (childCall l))
    [.produce none (transparentCall .backdrop) 0,
      .blend 0 (mixOf l) content 1]

/-- The statements of a layer above the composite in buffer `below`. -/
def layerStatements (below : Buffer) (l : Layer) : List Statement :=
  let children := l.visibleChildren
  let last := below + 1 + children.length
  .produce (layerInput catalog fallback below l)
      (layerCall catalog fallback l) (below + 1) ::
    (filterChain l (below + 1) children ++
      [.blend below (mixOf l) (.buffer last) (last + 1)])

/-- The statements of layers one above another. -/
def upperStatements : Buffer → List Layer → List Statement
  | _, [] => []
  | below, l :: rest =>
    let own := layerStatements catalog fallback below l
    own ++ upperStatements (below + own.length) rest

/-- The statements of the visible layers. -/
def stackStatements : List Layer → List Statement
  | [] => [.produce none (transparentCall .blank) 0]
  | base :: rest =>
    let own := baseStatements catalog fallback base
    own ++ upperStatements catalog fallback (own.length - 1) rest

/-- The namespaces of a layer's effects. -/
def layerNamespaces (l : Layer) : List String :=
  (l.effectOr fallback).space ::
    l.visibleChildren.map (·.effect.space)

/-- The namespaces of visible layers and of the built-in effects, in
ascending order. -/
def usedNamespaces (visible : List Layer) : List String :=
  let names := [EffectId.mediaSpace, EffectId.mixerSpace] ++
    visible.flatMap (layerNamespaces fallback)
  (Assoc.ofList (names.map fun name => (name, ()))).map Prod.fst

/-- The program of layers listed bottom to top. Layers that name no
effect run `fallback`. -/
def ofLayers (layers : List Layer) : Program :=
  let visible := layers.filter (·.visible)
  let statements := stackStatements catalog fallback visible
  { namespaces := usedNamespaces fallback visible
    statements := statements
    output := statements.length - 1 }

end

end Compositing.Program
