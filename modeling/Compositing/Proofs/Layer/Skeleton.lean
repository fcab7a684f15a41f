/-
Compositing.Proofs.Layer.Skeleton — what is structural about layers.

The skeleton of a list of layers is what decides which effects its
program invokes, in which order and why: the order, and of each layer
its identity, visibility, source, blend mode and chain of filters. Names,
locks, opacities, offsets and parameters are not in it, and a change of
those alone keeps it (`skeleton_toList_modify`).
-/
import Compositing.Proofs.Layer.Arena

namespace Compositing

/-- What is structural about a child effect. -/
structure ChildSkeleton where
  id : LayerId
  effect : EffectId
  visible : Bool
  deriving DecidableEq

/-- What is structural about a layer. -/
structure LayerSkeleton where
  id : LayerId
  visible : Bool
  source : LayerSource
  blendMode : BlendMode
  children : List ChildSkeleton
  deriving DecidableEq

/-- The skeleton of a child effect. -/
def ChildEffect.skeleton (c : ChildEffect) : ChildSkeleton :=
  { id := c.id, effect := c.effect, visible := c.visible }

/-- The skeleton of a layer. -/
def Layer.skeleton (l : Layer) : LayerSkeleton :=
  { id := l.id
    visible := l.visible
    source := l.source
    blendMode := l.blendMode
    children := l.children.map ChildEffect.skeleton }

/-- The skeleton of layers in their order. -/
def skeleton (layers : List Layer) : List LayerSkeleton :=
  layers.map Layer.skeleton

/-- Layers of one skeleton stand in one order. -/
theorem map_id_eq_of_skeleton_eq {a b : List Layer}
    (h : skeleton a = skeleton b) : a.map (·.id) = b.map (·.id) := by
  have ids : ∀ layers : List Layer,
      layers.map (·.id) = (skeleton layers).map (·.id) := by
    intro layers
    rw [skeleton, List.map_map]
    rfl
  rw [ids a, ids b, h]

/-- A change of one layer that keeps a view of it keeps the view of the
stack. -/
theorem map_toList_modify {α : Type} {view : Layer → α} (s : LayerStack)
    (id : LayerId) {f : Layer → Layer} (hf : ∀ l, view (f l) = view l) :
    (s.modify id f).toList.map view = s.toList.map view := by
  have same : ∀ k, ((s.modify id f).get? k).map view =
      (s.get? k).map view := by
    intro k
    rw [LayerStack.get?_modify]
    split
    · rw [Option.map_map]
      exact congrArg (Option.map · (s.get? k)) (funext hf)
    · rfl
  simp only [LayerStack.toList, LayerStack.arranged, List.map_filterMap,
    same]
  rfl

/-- A change of one layer that keeps its skeleton keeps that of the
stack. -/
theorem skeleton_toList_modify (s : LayerStack) (id : LayerId)
    {f : Layer → Layer} (hf : ∀ l, (f l).skeleton = l.skeleton) :
    skeleton (s.modify id f).toList = skeleton s.toList :=
  map_toList_modify s id hf

/-- A change of one item that keeps a view of it keeps the view of the
list. -/
theorem map_modify_of_eq {α β : Type} {view : α → β} {f : α → α}
    (hf : ∀ a, view (f a) = view a) (xs : List α) (i : Nat) :
    (xs.modify i f).map view = xs.map view := by
  refine List.ext_getElem? fun j => ?_
  simp only [List.getElem?_map, List.getElem?_modify]
  cases xs[j]? <;> split <;> simp [hf]

/-- A change of one child effect that keeps its skeleton keeps that of
its layer. -/
theorem skeleton_modify_children (l : Layer) (i : Nat)
    {f : ChildEffect → ChildEffect} (hf : ∀ c, (f c).skeleton = c.skeleton) :
    ({ l with children := l.children.modify i f } : Layer).skeleton =
      l.skeleton := by
  simp only [Layer.skeleton, map_modify_of_eq hf]

end Compositing
