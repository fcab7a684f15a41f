/-
Compositing.Proofs.Program.Invocations — what a program invokes, and why.

`invocations_ofLayers` lists the invocations of a stack's program without
its buffers: a flat base is its own content, any other base stands on a
backdrop inside its blend, and every further layer is followed by its
blend. From it come the identities of the content (`shown_ofLayers`) and
of the blends (`blended_ofLayers`). Layers of one skeleton have programs
with the same invocations (`invocations_of_skeleton_eq`).
-/
import Mathlib.Data.List.Nodup
import Compositing.Program.Synthesis
import Compositing.Proofs.Layer.Skeleton

namespace Compositing

namespace Role

/-- The layer or child effect whose own content the invocation is. -/
def shown? : Role → Option LayerId
  | .layer id | .child _ id => some id
  | _ => none

/-- The layer that the invocation puts onto what lies beneath. -/
def blended? : Role → Option LayerId
  | .blend id => some id
  | _ => none

theorem shown?_eq_some_iff {role : Role} {id : LayerId} :
    role.shown? = some id ↔
      role = .layer id ∨ ∃ owner, role = .child owner id := by
  cases role <;> simp [shown?]

theorem blended?_eq_some_iff {role : Role} {id : LayerId} :
    role.blended? = some id ↔ role = .blend id := by
  cases role <;> simp [blended?]

end Role

namespace Program

/-! ## One layer -/

/-- The invocation of a layer's blend. -/
def blendInvocation (l : Layer) : Invocation :=
  { effect := EffectId.blend, role := .blend l.id }

/-- The invocation of a child effect. -/
def childInvocation (l : Layer) (c : ChildEffect) : Invocation :=
  { effect := c.effect, role := .child l.id c.id }

/-- The invocations of a layer's content. -/
def contentInvocations (fallback : EffectId) (l : Layer) :
    List Invocation :=
  { effect := l.effectOr fallback, role := .layer l.id } ::
    l.visibleChildren.map (childInvocation l)

theorem invocations_filterChain (l : Layer) :
    ∀ (b : Buffer) (children : List ChildEffect),
      (filterChain l b children).flatMap Statement.invocations =
        children.map (childInvocation l)
  | _, [] => rfl
  | b, c :: rest => by
    rw [filterChain, List.flatMap_cons, invocations_filterChain l (b + 1) rest]
    rfl

section

variable (catalog : Catalog) (fallback : EffectId)

/-- The layer is a flat colour. -/
def IsFlat (l : Layer) : Prop :=
  l.effectOr fallback = EffectId.solid

instance (l : Layer) : Decidable (IsFlat fallback l) :=
  inferInstanceAs (Decidable (_ = _))

theorem classify_eq_solid_iff (effect : EffectId) :
    catalog.classify effect = .solid ↔ effect = EffectId.solid := by
  unfold Catalog.classify
  by_cases flat : effect = EffectId.solid
  · simp [flat]
  · rw [if_neg flat]
    refine ⟨fun h => ?_, fun h => absurd h flat⟩
    repeat' split at h
    all_goals cases h

/-- The invocations of the base. -/
def baseInvocations (l : Layer) : List Invocation :=
  if IsFlat fallback l then contentInvocations fallback l
  else
    { effect := EffectId.solid, role := .backdrop } ::
      blendInvocation l :: contentInvocations fallback l

/-- The invocations of a further layer. -/
def upperInvocations (l : Layer) : List Invocation :=
  contentInvocations fallback l ++ [blendInvocation l]

theorem invocations_baseStatements (l : Layer) :
    (baseStatements catalog fallback l).flatMap Statement.invocations =
      baseInvocations fallback l := by
  unfold baseStatements baseInvocations
  dsimp only
  by_cases flat : IsFlat fallback l
  · rw [if_pos flat, if_pos ((classify_eq_solid_iff catalog _).mpr flat),
      List.flatMap_cons, invocations_filterChain]
    rfl
  · rw [if_neg flat, if_neg (mt (classify_eq_solid_iff catalog _).mp flat)]
    simp only [List.flatMap_cons, Statement.invocations, Content.calls,
      List.map_cons, List.map_map, List.flatMap_nil, List.append_nil]
    rfl

theorem invocations_layerStatements (below : Buffer) (l : Layer) :
    (layerStatements catalog fallback below l).flatMap
        Statement.invocations =
      upperInvocations fallback l := by
  unfold layerStatements upperInvocations
  rw [List.flatMap_cons, List.flatMap_append, invocations_filterChain]
  rfl

theorem invocations_upperStatements :
    ∀ (below : Buffer) (layers : List Layer),
      (upperStatements catalog fallback below layers).flatMap
          Statement.invocations =
        layers.flatMap (upperInvocations fallback)
  | _, [] => rfl
  | below, l :: rest => by
    rw [upperStatements, List.flatMap_append, List.flatMap_cons,
      invocations_layerStatements, invocations_upperStatements]

/-! ## The stack -/

/-- The invocations of visible layers. -/
def stackInvocations : List Layer → List Invocation
  | [] => [{ effect := EffectId.solid, role := .blank }]
  | base :: rest =>
    baseInvocations fallback base ++ rest.flatMap (upperInvocations fallback)

theorem invocations_stackStatements (visible : List Layer) :
    (stackStatements catalog fallback visible).flatMap
        Statement.invocations =
      stackInvocations fallback visible := by
  cases visible with
  | nil => rfl
  | cons base rest =>
    rw [stackStatements, List.flatMap_append, invocations_baseStatements,
      invocations_upperStatements]
    rfl

/-- What the program of a stack invokes. -/
theorem invocations_ofLayers (layers : List Layer) :
    (ofLayers catalog fallback layers).invocations =
      stackInvocations fallback (layers.filter (·.visible)) :=
  invocations_stackStatements catalog fallback _

/-! ## Identities -/

/-- The identities of a layer and of its visible child effects. -/
def shownIds (l : Layer) : List LayerId :=
  l.id :: l.visibleChildren.map (·.id)

/-- The visible layers that are blended onto something. -/
def blendedLayers : List Layer → List Layer
  | [] => []
  | base :: rest => if IsFlat fallback base then rest else base :: rest

theorem shownIds_sublist (l : Layer) : (shownIds l).Sublist l.ids :=
  (List.filter_sublist.map _).cons_cons _

theorem blendedLayers_sublist (visible : List Layer) :
    (blendedLayers fallback visible).Sublist visible := by
  cases visible with
  | nil => exact List.Sublist.slnil
  | cons base rest =>
    by_cases flat : IsFlat fallback base
    · rw [blendedLayers, if_pos flat]
      exact List.sublist_cons_self base rest
    · rw [blendedLayers, if_neg flat]

theorem shown_contentInvocations (l : Layer) :
    (contentInvocations fallback l).filterMap (·.role.shown?) =
      shownIds l := by
  simp [contentInvocations, shownIds, Role.shown?, childInvocation,
    Function.comp_def]

theorem blended_contentInvocations (l : Layer) :
    (contentInvocations fallback l).filterMap (·.role.blended?) = [] := by
  simp [contentInvocations, Role.blended?, childInvocation]

/-- The content of a program is that of the visible layers. -/
theorem shown_ofLayers (layers : List Layer) :
    (ofLayers catalog fallback layers).invocations.filterMap
        (·.role.shown?) =
      (layers.filter (·.visible)).flatMap shownIds := by
  have upper : ∀ l, (upperInvocations fallback l).filterMap
      (·.role.shown?) = shownIds l := by
    intro l
    rw [upperInvocations, List.filterMap_append, shown_contentInvocations]
    exact List.append_nil _
  rw [invocations_ofLayers]
  cases layers.filter (·.visible) with
  | nil => rfl
  | cons base rest =>
    rw [stackInvocations, List.filterMap_append, List.filterMap_flatMap,
      List.flatMap_cons, List.flatMap_congr fun l _ => upper l]
    congr 1
    unfold baseInvocations
    split
    · exact shown_contentInvocations fallback base
    · exact shown_contentInvocations fallback base

/-- The blends of a program are those of all visible layers but a flat
base. -/
theorem blended_ofLayers (layers : List Layer) :
    (ofLayers catalog fallback layers).invocations.filterMap
        (·.role.blended?) =
      (blendedLayers fallback (layers.filter (·.visible))).map (·.id) := by
  have upper : ∀ l, (upperInvocations fallback l).filterMap
      (·.role.blended?) = [l.id] := by
    intro l
    rw [upperInvocations, List.filterMap_append, blended_contentInvocations]
    rfl
  rw [invocations_ofLayers]
  cases layers.filter (·.visible) with
  | nil => rfl
  | cons base rest =>
    rw [stackInvocations, List.filterMap_append, List.filterMap_flatMap,
      List.flatMap_congr fun l _ => upper l, ← List.map_eq_flatMap]
    by_cases flat : IsFlat fallback base
    · rw [baseInvocations, blendedLayers, if_pos flat, if_pos flat,
        blended_contentInvocations, List.nil_append]
    · rw [baseInvocations, blendedLayers, if_neg flat, if_neg flat]
      show base.id :: (contentInvocations fallback base).filterMap
        (·.role.blended?) ++ rest.map (·.id) = _
      rw [blended_contentInvocations]
      rfl

/-- There is a backdrop exactly under a visible base that is not flat. -/
theorem baseHasBlend_ofLayers (layers : List Layer) :
    (ofLayers catalog fallback layers).baseHasBlend = true ↔
      ∃ base, (layers.filter (·.visible)).head? = some base ∧
        ¬ IsFlat fallback base := by
  have content : ∀ l, (contentInvocations fallback l).any
      (fun inv => inv.role = .backdrop) = false := by
    simp [contentInvocations, childInvocation]
  have upper : ∀ l, (upperInvocations fallback l).any
      (fun inv => inv.role = .backdrop) = false := by
    intro l
    rw [upperInvocations, List.any_append, content]
    rfl
  unfold baseHasBlend
  rw [invocations_ofLayers]
  cases layers.filter (·.visible) with
  | nil => simp [stackInvocations]
  | cons base rest =>
    have above : (rest.flatMap (upperInvocations fallback)).any
        (fun inv => inv.role = .backdrop) = false := by
      simp [List.any_flatMap, upper]
    rw [stackInvocations, List.any_append, above, Bool.or_false]
    by_cases flat : IsFlat fallback base
    · rw [baseInvocations, if_pos flat, content]
      simp [flat]
    · rw [baseInvocations, if_neg flat]
      simp [flat]

end

end Program

/-! ## Skeletons -/

/-- A child effect of a skeleton and with nothing else to it. -/
def ChildSkeleton.child (c : ChildSkeleton) : ChildEffect :=
  { id := c.id, effect := c.effect, visible := c.visible }

/-- A layer of a skeleton and with nothing else to it. -/
def LayerSkeleton.layer (l : LayerSkeleton) : Layer :=
  { id := l.id
    visible := l.visible
    source := l.source
    blendMode := l.blendMode
    children := l.children.map ChildSkeleton.child }

namespace Program

theorem contentInvocations_skeleton (fallback : EffectId) (l : Layer) :
    contentInvocations fallback l.skeleton.layer =
      contentInvocations fallback l := by
  have children : l.skeleton.layer.visibleChildren.map
      (childInvocation l.skeleton.layer) =
        l.visibleChildren.map (childInvocation l) := by
    simp only [Layer.visibleChildren, Layer.skeleton, LayerSkeleton.layer,
      List.map_map, List.filter_map]
    rfl
  rw [contentInvocations, children]
  rfl

theorem stackInvocations_skeleton (fallback : EffectId)
    (visible : List Layer) :
    stackInvocations fallback (visible.map fun l => l.skeleton.layer) =
      stackInvocations fallback visible := by
  have base : ∀ l : Layer, baseInvocations fallback l.skeleton.layer =
      baseInvocations fallback l := by
    intro l
    unfold baseInvocations
    rw [contentInvocations_skeleton]
    rfl
  have upper : ∀ l : Layer, upperInvocations fallback l.skeleton.layer =
      upperInvocations fallback l := by
    intro l
    unfold upperInvocations
    rw [contentInvocations_skeleton]
    rfl
  cases visible with
  | nil => rfl
  | cons l rest =>
    rw [List.map_cons, stackInvocations, stackInvocations, base,
      List.flatMap_map]
    simp only [upper]

/-- Layers of one skeleton have programs with the same invocations. -/
theorem invocations_of_skeleton_eq (catalog : Catalog) (fallback : EffectId)
    {a b : List Layer} (h : skeleton a = skeleton b) :
    (ofLayers catalog fallback a).invocations =
      (ofLayers catalog fallback b).invocations := by
  have view : ∀ layers : List Layer,
      (ofLayers catalog fallback layers).invocations =
        stackInvocations fallback
          (((skeleton layers).filter (·.visible)).map
            LayerSkeleton.layer) := by
    intro layers
    rw [invocations_ofLayers, ← stackInvocations_skeleton, skeleton,
      List.filter_map, List.map_map]
    rfl
  rw [view a, view b, h]

end Program

end Compositing
