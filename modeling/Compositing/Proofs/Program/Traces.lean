/-
Compositing.Proofs.Program.Traces — what of layers shows in a program.

A program is made from what `Twins` compares of the visible layers, and
from the blend modes of those that are blended (`ofLayers_congr`). So
hidden layers and child effects leave no trace; neither do names and
locks, the offset of what is not moved, the blend mode of a flat base,
and whether an effect is named or left to the fallback
(`ofLayers_traceless`).
-/
import Compositing.Proofs.Program.Invocations
import Compositing.Proofs.Program.Renaming
import Mathlib.Data.List.Forall2

namespace Compositing

namespace Program

variable (catalog : Catalog) (fallback : EffectId)

/-! ## Layers that differ in nothing a program shows -/

/-- Layers that a program shows alike, up to how they are blended. -/
structure Twins (l l' : Layer) : Prop where
  id : l'.id = l.id
  visible : l'.visible = l.visible
  effect : l'.effectOr fallback = l.effectOr fallback
  params : l'.params = l.params
  opacity : l'.opacity = l.opacity
  children : l'.visibleChildren = l.visibleChildren
  offset : (catalog.classify (l.effectOr fallback)).hasOffset = true →
    l'.offset = l.offset

variable {catalog fallback} {l l' : Layer}

theorem Twins.isFlat_iff (twins : Twins catalog fallback l l') :
    IsFlat fallback l' ↔ IsFlat fallback l := by
  rw [IsFlat, IsFlat, twins.effect]

theorem filterChain_congr (id : l'.id = l.id) :
    ∀ (b : Buffer) (children : List ChildEffect),
      filterChain l' b children = filterChain l b children
  | _, [] => rfl
  | b, c :: rest => by
    rw [filterChain, filterChain, filterChain_congr id (b + 1) rest,
      childCall, childCall, id]

theorem mixOf_congr (twins : Twins catalog fallback l l')
    (mode : l'.blendMode = l.blendMode) : mixOf l' = mixOf l := by
  rw [mixOf, mixOf, twins.id, twins.opacity, mode]

theorem layerCall_congr (twins : Twins catalog fallback l l') :
    layerCall catalog fallback l' = layerCall catalog fallback l := by
  unfold layerCall layerParams
  dsimp only
  rw [twins.id, twins.effect, twins.params]
  by_cases moves :
      (catalog.classify (l.effectOr fallback)).hasOffset = true
  · rw [twins.offset moves]
  · rw [if_neg moves, if_neg moves]

theorem layerInput_congr (twins : Twins catalog fallback l l')
    (below : Buffer) :
    layerInput catalog fallback below l' =
      layerInput catalog fallback below l := by
  rw [layerInput, layerInput, twins.effect]

theorem baseStatements_congr (twins : Twins catalog fallback l l')
    (mode : ¬ IsFlat fallback l → l'.blendMode = l.blendMode) :
    baseStatements catalog fallback l' =
      baseStatements catalog fallback l := by
  have call : childCall l' = childCall l := by
    funext c
    rw [childCall, childCall, twins.id]
  unfold baseStatements
  dsimp only
  rw [twins.effect, twins.children, filterChain_congr twins.id]
  by_cases flat : IsFlat fallback l
  · have solid := (classify_eq_solid_iff catalog _).mpr flat
    rw [if_pos solid, if_pos solid, twins.id, bakedParams, bakedParams,
      Layer.bakedAlpha, Layer.bakedAlpha, twins.params, twins.opacity]
  · have other := mt (classify_eq_solid_iff catalog _).mp flat
    rw [if_neg other, if_neg other, layerInput_congr twins,
      layerCall_congr twins, mixOf_congr twins (mode flat), call]

theorem layerStatements_congr (twins : Twins catalog fallback l l')
    (mode : l'.blendMode = l.blendMode) (below : Buffer) :
    layerStatements catalog fallback below l' =
      layerStatements catalog fallback below l := by
  unfold layerStatements
  dsimp only
  rw [twins.children, filterChain_congr twins.id, layerInput_congr twins,
    layerCall_congr twins, mixOf_congr twins mode]

theorem layerNamespaces_congr (twins : Twins catalog fallback l l') :
    layerNamespaces fallback l' = layerNamespaces fallback l := by
  rw [layerNamespaces, layerNamespaces, twins.effect, twins.children]

/-! ## Stacks -/

variable {visible visible' layers layers' : List Layer}

theorem upperStatements_congr
    (twins : List.Forall₂ (Twins catalog fallback) visible visible')
    (modes : visible'.map (·.blendMode) = visible.map (·.blendMode)) :
    ∀ below : Buffer,
      upperStatements catalog fallback below visible' =
        upperStatements catalog fallback below visible := by
  induction twins with
  | nil => exact fun _ => rfl
  | cons twins _ ih =>
    intro below
    obtain ⟨mode, modes⟩ := List.cons.inj modes
    rw [upperStatements, upperStatements, layerStatements_congr twins mode,
      ih modes]

theorem stackStatements_congr
    (twins : List.Forall₂ (Twins catalog fallback) visible visible')
    (modes : (blendedLayers fallback visible').map (·.blendMode) =
      (blendedLayers fallback visible).map (·.blendMode)) :
    stackStatements catalog fallback visible' =
      stackStatements catalog fallback visible := by
  cases twins with
  | nil => rfl
  | @cons base base' rest rest' twins above =>
    rw [stackStatements, stackStatements]
    by_cases flat : IsFlat fallback base
    · rw [blendedLayers, blendedLayers, if_pos flat,
        if_pos (twins.isFlat_iff.mpr flat)] at modes
      rw [baseStatements_congr twins fun other => absurd flat other,
        upperStatements_congr above modes]
    · rw [blendedLayers, blendedLayers, if_neg flat,
        if_neg (mt twins.isFlat_iff.mp flat)] at modes
      obtain ⟨mode, modes⟩ := List.cons.inj modes
      rw [baseStatements_congr twins fun _ => mode,
        upperStatements_congr above modes]

/-- Twins of equal modes are blended in equal modes. -/
theorem blendedModes_congr
    (twins : List.Forall₂ (Twins catalog fallback) visible visible')
    (modes : visible'.map (·.blendMode) = visible.map (·.blendMode)) :
    (blendedLayers fallback visible').map (·.blendMode) =
      (blendedLayers fallback visible).map (·.blendMode) := by
  cases twins with
  | nil => rfl
  | @cons base base' rest rest' twins _ =>
    by_cases flat : IsFlat fallback base
    · rw [blendedLayers, blendedLayers, if_pos flat,
        if_pos (twins.isFlat_iff.mpr flat)]
      exact (List.cons.inj modes).2
    · rw [blendedLayers, blendedLayers, if_neg flat,
        if_neg (mt twins.isFlat_iff.mp flat), modes]

/-- Twins of layers that are all visible are all visible. -/
theorem filter_eq_self_of_twins
    (twins : List.Forall₂ (Twins catalog fallback) layers layers')
    (shown : ∀ l ∈ layers, l.visible = true) :
    layers'.filter (·.visible) = layers' := by
  induction twins with
  | nil => rfl
  | @cons l l' _ _ twins _ ih =>
    obtain ⟨first, rest⟩ := List.forall_mem_cons.mp shown
    rw [List.filter_cons_of_pos (twins.visible.trans first), ih rest]

theorem usedNamespaces_congr
    (twins : List.Forall₂ (Twins catalog fallback) visible visible') :
    usedNamespaces fallback visible' = usedNamespaces fallback visible := by
  have own : visible'.flatMap (layerNamespaces fallback) =
      visible.flatMap (layerNamespaces fallback) := by
    induction twins with
    | nil => rfl
    | cons twins _ ih =>
      rw [List.flatMap_cons, List.flatMap_cons, layerNamespaces_congr twins,
        ih]
  rw [usedNamespaces, usedNamespaces, own]

/-- A program depends on what twins have in common, and on the modes of
what is blended. -/
theorem ofLayers_congr
    (twins : List.Forall₂ (Twins catalog fallback)
      (layers.filter (·.visible)) (layers'.filter (·.visible)))
    (modes :
      (blendedLayers fallback (layers'.filter (·.visible))).map
          (·.blendMode) =
        (blendedLayers fallback (layers.filter (·.visible))).map
          (·.blendMode)) :
    ofLayers catalog fallback layers' = ofLayers catalog fallback layers := by
  unfold ofLayers
  dsimp only
  rw [stackStatements_congr twins modes, usedNamespaces_congr twins]

/-- Making twins of all layers, in equal modes, leaves the program as it
is. -/
theorem ofLayers_map {f : Layer → Layer}
    (twins : ∀ l, Twins catalog fallback l (f l))
    (mode : ∀ l, (f l).blendMode = l.blendMode) (layers : List Layer) :
    ofLayers catalog fallback (layers.map f) =
      ofLayers catalog fallback layers := by
  have shown : (layers.map f).filter (·.visible) =
      (layers.filter (·.visible)).map f := by
    rw [List.filter_map]
    exact congrArg _ (List.filter_congr fun l _ => (twins l).visible)
  have all : List.Forall₂ (Twins catalog fallback)
      (layers.filter (·.visible)) ((layers.filter (·.visible)).map f) :=
    List.forall₂_map_right_iff.mpr
      (List.forall₂_same.mpr fun l _ => twins l)
  refine ofLayers_congr (shown.symm ▸ all) ?_
  rw [shown]
  refine blendedModes_congr all ?_
  rw [List.map_map]
  exact List.map_congr_left fun l _ => mode l

/-- Deleting hidden layers leaves the program as it is. -/
theorem ofLayers_filter (layers : List Layer) :
    ofLayers catalog fallback (layers.filter (·.visible)) =
      ofLayers catalog fallback layers := by
  unfold ofLayers
  dsimp only
  rw [List.filter_filter]
  simp only [Bool.and_self]

end Program

/-! ## Pruning -/

/-- What the layer shows, with its effect named. -/
def LayerSource.resolved (fallback : EffectId) : LayerSource → LayerSource
  | .media reference kind => .media reference kind
  | .effect named? => .effect (some (named?.getD fallback))

/-- The layer without its hidden child effects and with its effect
named. -/
def Layer.pruned (fallback : EffectId) (l : Layer) : Layer :=
  { l with
    source := l.source.resolved fallback
    children := l.visibleChildren }

/-- The visible layers without their hidden child effects and with their
effects named. -/
def pruned (fallback : EffectId) (layers : List Layer) : List Layer :=
  (layers.filter (·.visible)).map (·.pruned fallback)

theorem Layer.effectOr_pruned (fallback : EffectId) (l : Layer) :
    (l.pruned fallback).effectOr fallback = l.effectOr fallback := by
  unfold effectOr pruned
  cases l.source with
  | media reference kind => rfl
  | effect effect => cases effect <;> rfl

theorem Layer.visibleChildren_pruned (fallback : EffectId) (l : Layer) :
    (l.pruned fallback).visibleChildren = l.visibleChildren := by
  show (l.children.filter (·.visible)).filter (·.visible) = _
  rw [List.filter_filter]
  simp only [Bool.and_self]
  rfl

namespace Program

/-! ## Retouching -/

variable (catalog : Catalog) (fallback : EffectId)

/-- The second layer is the first with another name and lock, and with
another offset if nothing is moved by it. -/
inductive Retouch : Layer → Layer → Prop where
  | intro (l : Layer) (name : String) (locked : Bool) (offset : Offset)
    (still : (catalog.classify (l.effectOr fallback)).hasOffset = true →
      offset = l.offset) :
    Retouch l { l with name := name, locked := locked, offset := offset }

/-- The layers are retouched one by one; a flat first one may have another
blend mode as well. -/
inductive Retouched : List Layer → List Layer → Prop where
  | empty : Retouched [] []
  | flat {base base' : Layer} {rest rest' : List Layer} (mode : BlendMode) :
    IsFlat fallback base → Retouch catalog fallback base base' →
      List.Forall₂ (Retouch catalog fallback) rest rest' →
        Retouched (base :: rest) ({ base' with blendMode := mode } :: rest')
  | blended {base base' : Layer} {rest rest' : List Layer} :
    Retouch catalog fallback base base' →
      List.Forall₂ (Retouch catalog fallback) rest rest' →
        Retouched (base :: rest) (base' :: rest')

/-- What leaves no trace in the program of layers, and what only labels
it. -/
structure Traceless (layers : List Layer) : Prop where
  /-- Deleting what is hidden, naming the fallback and retouching what is
  left changes nothing. -/
  retouched : ∀ layers',
    Retouched catalog fallback (pruned fallback layers) layers' →
      ofLayers catalog fallback layers' = ofLayers catalog fallback layers
  /-- Other identities show in the roles only. -/
  text : ∀ f : LayerId → LayerId,
    (ofLayers catalog fallback (layers.map (·.renamed f))).text =
      (ofLayers catalog fallback layers).text
  output : ∀ f : LayerId → LayerId,
    (ofLayers catalog fallback (layers.map (·.renamed f))).output =
      (ofLayers catalog fallback layers).output
  bufferCount : ∀ f : LayerId → LayerId,
    (ofLayers catalog fallback (layers.map (·.renamed f))).bufferCount =
      (ofLayers catalog fallback layers).bufferCount
  invocations : ∀ f : LayerId → LayerId,
    (ofLayers catalog fallback (layers.map (·.renamed f))).invocations =
      (ofLayers catalog fallback layers).invocations.map (·.renamed f)

variable {catalog fallback} {l l' : Layer} {layers layers' : List Layer}

theorem twins_pruned (l : Layer) :
    Twins catalog fallback l (l.pruned fallback) where
  id := rfl
  visible := rfl
  effect := l.effectOr_pruned fallback
  params := rfl
  opacity := rfl
  children := l.visibleChildren_pruned fallback
  offset _ := rfl

/-- Pruned layers are all visible. -/
theorem visible_of_mem_pruned (mem : l ∈ pruned fallback layers) :
    l.visible = true := by
  obtain ⟨l, shown, rfl⟩ := List.mem_map.mp mem
  exact (List.mem_filter.mp shown).2

/-- Pruning leaves the program as it is. -/
theorem ofLayers_pruned (catalog : Catalog) (fallback : EffectId)
    (layers : List Layer) :
    ofLayers catalog fallback (pruned fallback layers) =
      ofLayers catalog fallback layers :=
  (ofLayers_map twins_pruned (fun _ => rfl) _).trans (ofLayers_filter layers)

theorem Retouch.twins (retouch : Retouch catalog fallback l l') :
    Twins catalog fallback l l' := by
  obtain ⟨name, locked, offset, still⟩ := retouch
  exact ⟨rfl, rfl, rfl, rfl, rfl, rfl, still⟩

theorem blendMode_eq_of_retouch
    (all : List.Forall₂ (Retouch catalog fallback) layers layers') :
    layers'.map (·.blendMode) = layers.map (·.blendMode) := by
  induction all with
  | nil => rfl
  | cons retouch _ ih =>
    cases retouch
    rw [List.map_cons, List.map_cons, ih]

/-- Retouched layers are twins. -/
theorem Retouched.twins (h : Retouched catalog fallback layers layers') :
    List.Forall₂ (Twins catalog fallback) layers layers' := by
  cases h with
  | empty => exact .nil
  | blended base above =>
    exact .cons base.twins (above.imp fun _ _ => Retouch.twins)
  | flat mode _ base above =>
    -- Twins do not compare blend modes.
    obtain ⟨id, visible, effect, params, opacity, children, offset⟩ :=
      base.twins
    exact .cons ⟨id, visible, effect, params, opacity, children, offset⟩
      (above.imp fun _ _ => Retouch.twins)

/-- What is blended keeps its mode. -/
theorem Retouched.blendedModes_eq
    (h : Retouched catalog fallback layers layers') :
    (blendedLayers fallback layers').map (·.blendMode) =
      (blendedLayers fallback layers).map (·.blendMode) := by
  cases h with
  | empty => rfl
  | blended base above =>
    exact blendedModes_congr
      (.cons base.twins (above.imp fun _ _ => Retouch.twins))
      (blendMode_eq_of_retouch (.cons base above))
  | @flat base base' rest rest' mode flat retouch above =>
    have flat' : IsFlat fallback { base' with blendMode := mode } :=
      retouch.twins.effect.trans flat
    rw [blendedLayers, blendedLayers, if_pos flat, if_pos flat',
      blendMode_eq_of_retouch above]

/-- What is hidden, names, locks, idle offsets, the mode of a flat base and
the choice of the fallback leave no trace; identities only label. -/
theorem ofLayers_traceless (catalog : Catalog) (fallback : EffectId)
    (layers : List Layer) : Traceless catalog fallback layers where
  retouched layers' retouched := by
    have twins := retouched.twins
    have shown : (pruned fallback layers).filter (·.visible) =
        pruned fallback layers :=
      List.filter_eq_self.mpr fun _ => visible_of_mem_pruned
    have shown' : layers'.filter (·.visible) = layers' :=
      filter_eq_self_of_twins twins fun _ => visible_of_mem_pruned
    rw [← ofLayers_pruned catalog fallback layers]
    refine ofLayers_congr ?_ ?_
    · rwa [shown, shown']
    · rw [shown, shown']
      exact retouched.blendedModes_eq
  text f := by
    rw [ofLayers_renamed, text_renamed]
  output f := by
    rw [ofLayers_renamed]
    rfl
  bufferCount f := by
    rw [ofLayers_renamed, bufferCount_renamed]
  invocations f := by
    rw [ofLayers_renamed, invocations_renamed]

/-- A hidden layer under a flat one that has a hidden filter, and noise by
default. -/
theorem ofLayers_traceless_of_hidden_base :
    let catalog : Catalog := { manifest := {}, generatorNamespaces := [] }
    let layers : List Layer :=
      [{ id := .ofNat 1, visible := false
         source := .media "a.png" .image },
        { id := .ofNat 2, name := "sky"
          source := .effect (some EffectId.solid)
          children :=
            [{ id := .ofNat 3, effect := EffectId.blend, visible := false },
              { id := .ofNat 4, effect := EffectId.blend }] },
        { id := .ofNat 5, source := .effect none }]
    let layers' : List Layer :=
      [{ id := .ofNat 2, name := "sea", blendMode := .screen, locked := true
         source := .effect (some EffectId.solid)
         children := [{ id := .ofNat 4, effect := EffectId.blend }] },
        { id := .ofNat 5, offset := { x := 3.0, y := 4.0 }
          source := .effect (some EffectId.noise) }]
    Retouched catalog EffectId.noise (pruned EffectId.noise layers)
        layers' ∧
      ofLayers catalog EffectId.noise layers' =
        ofLayers catalog EffectId.noise layers ∧
      (ofLayers catalog EffectId.noise
          (layers.map (·.renamed fun _ => .ofNat 9))).text =
        (ofLayers catalog EffectId.noise layers).text := by
  intro catalog layers layers'
  have retouched : Retouched catalog EffectId.noise
      (pruned EffectId.noise layers) layers' := by
    refine .flat .screen ?_ (.intro _ "sea" true Offset.zero fun _ => rfl)
      (.cons (.intro _ "" false _ fun moves => ?_) .nil)
    · exact rfl
    · exact absurd moves (by decide +kernel)
  have traceless := ofLayers_traceless catalog EffectId.noise layers
  exact ⟨retouched, traceless.retouched layers' retouched,
    traceless.text fun _ => .ofNat 9⟩

end Program

end Compositing
