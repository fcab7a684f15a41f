/-
Compositing.Proofs.Pipeline.Positional — the step map of a program that
was laid out in order.

The identities of a program's content are distinct when those of the
layers are, and so are those of its blends. Over a graph with one pass
per invocation, in order, the step map therefore holds for every
invocation exactly the step at its position (`build_positional`).
-/
import Compositing.Proofs.Layer.Stackable
import Compositing.Proofs.Pipeline.Occurrence
import Mathlib.Algebra.GroupWithZero.Nat

namespace Compositing.StepMap

/-- The graph has one pass per invocation, in order, each with a step of
its own. -/
structure LaidOut (p : Program) (g : PipelineGraph) : Prop where
  effects : g.passes.map (·.effect) = p.invocations.map (·.effect)
  steps : (g.passes.map (·.step)).Nodup

theorem LaidOut.length_eq {p : Program} {g : PipelineGraph}
    (h : LaidOut p g) : g.passes.length = p.invocations.length := by
  have := congrArg List.length h.effects
  rwa [List.length_map, List.length_map] at this

/-- An invocation and the pass at its position run one effect. -/
theorem LaidOut.effect_eq {p : Program} {g : PipelineGraph}
    (h : LaidOut p g) {k : Nat} {inv : Invocation} {pass : Pass}
    (at_inv : p.invocations[k]? = some inv)
    (at_pass : g.passes[k]? = some pass) : pass.effect = inv.effect := by
  have both := congrArg (·[k]?) h.effects
  simp only [List.getElem?_map, at_pass, at_inv, Option.map_some] at both
  exact Option.some.inj both

/-- Every invocation has a pass at its position. -/
theorem LaidOut.exists_pass {p : Program} {g : PipelineGraph}
    (h : LaidOut p g) {k : Nat} {inv : Invocation}
    (at_inv : p.invocations[k]? = some inv) :
    ∃ pass, g.passes[k]? = some pass := by
  have lt := (List.getElem?_eq_some_iff.mp at_inv).1
  rw [← h.length_eq] at lt
  exact ⟨_, List.getElem?_eq_getElem lt⟩

/-- A laid out program is bound position by position. -/
theorem LaidOut.build_eq {p : Program} {g : PipelineGraph}
    (h : LaidOut p g) :
    build p g =
      bindEach { baseHasBlend := p.baseHasBlend } p.invocations g.passes :=
  bindAll_eq_bindEach _ (List.nil_append _).symm h.effects (List.Perm.refl _)

theorem LaidOut.step?_eq {p : Program} {g : PipelineGraph}
    (h : LaidOut p g) (id : LayerId) :
    (build p g).step? id = Assoc.get? id
      (Assoc.ofList (bound Role.shown? p.invocations g.passes)) := by
  rw [h.build_eq, step?, steps_bindEach]
  rfl

theorem LaidOut.blendStep?_eq {p : Program} {g : PipelineGraph}
    (h : LaidOut p g) (id : LayerId) :
    (build p g).blendStep? id = Assoc.get? id
      (Assoc.ofList (bound Role.blended? p.invocations g.passes)) := by
  rw [h.build_eq, blendStep?, blendSteps_bindEach]
  rfl

theorem LaidOut.baseHasBlend_eq {p : Program} {g : PipelineGraph}
    (h : LaidOut p g) : (build p g).baseHasBlend = p.baseHasBlend := by
  rw [h.build_eq, baseHasBlend_bindEach]

/-- Two positions of one step are one position. -/
theorem LaidOut.position_eq {p : Program} {g : PipelineGraph}
    (h : LaidOut p g) {j k : Nat} {a b : Pass}
    (at_j : g.passes[j]? = some a) (at_k : g.passes[k]? = some b)
    (step : a.step = b.step) : j = k := by
  have lt : j < (g.passes.map (·.step)).length := by
    rw [List.length_map]
    exact (List.getElem?_eq_some_iff.mp at_j).1
  refine (List.getElem?_inj lt h.steps).mp ?_
  rw [List.getElem?_map, List.getElem?_map, at_j, at_k]
  exact congrArg some step

/-- Among distinct identities, those of a view are found at exactly the
positions at which the view has them. -/
theorem LaidOut.get?_bound_iff {p : Program} {g : PipelineGraph}
    (h : LaidOut p g) {view : Role → Option LayerId}
    (nodup : (p.invocations.filterMap (view ·.role)).Nodup)
    {k : Nat} {inv : Invocation} {pass : Pass}
    (at_inv : p.invocations[k]? = some inv)
    (at_pass : g.passes[k]? = some pass) (id : LayerId) :
    Assoc.get? id (Assoc.ofList (bound view p.invocations g.passes)) =
        some pass.step ↔
      view inv.role = some id := by
  rw [Assoc.get?_ofList_eq_some_iff, mem_bound]
  · constructor
    · rintro ⟨j, inv', pass', at_inv', at_pass', found, step⟩
      obtain rfl := h.position_eq at_pass' at_pass step
      rw [at_inv] at at_inv'
      cases at_inv'
      exact found
    · intro found
      exact ⟨k, inv, pass, at_inv, at_pass, found, rfl⟩
  · rwa [map_fst_bound view h.length_eq]

/-- The identities that are found are those of the view. -/
theorem LaidOut.isSome_get?_bound_iff {p : Program} {g : PipelineGraph}
    (h : LaidOut p g) {view : Role → Option LayerId}
    (nodup : (p.invocations.filterMap (view ·.role)).Nodup)
    (id : LayerId) :
    (Assoc.get? id
        (Assoc.ofList (bound view p.invocations g.passes))).isSome = true ↔
      id ∈ p.invocations.filterMap (view ·.role) := by
  have keys := map_fst_bound view h.length_eq
  rw [Assoc.get?_ofList id (keys ▸ nodup), ← keys, Option.isSome_iff_ne_none,
    ne_eq, Assoc.get?_eq_none_iff, not_not]

/-- A step that is found is that of a pass. -/
theorem LaidOut.mem_of_get?_bound {p : Program} {g : PipelineGraph}
    (h : LaidOut p g) {view : Role → Option LayerId}
    (nodup : (p.invocations.filterMap (view ·.role)).Nodup)
    {id : LayerId} {step : Nat}
    (found : Assoc.get? id
      (Assoc.ofList (bound view p.invocations g.passes)) = some step) :
    step ∈ g.passes.map (·.step) := by
  rw [← map_fst_bound view h.length_eq] at nodup
  rw [Assoc.get?_ofList_eq_some_iff nodup, mem_bound] at found
  obtain ⟨k, inv, pass, -, at_pass, -, rfl⟩ := found
  exact List.mem_map_of_mem (List.mem_of_getElem? at_pass)

/-! ## Stacks -/

/-- The step map of the program of `layers` holds for every invocation the
step at its position, and nothing else. -/
structure Positional (fallback : EffectId) (layers : List Layer)
    (p : Program) (g : PipelineGraph) (m : StepMap) : Prop where
  /-- A content's own step is the one at its position. -/
  step_iff : ∀ {k : Nat} {inv : Invocation} {pass : Pass},
    p.invocations[k]? = some inv → g.passes[k]? = some pass →
      ∀ id, m.step? id = some pass.step ↔
        inv.role = .layer id ∨ ∃ owner, inv.role = .child owner id
  /-- A blend's step is the one at its position. -/
  blendStep_iff : ∀ {k : Nat} {inv : Invocation} {pass : Pass},
    p.invocations[k]? = some inv → g.passes[k]? = some pass →
      ∀ id, m.blendStep? id = some pass.step ↔ inv.role = .blend id
  /-- Every step that is mapped is that of a pass. -/
  step_mem : ∀ {id : LayerId} {step : Nat},
    m.step? id = some step ∨ m.blendStep? id = some step →
      step ∈ g.passes.map (·.step)
  /-- Visible layers and their visible child effects have a step. -/
  shown_iff : ∀ id, (m.step? id).isSome = true ↔
    ∃ l ∈ layers, l.visible = true ∧
      (l.id = id ∨ ∃ c ∈ l.children, c.visible = true ∧ c.id = id)
  size_eq : m.size = ((layers.filter (·.visible)).map fun l =>
    1 + l.visibleChildren.length).sum
  hidden : ∀ l ∈ layers, l.visible = false →
    m.step? l.id = none ∧ m.blendStep? l.id = none
  hidden_child : ∀ l ∈ layers, ∀ c ∈ l.children,
    l.visible = false ∨ c.visible = false →
      m.step? c.id = none ∧ m.blendStep? c.id = none
  /-- All visible layers are blended but a flat base. -/
  blended_iff : ∀ id, (m.blendStep? id).isSome = true ↔
    ∃ l ∈ layers, l.id = id ∧ l.visible = true ∧
      ¬ ((layers.filter (·.visible)).head? = some l ∧
        l.effectOr fallback = EffectId.solid)
  baseHasBlend_iff : m.baseHasBlend = true ↔
    ∃ base, (layers.filter (·.visible)).head? = some base ∧
      base.effectOr fallback ≠ EffectId.solid

/-- What is visible has distinct identities. -/
theorem nodup_shownIds {layers : List Layer}
    (distinct : (layers.flatMap Layer.ids).Nodup) :
    ((layers.filter (·.visible)).flatMap Program.shownIds).Nodup := by
  have visible : ((layers.filter (·.visible)).flatMap Layer.ids).Nodup :=
    distinct.sublist (List.filter_sublist.flatMap Layer.ids)
  refine visible.sublist ?_
  exact List.Sublist.flatMap_right _ fun l _ => Program.shownIds_sublist l

section

variable (catalog : Catalog) (fallback : EffectId) {layers : List Layer}
  (distinct : (layers.flatMap Layer.ids).Nodup)

include distinct

/-- The content of a program has distinct identities. -/
theorem nodup_shown :
    ((Program.ofLayers catalog fallback layers).invocations.filterMap
      (·.role.shown?)).Nodup := by
  rw [Program.shown_ofLayers]
  exact nodup_shownIds distinct

/-- The blends of a program have distinct identities. -/
theorem nodup_blended :
    ((Program.ofLayers catalog fallback layers).invocations.filterMap
      (·.role.blended?)).Nodup := by
  rw [Program.blended_ofLayers]
  refine (distinct.sublist (map_id_sublist_ids layers)).sublist ?_
  exact ((Program.blendedLayers_sublist fallback _).trans
    List.filter_sublist).map _

end

theorem mem_shown_iff {layers : List Layer} {id : LayerId} :
    id ∈ (layers.filter (·.visible)).flatMap Program.shownIds ↔
      ∃ l ∈ layers, l.visible = true ∧
        (l.id = id ∨ ∃ c ∈ l.children, c.visible = true ∧ c.id = id) := by
  simp only [List.mem_flatMap, List.mem_filter, Program.shownIds,
    Layer.visibleChildren, List.mem_cons, List.mem_map, eq_comm (a := id),
    and_assoc]

/-- The blended layers are those that are visible and no flat base. -/
theorem mem_blendedLayers_iff {fallback : EffectId} {layers : List Layer}
    (distinct : (layers.flatMap Layer.ids).Nodup) {l : Layer} :
    l ∈ Program.blendedLayers fallback (layers.filter (·.visible)) ↔
      l ∈ layers ∧ l.visible = true ∧
        ¬ ((layers.filter (·.visible)).head? = some l ∧
          l.effectOr fallback = EffectId.solid) := by
  have nodup : ((layers.filter (·.visible)).map (·.id)).Nodup :=
    (distinct.sublist (map_id_sublist_ids layers)).sublist
      (List.filter_sublist.map _)
  rw [← and_assoc, ← List.mem_filter]
  generalize layers.filter (·.visible) = visible at nodup ⊢
  cases visible with
  | nil => simp [Program.blendedLayers]
  | cons base rest =>
    simp only [List.map_cons, List.nodup_cons] at nodup
    have new : base ∉ rest := fun mem =>
      nodup.1 (List.mem_map_of_mem mem)
    by_cases flat : Program.IsFlat fallback base
    · rw [Program.blendedLayers, if_pos flat]
      simp only [List.mem_cons, List.head?_cons, Option.some.injEq]
      constructor
      · rintro mem
        exact ⟨.inr mem, fun h => new (h.1 ▸ mem)⟩
      · rintro ⟨rfl | mem, other⟩
        · exact absurd ⟨rfl, flat⟩ other
        · exact mem
    · rw [Program.blendedLayers, if_neg flat]
      simp only [List.mem_cons, List.head?_cons, Option.some.injEq]
      constructor
      · rintro mem
        exact ⟨mem, fun h => flat (h.1 ▸ h.2)⟩
      · exact And.left

section

variable {catalog : Catalog} {fallback : EffectId} {layers : List Layer}
  {g : PipelineGraph} (distinct : (layers.flatMap Layer.ids).Nodup)
  (laidOut : LaidOut (Program.ofLayers catalog fallback layers) g)

include distinct laidOut

theorem isSome_step?_iff (id : LayerId) :
    ((build (Program.ofLayers catalog fallback layers) g).step? id).isSome =
        true ↔
      ∃ l ∈ layers, l.visible = true ∧
        (l.id = id ∨ ∃ c ∈ l.children, c.visible = true ∧ c.id = id) := by
  have nodup := nodup_shown catalog fallback distinct
  rw [laidOut.step?_eq, laidOut.isSome_get?_bound_iff nodup,
    Program.shown_ofLayers, mem_shown_iff]

theorem isSome_blendStep?_iff (id : LayerId) :
    ((build (Program.ofLayers catalog fallback layers) g).blendStep?
        id).isSome = true ↔
      ∃ l ∈ layers, l.id = id ∧ l.visible = true ∧
        ¬ ((layers.filter (·.visible)).head? = some l ∧
          l.effectOr fallback = EffectId.solid) := by
  have nodup := nodup_blended catalog fallback distinct
  rw [laidOut.blendStep?_eq, laidOut.isSome_get?_bound_iff nodup,
    Program.blended_ofLayers, List.mem_map]
  simp only [mem_blendedLayers_iff distinct]
  constructor
  · rintro ⟨l, ⟨mem, visible, other⟩, eq⟩
    exact ⟨l, mem, eq, visible, other⟩
  · rintro ⟨l, mem, eq, visible, other⟩
    exact ⟨l, ⟨mem, visible, other⟩, eq⟩

/-- Nothing that a hidden layer owns has a step. -/
theorem step?_of_hidden {l : Layer} (mem : l ∈ layers) {id : LayerId}
    (own : id ∈ l.ids) (hidden : l.visible = false) :
    (build (Program.ofLayers catalog fallback layers) g).step? id =
      none := by
  by_contra found
  obtain ⟨l', mem', visible, owned⟩ :=
    (isSome_step?_iff distinct laidOut id).mp
      (Option.isSome_iff_ne_none.mpr found)
  have own' : id ∈ l'.ids := by
    rcases owned with rfl | ⟨c, mem_c, -, rfl⟩
    · exact id_mem_ids l'
    · exact child_id_mem_ids mem_c
  rw [eq_of_mem_ids distinct mem' mem own' own, hidden] at visible
  cases visible

/-- Hidden child effects have no step. -/
theorem step?_of_hidden_child {l : Layer} (mem : l ∈ layers)
    {c : ChildEffect} (mem_c : c ∈ l.children)
    (hidden : c.visible = false) :
    (build (Program.ofLayers catalog fallback layers) g).step? c.id =
      none := by
  by_contra found
  have own := child_id_mem_ids mem_c
  obtain ⟨l', mem', -, owned⟩ :=
    (isSome_step?_iff distinct laidOut c.id).mp
      (Option.isSome_iff_ne_none.mpr found)
  rcases owned with eq | ⟨c', mem_c', visible, eq⟩
  · obtain rfl := eq_of_mem_ids distinct mem mem' own (eq ▸ id_mem_ids l')
    exact id_ne_child_id distinct mem mem_c eq
  · obtain rfl :=
      eq_of_mem_ids distinct mem mem' own (eq ▸ child_id_mem_ids mem_c')
    rw [eq_of_child_id_eq distinct mem mem_c' mem_c eq, hidden] at visible
    cases visible

/-- What a layer owns has no blend, unless it is the visible layer
itself. -/
theorem blendStep?_eq_none {l : Layer} (mem : l ∈ layers) {id : LayerId}
    (own : id ∈ l.ids) (other : id = l.id → l.visible = false) :
    (build (Program.ofLayers catalog fallback layers) g).blendStep? id =
      none := by
  by_contra found
  obtain ⟨l', mem', rfl, visible, -⟩ :=
    (isSome_blendStep?_iff distinct laidOut id).mp
      (Option.isSome_iff_ne_none.mpr found)
  obtain rfl := eq_of_mem_ids distinct mem mem' own (id_mem_ids l')
  rw [other rfl] at visible
  cases visible

/-- As many steps are mapped as there are visible layers and child effects
of visible layers. -/
theorem size_build :
    (build (Program.ofLayers catalog fallback layers) g).size =
      ((layers.filter (·.visible)).map fun l =>
        1 + l.visibleChildren.length).sum := by
  have nodup := nodup_shown catalog fallback distinct
  have keys := map_fst_bound Role.shown? laidOut.length_eq
  have length := congrArg List.length keys
  rw [List.length_map, Program.shown_ofLayers, List.length_flatMap] at length
  rw [← keys] at nodup
  rw [laidOut.build_eq, size, steps_bindEach]
  refine (Assoc.length_ofList nodup).trans (length.trans ?_)
  simp only [Program.shownIds, List.length_cons, List.length_map, Nat.add_comm]

/-- A program of distinct identities that is laid out in order is mapped
by position. -/
theorem build_positional :
    Positional fallback layers (Program.ofLayers catalog fallback layers) g
      (build (Program.ofLayers catalog fallback layers) g) := by
  have nodup := nodup_shown catalog fallback distinct
  have nodup' := nodup_blended catalog fallback distinct
  refine ⟨?_, ?_, ?_, isSome_step?_iff distinct laidOut,
    size_build distinct laidOut, ?_, ?_, isSome_blendStep?_iff distinct laidOut,
    ?_⟩
  · intro k inv pass at_inv at_pass id
    rw [laidOut.step?_eq, laidOut.get?_bound_iff nodup at_inv at_pass,
      Role.shown?_eq_some_iff]
  · intro k inv pass at_inv at_pass id
    rw [laidOut.blendStep?_eq, laidOut.get?_bound_iff nodup' at_inv at_pass,
      Role.blended?_eq_some_iff]
  · rintro id step (found | found)
    · rw [laidOut.step?_eq] at found
      exact laidOut.mem_of_get?_bound nodup found
    · rw [laidOut.blendStep?_eq] at found
      exact laidOut.mem_of_get?_bound nodup' found
  · intro l mem hidden
    have own := id_mem_ids l
    exact ⟨step?_of_hidden distinct laidOut mem own hidden,
      blendStep?_eq_none distinct laidOut mem own fun _ => hidden⟩
  · intro l mem c mem_c hidden
    have own := child_id_mem_ids mem_c
    constructor
    · rcases hidden with hidden | hidden
      · exact step?_of_hidden distinct laidOut mem own hidden
      · exact step?_of_hidden_child distinct laidOut mem mem_c hidden
    · exact blendStep?_eq_none distinct laidOut mem own fun eq =>
        absurd eq.symm (id_ne_child_id distinct mem mem_c)
  · rw [laidOut.baseHasBlend_eq]
    exact Program.baseHasBlend_ofLayers catalog fallback layers

end

/-- Media under a blend of its own, filtered by the effect of blends, and
a flat colour above a hidden layer. -/
theorem build_positional_of_blended_base :
    let layers : List Layer :=
      [{ id := .ofNat 1
         source := .media "a.png" .image
         children :=
          [{ id := .ofNat 2, effect := EffectId.blend },
            { id := .ofNat 3, effect := EffectId.solid, visible := false }] },
        { id := .ofNat 4, visible := false, source := .effect none },
        { id := .ofNat 5, source := .effect (some EffectId.solid) }]
    let p := Program.ofLayers
      { manifest := {}, generatorNamespaces := [] } EffectId.noise layers
    let g : PipelineGraph :=
      { passes :=
          [⟨EffectId.solid, 5⟩, ⟨EffectId.blend, 3⟩, ⟨EffectId.media, 8⟩,
            ⟨EffectId.blend, 1⟩, ⟨EffectId.solid, 0⟩, ⟨EffectId.blend, 9⟩] }
    (layers.flatMap Layer.ids).Nodup ∧ LaidOut p g ∧
      Positional EffectId.noise layers p g (build p g) := by
  intro layers p g
  have distinct : (layers.flatMap Layer.ids).Nodup := by
    decide +kernel
  have laidOut : LaidOut p g :=
    { effects := by decide +kernel
      steps := by decide +kernel }
  exact ⟨distinct, laidOut, build_positional distinct laidOut⟩

end Compositing.StepMap
