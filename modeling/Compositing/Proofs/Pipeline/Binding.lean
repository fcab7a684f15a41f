/-
Compositing.Proofs.Pipeline.Binding — what a step map binds over any
graph.

A graph may lack passes of a program, have others besides, and mix those
of different effects in another order. Each invocation still gets the
step of the pass that has as many of its effect before it as the
invocation has (`at?_build`). So among distinct steps no step is bound
twice, what an invocation gets runs its effect, and passes of other
effects do not matter (`byOccurrence_ofLayers`).
-/
import Compositing.Proofs.Pipeline.Positional
import Mathlib.Data.List.NodupEquivFin

namespace Compositing

/-! ## Places in a step map -/

/-- A place in a step map. -/
inductive Slot where
  /-- The step of a layer's or child effect's own call. -/
  | own (id : LayerId)
  /-- The step that blends a layer. -/
  | blend (id : LayerId)
  deriving DecidableEq

/-- The place that an invocation fills; backdrops and blanks fill none. -/
def Role.slot? : Role → Option Slot
  | .layer id | .child _ id => some (.own id)
  | .blend id => some (.blend id)
  | .backdrop | .blank => none

theorem Role.slot?_eq_own_iff {role : Role} {id : LayerId} :
    role.slot? = some (.own id) ↔ role.shown? = some id := by
  cases role <;> simp [slot?, shown?]

theorem Role.slot?_eq_blend_iff {role : Role} {id : LayerId} :
    role.slot? = some (.blend id) ↔ role.blended? = some id := by
  cases role <;> simp [slot?, blended?]

/-- Where shown identities are distinct, and blended ones, so are the
places. -/
theorem nodup_slots {invocations : List Invocation}
    (shown : (invocations.filterMap (·.role.shown?)).Nodup)
    (blended : (invocations.filterMap (·.role.blended?)).Nodup) :
    (invocations.filterMap (·.role.slot?)).Nodup := by
  have shown := List.pairwise_filterMap.mp shown
  have blended := List.pairwise_filterMap.mp blended
  refine List.pairwise_filterMap.mpr ((shown.and blended).imp ?_)
  rintro a b ⟨apart, apart'⟩ slot at_a slot' at_b rfl
  cases slot with
  | own id =>
    exact apart id (Role.slot?_eq_own_iff.mp at_a) id
      (Role.slot?_eq_own_iff.mp at_b) rfl
  | blend id =>
    exact apart' id (Role.slot?_eq_blend_iff.mp at_a) id
      (Role.slot?_eq_blend_iff.mp at_b) rfl

/-- How many of the first `k` invocations run an effect. -/
def Program.earlier (p : Program) (k : Nat) (effect : EffectId) : Nat :=
  ((p.invocations.take k).map (·.effect)).count effect

/-- Behind an invocation of an effect there is one more of it. -/
theorem Program.earlier_lt {p : Program} {j k : Nat} {inv : Invocation}
    (at_j : p.invocations[j]? = some inv) (lt : j < k) :
    p.earlier j inv.effect < p.earlier k inv.effect := by
  have upTo : (p.invocations.take (j + 1)).Sublist (p.invocations.take k) :=
    (List.take_prefix_take_left (by omega)).sublist
  have le := (upTo.map (·.effect)).count_le inv.effect
  rw [List.take_add_one, at_j, List.map_append, List.count_append] at le
  have one : ((some inv).toList.map (·.effect)).count inv.effect = 1 := by
    simp
  unfold earlier
  omega

namespace PipelineGraph

variable {g : PipelineGraph}

/-- A step that is found is that of a pass of the effect. -/
theorem nthStep?_eq_some {effect : EffectId} {n step : Nat}
    (found : g.nthStep? effect n = some step) :
    ∃ pass, (g.running effect)[n]? = some pass ∧ pass ∈ g.passes ∧
      pass.effect = effect ∧ pass.step = step := by
  obtain ⟨pass, at_n, rfl⟩ := Option.map_eq_some_iff.mp found
  obtain ⟨mem, runs⟩ := List.mem_filter.mp (List.mem_of_getElem? at_n)
  exact ⟨pass, at_n, mem, of_decide_eq_true runs, rfl⟩

theorem nthStep?_eq_none_iff {effect : EffectId} {n : Nat} :
    g.nthStep? effect n = none ↔ (g.running effect).length ≤ n := by
  rw [nthStep?, Option.map_eq_none_iff, List.getElem?_eq_none_iff]

/-- Later occurrences of an effect are later passes. -/
theorem passes_ascend {effect : EffectId} {m n step step' : Nat}
    (lt : m < n) (found : g.nthStep? effect m = some step)
    (found' : g.nthStep? effect n = some step') :
    ∃ a b : Nat, a < b ∧ g.passes[a]? = some (Pass.mk effect step) ∧
      g.passes[b]? = some (Pass.mk effect step') := by
  obtain ⟨pass, at_m, -, rfl, rfl⟩ := nthStep?_eq_some found
  obtain ⟨pass', at_n, -, same, rfl⟩ := nthStep?_eq_some found'
  obtain ⟨place, kept⟩ := List.sublist_iff_exists_orderEmbedding_getElem?_eq.mp
    (List.filter_sublist (p := fun p : Pass => p.effect = pass.effect)
      (l := g.passes))
  refine ⟨place m, place n, place.lt_iff_lt.mpr lt, ?_, ?_⟩
  · rw [← kept m]
    exact at_m
  · rw [← kept n, ← same]
    rw [← same] at at_n
    exact at_n

/-- Among distinct steps, each is found for one occurrence of one
effect. -/
theorem nthStep?_inj (steps : (g.passes.map (·.step)).Nodup)
    {effect effect' : EffectId} {m n step : Nat}
    (found : g.nthStep? effect m = some step)
    (found' : g.nthStep? effect' n = some step) :
    effect = effect' ∧ m = n := by
  obtain ⟨pass, at_m, mem, rfl, rfl⟩ := nthStep?_eq_some found
  obtain ⟨pass', at_n, mem', rfl, same⟩ := nthStep?_eq_some found'
  obtain rfl := List.inj_on_of_nodup_map steps mem' mem same
  refine ⟨rfl, ?_⟩
  have nodup : (g.running pass'.effect).Nodup := steps.of_map.filter _
  have lt := (List.getElem?_eq_some_iff.mp at_m).1
  exact (List.getElem?_inj lt nodup).mp (at_m.trans at_n.symm)

end PipelineGraph

namespace StepMap

variable {g : PipelineGraph} {slot : Slot}

/-- The step at a place. -/
def at? (m : StepMap) : Slot → Option Nat
  | .own id => m.step? id
  | .blend id => m.blendStep? id

theorem at?_bind (m : StepMap) (role : Role) (step : Nat) (slot : Slot) :
    (m.bind role step).at? slot =
      if role.slot? = some slot then some step else m.at? slot := by
  cases role <;> cases slot <;>
    simp only [bind, at?, step?, blendStep?, Role.slot?, Assoc.get?_insert,
      Assoc.compare_eq_iff, Option.some.injEq, Slot.own.injEq,
      Slot.blend.injEq, reduceCtorEq, if_false]
  case layer.own | child.own | blend.blend => exact if_congr eq_comm rfl rfl

/-- A place that invocations leave free is left free by each. -/
theorem free_of_cons {inv : Invocation} {rest : List Invocation}
    (free : slot ∉ (inv :: rest).filterMap (·.role.slot?)) :
    inv.role.slot? ≠ some slot ∧ slot ∉ rest.filterMap (·.role.slot?) := by
  simp only [List.mem_filterMap, List.mem_cons, exists_eq_or_imp, not_or]
    at free ⊢
  exact free

/-- A place that no invocation fills stays as it was. -/
theorem at?_bindAll_of_not_mem :
    ∀ {invocations : List Invocation} {before : List EffectId} {m : StepMap},
      slot ∉ invocations.filterMap (·.role.slot?) →
      (bindAll g m before invocations).at? slot = m.at? slot
  | [], _, _, _ => rfl
  | inv :: rest, before, m, unfilled => by
    obtain ⟨other, later⟩ := free_of_cons unfilled
    rw [bindAll, at?_bindAll_of_not_mem later]
    split
    · rw [at?_bind, if_neg other]
    · rfl

/-- A place that one invocation fills has the step of the pass with as
many of its effect before it. -/
theorem at?_bindAll_of_split {inv : Invocation} {later : List Invocation}
    (fills : inv.role.slot? = some slot)
    (last : slot ∉ later.filterMap (·.role.slot?)) :
    ∀ {earlier : List Invocation} (before : List EffectId) {m : StepMap},
      m.at? slot = none →
      slot ∉ earlier.filterMap (·.role.slot?) →
      (bindAll g m before (earlier ++ inv :: later)).at? slot =
        g.nthStep? inv.effect (before.count inv.effect +
          (earlier.map (·.effect)).count inv.effect)
  | [], before, m, free, _ => by
    rw [List.nil_append, bindAll, at?_bindAll_of_not_mem last]
    cases found : g.nthStep? inv.effect (before.count inv.effect) with
    | some step => simp [at?_bind, fills, found]
    | none => simp [free, found]
  | first :: rest, before, m, free, unfilled => by
    obtain ⟨other, unfilled⟩ := free_of_cons unfilled
    have count : (first.effect :: before).count inv.effect +
          (rest.map (·.effect)).count inv.effect =
        before.count inv.effect +
          ((first :: rest).map (·.effect)).count inv.effect := by
      rw [List.map_cons, List.count_cons, List.count_cons]
      omega
    rw [List.cons_append, bindAll, ← count]
    refine at?_bindAll_of_split fills last _ ?_ unfilled
    split
    · rw [at?_bind, if_neg other, free]
    · exact free

/-! ## Programs of distinct identities -/

section

variable {p : Program} (nodup : (p.invocations.filterMap (·.role.slot?)).Nodup)

include nodup

/-- The place of an invocation has the step of the pass with as many of
its effect before it. -/
theorem at?_build {k : Nat} {inv : Invocation}
    (at_k : p.invocations[k]? = some inv)
    (fills : inv.role.slot? = some slot) :
    (build p g).at? slot =
      g.nthStep? inv.effect (p.earlier k inv.effect) := by
  obtain ⟨lt, rfl⟩ := List.getElem?_eq_some_iff.mp at_k
  have split : p.invocations =
      p.invocations.take k ++ p.invocations[k] ::
        p.invocations.drop (k + 1) := by
    rw [← List.drop_eq_getElem_cons lt, List.take_append_drop]
  have only := nodup
  rw [split, List.filterMap_append, List.filterMap_cons, fills,
    List.nodup_append] at only
  obtain ⟨-, after, before⟩ := only
  have free : ({ baseHasBlend := p.baseHasBlend } : StepMap).at? slot = none := by
    cases slot <;> rfl
  have unfilled : slot ∉ (p.invocations.take k).filterMap (·.role.slot?) :=
    fun mem => before slot mem slot List.mem_cons_self rfl
  have bound := at?_bindAll_of_split (g := g) fills
    (List.nodup_cons.mp after).1 [] free unfilled
  rw [← split, List.count_nil, Nat.zero_add] at bound
  exact bound

/-- Over a graph that was laid out for the program, the place of an
invocation has the step of the pass at its position. -/
theorem LaidOut.at?_build (h : LaidOut p g) {k : Nat} {inv : Invocation}
    {pass : Pass} (at_k : p.invocations[k]? = some inv)
    (at_pass : g.passes[k]? = some pass)
    (fills : inv.role.slot? = some slot) :
    (build p g).at? slot = some pass.step := by
  have effect := h.effect_eq at_k at_pass
  obtain ⟨lt, rfl⟩ := List.getElem?_eq_some_iff.mp at_pass
  have split : g.passes = g.passes.take k ++ g.passes[k] ::
      g.passes.drop (k + 1) := by
    rw [← List.drop_eq_getElem_cons lt, List.take_append_drop]
  have earlier : p.earlier k inv.effect =
      ((g.passes.take k).map (·.effect)).count g.passes[k].effect := by
    rw [Program.earlier, List.map_take, List.map_take, h.effects, effect]
  rw [StepMap.at?_build nodup at_k fills, earlier, ← effect]
  exact PipelineGraph.nthStep?_of_split split

/-- Whatever is bound is bound for an invocation. -/
theorem exists_of_at?_build {step : Nat}
    (bound : (build p g).at? slot = some step) :
    ∃ (k : Nat) (inv : Invocation), p.invocations[k]? = some inv ∧
      inv.role.slot? = some slot ∧
      g.nthStep? inv.effect (p.earlier k inv.effect) = some step := by
  have filled : slot ∈ p.invocations.filterMap (·.role.slot?) := by
    by_contra unfilled
    rw [build, at?_bindAll_of_not_mem unfilled] at bound
    cases slot <;> cases bound
  obtain ⟨inv, mem, fills⟩ := List.mem_filterMap.mp filled
  obtain ⟨k, at_k⟩ := List.mem_iff_getElem?.mp mem
  rw [at?_build nodup at_k fills] at bound
  exact ⟨k, inv, at_k, fills, bound⟩

/-- Among distinct steps no step is bound twice. -/
theorem at?_build_inj (steps : (g.passes.map (·.step)).Nodup) {a b : Slot}
    {step : Nat} (at_a : (build p g).at? a = some step)
    (at_b : (build p g).at? b = some step) : a = b := by
  obtain ⟨j, inv, at_j, fills, found⟩ := exists_of_at?_build nodup at_a
  obtain ⟨k, inv', at_k, fills', found'⟩ := exists_of_at?_build nodup at_b
  obtain ⟨effect, same⟩ := PipelineGraph.nthStep?_inj steps found found'
  -- As many of the effect before it: the invocations are one.
  obtain rfl : j = k := by
    rcases Nat.lt_trichotomy j k with lt | eq | gt
    · have := Program.earlier_lt at_j lt
      rw [effect] at this same
      omega
    · exact eq
    · have := Program.earlier_lt at_k gt
      rw [effect] at same
      omega
  rw [at_j] at at_k
  obtain rfl := Option.some.inj at_k
  exact Option.some.inj (fills.symm.trans fills')

end

/-- The step map binds by occurrence within each effect. -/
structure ByOccurrence (p : Program) (g : PipelineGraph) : Prop where
  /-- No step is bound twice. -/
  injective : ∀ {a b : Slot} {step : Nat},
    (build p g).at? a = some step → (build p g).at? b = some step → a = b
  /-- What is bound is bound for an invocation, to a pass that runs its
  effect. -/
  runs : ∀ {slot : Slot} {step : Nat}, (build p g).at? slot = some step →
    ∃ inv ∈ p.invocations, inv.role.slot? = some slot ∧
      Pass.mk inv.effect step ∈ g.passes
  /-- Invocations of one effect have steps in the order of the passes. -/
  ascending : ∀ {j k : Nat} {inv inv' : Invocation} {a b : Slot}
    {step step' : Nat}, j < k →
    p.invocations[j]? = some inv → p.invocations[k]? = some inv' →
    inv.effect = inv'.effect →
    inv.role.slot? = some a → inv'.role.slot? = some b →
    (build p g).at? a = some step → (build p g).at? b = some step' →
      ∃ m n : Nat, m < n ∧ g.passes[m]? = some (Pass.mk inv.effect step) ∧
        g.passes[n]? = some (Pass.mk inv.effect step')
  /-- An invocation has no step exactly if there are no more passes of its
  effect than invocations of it before. -/
  unbound_iff : ∀ {k : Nat} {inv : Invocation} {slot : Slot},
    p.invocations[k]? = some inv → inv.role.slot? = some slot →
      ((build p g).at? slot = none ↔
        (g.running inv.effect).length ≤ p.earlier k inv.effect)
  /-- Passes of other effects do not matter, nor where they stand. -/
  of_running : ∀ {g' : PipelineGraph} {inv : Invocation} {slot : Slot},
    inv ∈ p.invocations → inv.role.slot? = some slot →
      g'.running inv.effect = g.running inv.effect →
        (build p g').at? slot = (build p g).at? slot

/-- Over any graph of distinct steps a program of distinct identities is
bound by occurrence. -/
theorem byOccurrence_ofLayers {catalog : Catalog} {fallback : EffectId}
    {layers : List Layer} (distinct : (layers.flatMap Layer.ids).Nodup)
    {g : PipelineGraph} (steps : (g.passes.map (·.step)).Nodup) :
    ByOccurrence (Program.ofLayers catalog fallback layers) g := by
  have nodup := nodup_slots (nodup_shown catalog fallback distinct)
    (nodup_blended catalog fallback distinct)
  constructor
  case injective => exact at?_build_inj nodup steps
  case runs =>
    intro slot step bound
    obtain ⟨k, inv, at_k, fills, found⟩ := exists_of_at?_build nodup bound
    obtain ⟨pass, -, mem, effect, rfl⟩ := PipelineGraph.nthStep?_eq_some found
    exact ⟨inv, List.mem_of_getElem? at_k, fills, effect ▸ mem⟩
  case ascending =>
    intro j k inv inv' a b step step' lt at_j at_k effect fills fills' at_a
      at_b
    rw [at?_build nodup at_j fills] at at_a
    rw [at?_build nodup at_k fills', ← effect] at at_b
    exact PipelineGraph.passes_ascend (Program.earlier_lt at_j lt) at_a at_b
  case unbound_iff =>
    intro k inv slot at_k fills
    rw [at?_build nodup at_k fills]
    exact PipelineGraph.nthStep?_eq_none_iff
  case of_running =>
    intro g' inv slot mem fills same
    obtain ⟨k, at_k⟩ := List.mem_iff_getElem?.mp mem
    rw [at?_build nodup at_k fills, at?_build nodup at_k fills]
    unfold PipelineGraph.nthStep?
    rw [same]

/-- Of three blends the last has no pass; noise is not in the program; and
the flat colour runs before what it lies on. -/
theorem byOccurrence_ofLayers_of_partial_graph :
    let layers : List Layer :=
      [{ id := .ofNat 1
         source := .media "a.png" .image
         children := [{ id := .ofNat 2, effect := EffectId.blend }] },
        { id := .ofNat 3, source := .effect (some EffectId.solid) }]
    let p := Program.ofLayers
      { manifest := {}, generatorNamespaces := [] } EffectId.noise layers
    let g : PipelineGraph :=
      { passes :=
          [⟨EffectId.solid, 5⟩, ⟨EffectId.solid, 2⟩, ⟨EffectId.noise, 7⟩,
            ⟨EffectId.blend, 4⟩, ⟨EffectId.media, 3⟩, ⟨EffectId.blend, 0⟩] }
    (layers.flatMap Layer.ids).Nodup ∧ (g.passes.map (·.step)).Nodup ∧
      (build p g).at? (.own (.ofNat 2)) = some 0 ∧
      (build p g).at? (.blend (.ofNat 3)) = none ∧
      ByOccurrence p g := by
  intro layers p g
  have distinct : (layers.flatMap Layer.ids).Nodup := by
    decide +kernel
  have steps : (g.passes.map (·.step)).Nodup := by
    decide +kernel
  exact ⟨distinct, steps, by decide +kernel, by decide +kernel,
    byOccurrence_ofLayers distinct steps⟩

end StepMap

end Compositing
