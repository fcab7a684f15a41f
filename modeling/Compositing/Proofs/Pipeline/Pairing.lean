/-
Compositing.Proofs.Pipeline.Pairing — passes and layers paired by
position.

Everything visible that runs an effect has a pass of it, be it a layer or
a child effect: these are its `Program.runners`. In a graph that was laid
out in order the passes of an effect have the steps of its runners
(`LaidOut.stepsOf_eq`). So if passes are paired with layers by position,
the layers get their own steps exactly if they are the first runners
(`owns_paired_iff`).
-/
import Compositing.Proofs.Distinct
import Compositing.Proofs.Pipeline.Positional

namespace Compositing

/-! ## Steps of an effect -/

namespace PipelineGraph

theorem nodup_stepsOf (g : PipelineGraph) (effect : EffectId) :
    (g.stepsOf effect).Nodup :=
  nodup_eraseDups _

/-- Layers one by one with the steps that run an effect, as far as both
go. -/
def paired (g : PipelineGraph) (effect : EffectId) (layers : List Layer) :
    List (Nat × Layer) :=
  (g.stepsOf effect).zip layers

theorem map_fst_paired_sublist (g : PipelineGraph) (effect : EffectId)
    (layers : List Layer) :
    ((g.paired effect layers).map Prod.fst).Sublist (g.stepsOf effect) := by
  unfold paired
  induction g.stepsOf effect generalizing layers with
  | nil => simp
  | cons step steps ih =>
    cases layers with
    | nil => exact List.nil_sublist _
    | cons l rest => exact (ih rest).cons_cons step

variable {g : PipelineGraph} (steps : (g.passes.map (·.step)).Nodup)

include steps

/-- Where steps are distinct, those of an effect are the steps of its
passes. -/
theorem stepsOf_eq_map (effect : EffectId) :
    g.stepsOf effect = (g.running effect).map (·.step) :=
  eraseDups_of_nodup (steps.sublist (List.filter_sublist.map _))

/-- Different effects run at different steps. -/
theorem nodup_flatMap_stepsOf {effects : List EffectId}
    (distinct : effects.Nodup) : (effects.flatMap g.stepsOf).Nodup := by
  refine List.nodup_flatMap.mpr
    ⟨fun effect _ => g.nodup_stepsOf effect, distinct.imp ?_⟩
  intro a b ne step at_a at_b
  rw [stepsOf_eq_map steps] at at_a at_b
  obtain ⟨p, mem_p, rfl⟩ := List.mem_map.mp at_a
  obtain ⟨q, mem_q, same⟩ := List.mem_map.mp at_b
  obtain ⟨mem_p, runs_p⟩ := List.mem_filter.mp mem_p
  obtain ⟨mem_q, runs_q⟩ := List.mem_filter.mp mem_q
  obtain rfl := List.inj_on_of_nodup_map steps mem_q mem_p same
  exact ne ((of_decide_eq_true runs_p).symm.trans (of_decide_eq_true runs_q))

end PipelineGraph

/-! ## Textures -/

/-- What follows the last separator is told from what precedes it. -/
theorem append_separator_inj {a b last last' : List Char} {separator : Char}
    (new : separator ∉ last) (new' : separator ∉ last')
    (h : a ++ separator :: last = b ++ separator :: last') :
    a = b ∧ last = last' := by
  rcases List.append_eq_append_iff.mp h with
    ⟨between, rfl, rest⟩ | ⟨between, rfl, rest⟩
  · cases between with
    | nil => exact ⟨(List.append_nil a).symm, (List.cons.inj rest).2⟩
    | cons c between =>
      obtain ⟨-, rfl⟩ := List.cons.inj rest
      simp at new
  · cases between with
    | nil => exact ⟨List.append_nil b, (List.cons.inj rest).2.symm⟩
    | cons c between =>
      obtain ⟨-, rfl⟩ := List.cons.inj rest
      simp at new'

/-- The name of a texture tells its slot and its step. -/
theorem textureName_inj {slot slot' : String} {step step' : Nat}
    (h : textureName slot step = textureName slot' step') :
    slot = slot' ∧ step = step' := by
  have digits : ∀ n, '_' ∉ Nat.toDigits 10 n := by
    intro n mem
    have digit := Nat.isDigit_of_mem_toDigits (by decide) (by decide) mem
    revert digit
    decide
  have split : ∀ (slot : String) (n : Nat), (textureName slot n).toList =
      (slot.toList ++ ['_', 's', 't', 'e', 'p']) ++ '_' :: Nat.toDigits 10 n := by
    intro slot n
    simp [textureName]
  have chars := congrArg String.toList h
  rw [split, split] at chars
  obtain ⟨front, back⟩ :=
    append_separator_inj (digits step) (digits step') chars
  refine ⟨String.toList_inj.mp (List.append_cancel_right front), ?_⟩
  calc
    step = Nat.ofDigitChars 10 (Nat.toDigits 10 step) 0 :=
      Nat.ofDigitChars_ten_toDigits.symm
    _ = Nat.ofDigitChars 10 (Nat.toDigits 10 step') 0 := by rw [back]
    _ = step' := Nat.ofDigitChars_ten_toDigits

/-! ## What runs an effect -/

namespace Program

/-- A layer and its visible child effects, each with what it runs. -/
def contents (fallback : EffectId) (l : Layer) : List (LayerId × EffectId) :=
  (l.id, l.effectOr fallback) :: l.visibleChildren.map fun c => (c.id, c.effect)

/-- The visible layers and child effects that run an effect, in the order
of the program. -/
def runners (fallback : EffectId) (layers : List Layer) (effect : EffectId) :
    List LayerId :=
  (((layers.filter (·.visible)).flatMap (contents fallback)).filter
    (·.2 = effect)).map Prod.fst

/-- Visible layers that run an effect are among its runners, in their
order. -/
theorem map_id_sublist_runners {fallback effect : EffectId} {p : Layer → Bool}
    (runs : ∀ l, p l = true → l.effectOr fallback = effect)
    (layers : List Layer) :
    (((layers.filter (·.visible)).filter p).map (·.id)).Sublist
      (runners fallback layers effect) := by
  unfold runners
  induction layers.filter (·.visible) with
  | nil => exact List.Sublist.slnil
  | cons l rest ih =>
    rw [List.flatMap_cons, List.filter_append, List.map_append]
    by_cases keep : p l = true
    · rw [List.filter_cons_of_pos keep, contents,
        List.filter_cons_of_pos (by simp [runs l keep])]
      exact (ih.trans (List.sublist_append_right _ _)).cons_cons l.id
    · rw [List.filter_cons_of_neg keep]
      exact ih.trans (List.sublist_append_right _ _)

variable (catalog : Catalog) (fallback : EffectId) {effect : EffectId}

theorem nodup_runners {layers : List Layer}
    (distinct : (layers.flatMap Layer.ids).Nodup) (effect : EffectId) :
    (runners fallback layers effect).Nodup := by
  have shown : ((layers.filter (·.visible)).flatMap (contents fallback)).map
      Prod.fst = (layers.filter (·.visible)).flatMap shownIds := by
    rw [List.map_flatMap]
    refine List.flatMap_congr fun l _ => ?_
    simp [contents, shownIds, Function.comp_def]
  have nodup := StepMap.nodup_shownIds distinct
  rw [← shown] at nodup
  exact nodup.sublist (List.filter_sublist.map _)

/-- Visible layers that run an effect are its first runners if nothing
else runs it. -/
theorem map_id_prefix_runners {layers : List Layer}
    (distinct : (layers.flatMap Layer.ids).Nodup) {p : Layer → Bool}
    (runs : ∀ l, p l = true → l.effectOr fallback = effect)
    (alone : ∀ id ∈ runners fallback layers effect,
      ∃ l ∈ (layers.filter (·.visible)).filter p, l.id = id) :
    ((layers.filter (·.visible)).filter p).map (·.id) <+:
      runners fallback layers effect := by
  have among := map_id_sublist_runners runs layers
  have all : runners fallback layers effect ⊆
      ((layers.filter (·.visible)).filter p).map (·.id) := by
    intro id mem
    obtain ⟨l, mem_l, rfl⟩ := alone id mem
    exact List.mem_map_of_mem mem_l
  have length := (nodup_runners fallback distinct effect).length_le_of_subset all
  have same := among.eq_of_length_le length
  exact ⟨[], (List.append_nil _).trans same⟩

/-- The content that the invocations of an effect belong to. -/
def shownBy (effect : EffectId) (invocations : List Invocation) :
    List (Option LayerId) :=
  (invocations.filter (·.effect = effect)).map (·.role.shown?)

theorem shownBy_append (a b : List Invocation) :
    shownBy effect (a ++ b) = shownBy effect a ++ shownBy effect b := by
  rw [shownBy, List.filter_append, List.map_append]
  rfl

theorem shownBy_contentInvocations (l : Layer) :
    shownBy effect (contentInvocations fallback l) =
      (((contents fallback l).filter (·.2 = effect)).map Prod.fst).map some := by
  unfold shownBy contentInvocations contents
  by_cases own : l.effectOr fallback = effect
  · rw [List.filter_cons_of_pos (by simp [own]),
      List.filter_cons_of_pos (by simp [own]), List.filter_map, List.filter_map]
    simp only [List.map_cons, List.map_map]
    rfl
  · rw [List.filter_cons_of_neg (by simp [own]),
      List.filter_cons_of_neg (by simp [own]), List.filter_map, List.filter_map]
    simp only [List.map_map]
    rfl

/-- Apart from backdrops and blends, whatever runs an effect shows
something, and it is the runners that are shown. -/
theorem shownBy_ofLayers (not_solid : effect ≠ EffectId.solid)
    (not_blend : effect ≠ EffectId.blend) (layers : List Layer) :
    shownBy effect (ofLayers catalog fallback layers).invocations =
      (runners fallback layers effect).map some := by
  -- Backdrops and blanks run the flat colour, and blends run the effect of
  -- blends, so only content is left of each layer's invocations.
  have upper : ∀ l, shownBy effect (upperInvocations fallback l) =
      (((contents fallback l).filter (·.2 = effect)).map Prod.fst).map
        some := by
    intro l
    rw [upperInvocations, shownBy_append, shownBy_contentInvocations]
    simp [shownBy, blendInvocation, not_blend.symm]
  have base : ∀ l, shownBy effect (baseInvocations fallback l) =
      (((contents fallback l).filter (·.2 = effect)).map Prod.fst).map
        some := by
    intro l
    unfold baseInvocations
    split
    · exact shownBy_contentInvocations fallback l
    · rw [← shownBy_contentInvocations]
      simp [shownBy, blendInvocation, not_blend.symm, not_solid.symm]
  rw [invocations_ofLayers, runners]
  cases layers.filter (·.visible) with
  | nil => simp [stackInvocations, shownBy, not_solid.symm]
  | cons first rest =>
    rw [stackInvocations, shownBy_append, base, List.flatMap_cons,
      List.filter_append, List.map_append, List.map_append]
    congr 1
    induction rest with
    | nil => rfl
    | cons l rest ih =>
      rw [List.flatMap_cons, shownBy_append, upper, ih, List.flatMap_cons,
        List.filter_append, List.map_append, List.map_append]

end Program

/-! ## Steps of what runs an effect -/

namespace StepMap

section

variable {p : Program} {g : PipelineGraph} (h : LaidOut p g)
  (nodup : (p.invocations.filterMap (·.role.shown?)).Nodup)

include h nodup

/-- One step is that of one layer or child effect. -/
theorem LaidOut.eq_of_step? {a b : LayerId} {step : Nat}
    (at_a : (build p g).step? a = some step)
    (at_b : (build p g).step? b = some step) : a = b := by
  have nodup' : ((bound Role.shown? p.invocations g.passes).map
      Prod.fst).Nodup := by
    rwa [map_fst_bound Role.shown? h.length_eq]
  rw [h.step?_eq, Assoc.get?_ofList_eq_some_iff nodup', mem_bound] at at_a at_b
  obtain ⟨j, inv, pass, at_inv, at_pass, found, rfl⟩ := at_a
  obtain ⟨k, inv', pass', at_inv', at_pass', found', same⟩ := at_b
  obtain rfl := h.position_eq at_pass' at_pass same
  rw [at_inv] at at_inv'
  cases at_inv'
  exact Option.some.inj (found.symm.trans found')

/-- Pass by pass, what is invoked has the step of the pass. -/
theorem LaidOut.forall₂ :
    List.Forall₂ (fun pass inv => pass.effect = inv.effect ∧
        ∀ id, inv.role.shown? = some id →
          (build p g).step? id = some pass.step)
      g.passes p.invocations := by
  refine List.forall₂_iff_get.mpr ⟨h.length_eq, fun k lt lt' => ?_⟩
  have at_pass := List.getElem?_eq_getElem lt
  have at_inv := List.getElem?_eq_getElem lt'
  refine ⟨h.effect_eq at_inv at_pass, fun id found => ?_⟩
  rw [h.step?_eq]
  exact (h.get?_bound_iff nodup at_inv at_pass id).mpr found

end

/-- Passes and invocations that belong together pass by pass still do so
when only those of one effect are kept. -/
theorem map_step_filter {m : StepMap} {effect : EffectId}
    {passes : List Pass} {invocations : List Invocation}
    (h : List.Forall₂ (fun pass inv => pass.effect = inv.effect ∧
        ∀ id, inv.role.shown? = some id → m.step? id = some pass.step)
      passes invocations) {ids : List LayerId}
    (shown : Program.shownBy effect invocations = ids.map some) :
    ((passes.filter (·.effect = effect)).map (·.step)).map some =
      ids.map m.step? := by
  induction h generalizing ids with
  | nil =>
    cases ids with
    | nil => rfl
    | cons id ids => cases shown
  | @cons pass inv passes invocations here _ ih =>
    obtain ⟨same, step⟩ := here
    by_cases runs : inv.effect = effect
    · rw [List.filter_cons_of_pos (by simp [same, runs])]
      rw [Program.shownBy, List.filter_cons_of_pos (by simp [runs])] at shown
      cases ids with
      | nil => cases shown
      | cons id ids =>
        obtain ⟨found, shown⟩ := List.cons.inj shown
        rw [List.map_cons, List.map_cons, List.map_cons, ih shown, step id found]
    · rw [List.filter_cons_of_neg (by simp [same, runs])]
      rw [Program.shownBy, List.filter_cons_of_neg (by simp [runs])] at shown
      exact ih shown

/-! ## Pairing -/

/-- The pairs are the layers, each with its own step. -/
def Owns (m : StepMap) (pairs : List (Nat × Layer)) (layers : List Layer) :
    Prop :=
  List.Forall₂ (fun pair l => pair.2 = l ∧ m.step? l.id = some pair.1)
    pairs layers

/-- If the steps are those of some identities, layers are paired each with
its own step exactly if these identities begin with theirs. -/
theorem owns_zip_iff {m : StepMap} :
    ∀ {steps : List Nat} {ids : List LayerId} (layers : List Layer),
      steps.map some = ids.map m.step? →
      (∀ {a b step}, m.step? a = some step → m.step? b = some step → a = b) →
      (m.Owns (steps.zip layers) layers ↔ layers.map (·.id) <+: ids)
  | steps, ids, [], _, _ => by simp [Owns]
  | [], ids, l :: rest, own, _ => by
    -- The steps end where the identities end.
    obtain rfl : ids = [] := by simpa using own.symm
    simp [Owns]
  | step :: steps, [], l :: rest, own, _ => by cases own
  | step :: steps, id :: ids, l :: rest, own, inj => by
    obtain ⟨here, own⟩ := List.cons.inj own
    have first : m.step? l.id = some step ↔ l.id = id :=
      ⟨fun found => inj found here.symm, fun eq => eq ▸ here.symm⟩
    have ih := owns_zip_iff rest own inj
    unfold Owns at ih ⊢
    rw [List.zip_cons_cons, List.forall₂_cons, List.map_cons,
      List.cons_prefix_cons, ih]
    simp [first]

section

variable {catalog : Catalog} {fallback : EffectId} {layers : List Layer}
  {g : PipelineGraph} {effect : EffectId}
  (distinct : (layers.flatMap Layer.ids).Nodup)
  (laidOut : LaidOut (Program.ofLayers catalog fallback layers) g)
  (not_solid : effect ≠ EffectId.solid) (not_blend : effect ≠ EffectId.blend)

include distinct laidOut not_solid not_blend

/-- The steps of an effect are those of its runners. -/
theorem LaidOut.stepsOf_eq :
    (g.stepsOf effect).map some =
      (Program.runners fallback layers effect).map
        (build (Program.ofLayers catalog fallback layers) g).step? := by
  rw [PipelineGraph.stepsOf_eq_map laidOut.steps]
  exact map_step_filter
    (laidOut.forall₂ (nodup_shown catalog fallback distinct))
    (Program.shownBy_ofLayers catalog fallback not_solid not_blend layers)

/-- Pairing by position gives layers their own steps exactly if they are
the first to run the effect. -/
theorem owns_paired_iff (some_layers : List Layer) :
    (build (Program.ofLayers catalog fallback layers) g).Owns
        (g.paired effect some_layers) some_layers ↔
      some_layers.map (·.id) <+: Program.runners fallback layers effect :=
  owns_zip_iff some_layers
    (laidOut.stepsOf_eq distinct not_solid not_blend)
    (laidOut.eq_of_step? (nodup_shown catalog fallback distinct))

end

end StepMap

end Compositing
