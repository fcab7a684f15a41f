/-
Compositing.Proofs.Pipeline.Occurrence — counting occurrences finds the
position.

An engine that has one pass per invocation, in order, runs the `n`th call
of an effect in its `n`th pass of that effect. So where passes and
invocations agree in their effects, binding by occurrence is binding
position by position (`bindAll_eq_foldl`), and a step map is built from
the list of bound pairs (`steps_build`, `blendSteps_build`).
-/
import Compositing.Pipeline.StepMap
import Compositing.Proofs.Assoc
import Compositing.Proofs.Program.Invocations

namespace Compositing

namespace PipelineGraph

/-- A pass is the one of its effect that as many passes of the effect
precede. -/
theorem nthStep?_of_split {g : PipelineGraph} {before after : List Pass}
    {pass : Pass} (split : g.passes = before ++ pass :: after) :
    g.nthStep? pass.effect
        ((before.map (·.effect)).count pass.effect) =
      some pass.step := by
  have count : (before.map (·.effect)).count pass.effect =
      (before.filter fun p => p.effect = pass.effect).length := by
    rw [List.count_eq_length_filter, List.filter_map, List.length_map]
    congr 1
  unfold nthStep? running
  rw [split, List.filter_append, count,
    List.getElem?_append_right (Nat.le_refl _), Nat.sub_self,
    List.filter_cons_of_pos (by simp)]
  rfl

end PipelineGraph

namespace StepMap

/-- The identities that a view of roles has in invocations, with the steps
of the passes at their positions. -/
def bound (view : Role → Option LayerId) (invocations : List Invocation)
    (passes : List Pass) : List (LayerId × Nat) :=
  (invocations.zip passes).filterMap fun (inv, pass) =>
    (view inv.role).map fun id => (id, pass.step)

/-- Bind every invocation to the step of the pass at its position. -/
def bindEach (m : StepMap) (invocations : List Invocation)
    (passes : List Pass) : StepMap :=
  (invocations.zip passes).foldl (fun m (inv, pass) =>
    m.bind inv.role pass.step) m

/-- Where passes and invocations agree in their effects, the occurrence
of an invocation is its position. -/
theorem bindAll_eq_bindEach {g : PipelineGraph} :
    ∀ {invocations : List Invocation} {passes earlier : List Pass}
      {before : List EffectId} (m : StepMap),
      g.passes = earlier ++ passes →
      passes.map (·.effect) = invocations.map (·.effect) →
      before.Perm (earlier.map (·.effect)) →
      bindAll g m before invocations = m.bindEach invocations passes
  | [], _, _, _, _, _, _, _ => rfl
  | inv :: rest, passes, earlier, before, m, split, effects, counted => by
    cases passes with
    | nil => cases effects
    | cons pass passes =>
      rw [List.map_cons, List.map_cons] at effects
      obtain ⟨effect, effects⟩ := List.cons.inj effects
      have step : g.nthStep? inv.effect (before.count inv.effect) =
          some pass.step := by
        rw [counted.count_eq, ← effect]
        exact PipelineGraph.nthStep?_of_split split
      have counted : (inv.effect :: before).Perm
          ((earlier ++ [pass]).map (·.effect)) := by
        rw [List.map_append, ← effect]
        exact (counted.cons _).trans (List.perm_append_singleton _ _).symm
      rw [bindAll, step]
      exact bindAll_eq_bindEach (m.bind inv.role pass.step)
        (by rw [split, List.append_assoc]; rfl) effects counted

/-! ## What is bound -/

theorem steps_bindEach :
    ∀ (invocations : List Invocation) (passes : List Pass) (m : StepMap),
      (m.bindEach invocations passes).steps =
        Assoc.insertAll m.steps (bound Role.shown? invocations passes)
  | [], _, _ => rfl
  | _ :: _, [], _ => rfl
  | inv :: rest, pass :: passes, m => by
    have ih := steps_bindEach rest passes (m.bind inv.role pass.step)
    rw [bindEach, List.zip_cons_cons, List.foldl_cons, ← bindEach, ih]
    cases role : inv.role <;> simp [bound, bind, role, Role.shown?,
      Assoc.insertAll]

theorem blendSteps_bindEach :
    ∀ (invocations : List Invocation) (passes : List Pass) (m : StepMap),
      (m.bindEach invocations passes).blendSteps =
        Assoc.insertAll m.blendSteps
          (bound Role.blended? invocations passes)
  | [], _, _ => rfl
  | _ :: _, [], _ => rfl
  | inv :: rest, pass :: passes, m => by
    have ih := blendSteps_bindEach rest passes (m.bind inv.role pass.step)
    rw [bindEach, List.zip_cons_cons, List.foldl_cons, ← bindEach, ih]
    cases role : inv.role <;> simp [bound, bind, role, Role.blended?,
      Assoc.insertAll]

theorem baseHasBlend_bindEach (invocations : List Invocation)
    (passes : List Pass) (m : StepMap) :
    (m.bindEach invocations passes).baseHasBlend = m.baseHasBlend := by
  induction invocations generalizing passes m with
  | nil => rfl
  | cons inv rest ih =>
    cases passes with
    | nil => rfl
    | cons pass passes =>
      rw [bindEach, List.zip_cons_cons, List.foldl_cons, ← bindEach, ih]
      cases role : inv.role <;> simp [bind, role]

/-- The bound identities are those of the view, in order. -/
theorem map_fst_bound (view : Role → Option LayerId) :
    ∀ {invocations : List Invocation} {passes : List Pass},
      passes.length = invocations.length →
      (bound view invocations passes).map Prod.fst =
        invocations.filterMap (view ·.role)
  | [], _, _ => rfl
  | inv :: rest, pass :: passes, len => by
    have ih := map_fst_bound view (Nat.succ.inj len)
    cases shown : view inv.role <;> simpa [bound, shown] using ih

/-- A pair is bound exactly at a position. -/
theorem mem_bound {view : Role → Option LayerId}
    {invocations : List Invocation} {passes : List Pass} {id : LayerId}
    {step : Nat} :
    (id, step) ∈ bound view invocations passes ↔
      ∃ (k : Nat) (inv : Invocation) (pass : Pass),
        invocations[k]? = some inv ∧ passes[k]? = some pass ∧
          view inv.role = some id ∧ pass.step = step := by
  unfold bound
  rw [List.mem_filterMap]
  constructor
  · rintro ⟨⟨inv, pass⟩, mem, eq⟩
    obtain ⟨k, at_k⟩ := List.mem_iff_getElem?.mp mem
    obtain ⟨at_inv, at_pass⟩ := List.getElem?_zip_eq_some.mp at_k
    obtain ⟨id', found, eq⟩ := Option.map_eq_some_iff.mp eq
    cases eq
    exact ⟨k, inv, pass, at_inv, at_pass, found, rfl⟩
  · rintro ⟨k, inv, pass, at_inv, at_pass, found, rfl⟩
    refine ⟨(inv, pass), ?_, congrArg (Option.map _) found⟩
    exact List.mem_iff_getElem?.mpr
      ⟨k, List.getElem?_zip_eq_some.mpr ⟨at_inv, at_pass⟩⟩

end StepMap

end Compositing
