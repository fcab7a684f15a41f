/-
Compositing.Proofs.Pipeline.Lookups — two ways to find the step of an
invocation.

Parameters go to the step that the step map binds, which is that of the
pass with as many passes of the effect before it as there are invocations
of it. Textures go to the steps of an effect listed once each, entry by
entry. As long as passes of an effect have steps of their own the two are
one lookup. From the first pass on that shares its step with an earlier
one they are not: the list has fallen behind the passes by then, so the
entry is another step or there is none (`lookups_build`).
-/
import Compositing.Proofs.Pipeline.Binding
import Compositing.Proofs.Pipeline.Pairing

namespace Compositing

/-! ## The two lookups -/

namespace PipelineGraph

/-- The first `n` passes that run an effect have steps of their own. -/
def Apart (g : PipelineGraph) (effect : EffectId) (n : Nat) : Prop :=
  (((g.running effect).take n).map (·.step)).Nodup

instance (g : PipelineGraph) (effect : EffectId) (n : Nat) :
    Decidable (g.Apart effect n) :=
  inferInstanceAs (Decidable (List.Nodup _))

theorem nthStep?_eq_getElem? (g : PipelineGraph) (effect : EffectId)
    (n : Nat) :
    g.nthStep? effect n = ((g.running effect).map (·.step))[n]? := by
  rw [nthStep?, List.getElem?_map]

/-- The pass at an occurrence and the entry there have one step exactly as
long as passes have steps of their own. -/
theorem nthStep?_eq_stepsOf_iff {g : PipelineGraph} {effect : EffectId}
    {n : Nat} :
    g.nthStep? effect n = (g.stepsOf effect)[n]? ↔
      (n < (g.running effect).length → g.Apart effect (n + 1)) := by
  rw [nthStep?_eq_getElem?, stepsOf, eq_comm, getElem?_eraseDups_eq_iff,
    List.length_map, Apart, List.map_take]

end PipelineGraph

namespace StepMap

/-- How the step that is bound for an occurrence of an effect compares to
the steps of the effect, listed once each. -/
structure Lookups (g : PipelineGraph) (effect : EffectId) (n : Nat)
    (bound : Option Nat) : Prop where
  /-- The step is that of the pass with as many of the effect before it. -/
  of_pass : bound = ((g.running effect)[n]?).map (·.step)
  /-- It is the entry at the occurrence exactly if the passes up to there
  have steps of their own, or there is no such pass. -/
  entry_iff : bound = (g.stepsOf effect)[n]? ↔
    (n < (g.running effect).length → g.Apart effect (n + 1))
  /-- Where no two passes of the effect share a step the two lookups are
  one, also in what they do not find. -/
  of_apart : g.Apart effect (g.running effect).length →
    bound = (g.stepsOf effect)[n]? ∧
      (bound = none ↔ (g.stepsOf effect).length ≤ n)
  /-- What is not bound has no entry either. -/
  no_entry : bound = none → (g.stepsOf effect).length ≤ n
  /-- What is bound is an entry, if perhaps an earlier one. -/
  listed : ∀ step, bound = some step →
    step ∈ (g.stepsOf effect).take (n + 1)

/-- Over any graph, the place of an invocation in a program of distinct
identities has the step of the pass at its occurrence, which is the entry
there exactly as long as passes of the effect have steps of their own. -/
theorem lookups_build {p : Program}
    (nodup : (p.invocations.filterMap (·.role.slot?)).Nodup)
    (g : PipelineGraph) {k : Nat} {inv : Invocation} {slot : Slot}
    (at_k : p.invocations[k]? = some inv)
    (fills : inv.role.slot? = some slot) :
    Lookups g inv.effect (p.earlier k inv.effect)
      ((build p g).at? slot) := by
  rw [at?_build nodup at_k fills]
  generalize p.earlier k inv.effect = n
  have entry_iff : g.nthStep? inv.effect n = (g.stepsOf inv.effect)[n]? ↔
      (n < (g.running inv.effect).length → g.Apart inv.effect (n + 1)) :=
    PipelineGraph.nthStep?_eq_stepsOf_iff
  constructor
  case of_pass => rfl
  case entry_iff => exact entry_iff
  case of_apart =>
    intro apart
    have entry := entry_iff.mpr fun lt =>
      apart.sublist ((List.take_prefix_take_left lt).sublist.map _)
    exact ⟨entry, by rw [entry, List.getElem?_eq_none_iff]⟩
  case no_entry =>
    intro unbound
    rw [PipelineGraph.nthStep?_eq_none_iff] at unbound
    exact length_eraseDups_le.trans ((List.length_map _).trans_le unbound)
  case listed =>
    intro step bound
    rw [PipelineGraph.nthStep?_eq_getElem?] at bound
    exact mem_take_eraseDups bound

/-- A filter takes two passes at one step. The second blend of the program
finds its own; the second noise gets the step of the first. -/
theorem lookups_build_of_two_passes :
    let layers : List Layer :=
      [{ id := .ofNat 1
         source := .effect none
         children := [{ id := .ofNat 2, effect := EffectId.noise }] },
        { id := .ofNat 3, source := .media "a.png" .image }]
    let p := Program.ofLayers
      { manifest := {}, generatorNamespaces := [] } EffectId.noise layers
    let g : PipelineGraph :=
      { passes :=
          [⟨EffectId.solid, 0⟩, ⟨EffectId.noise, 1⟩, ⟨EffectId.noise, 1⟩,
            ⟨EffectId.noise, 2⟩, ⟨EffectId.noise, 2⟩, ⟨EffectId.blend, 3⟩,
            ⟨EffectId.media, 4⟩, ⟨EffectId.blend, 5⟩] }
    let noise : Invocation :=
      ⟨EffectId.noise, .child (.ofNat 1) (.ofNat 2)⟩
    let blend : Invocation := ⟨EffectId.blend, .blend (.ofNat 3)⟩
    (p.invocations.filterMap (·.role.slot?)).Nodup ∧
      p.invocations[3]? = some noise ∧ p.invocations[5]? = some blend ∧
      Lookups g EffectId.noise 1 ((build p g).at? (.own (.ofNat 2))) ∧
      (build p g).at? (.own (.ofNat 2)) = some 1 ∧
      Lookups g EffectId.blend 1 ((build p g).at? (.blend (.ofNat 3))) ∧
      (build p g).at? (.blend (.ofNat 3)) = some 5 := by
  intro layers p g noise blend
  have nodup : (p.invocations.filterMap (·.role.slot?)).Nodup := by
    decide +kernel
  have at_noise : p.invocations[3]? = some noise := by decide +kernel
  have at_blend : p.invocations[5]? = some blend := by decide +kernel
  have second : p.earlier 3 EffectId.noise = 1 := by decide +kernel
  have second' : p.earlier 5 EffectId.blend = 1 := by decide +kernel
  have lookups := lookups_build nodup g at_noise rfl
  have lookups' := lookups_build nodup g at_blend rfl
  rw [second] at lookups
  rw [second'] at lookups'
  exact ⟨nodup, at_noise, at_blend, lookups, by decide +kernel, lookups',
    by decide +kernel⟩

/-- Where two passes share a step, the second of them is bound to another
step than the entry at its occurrence, and a third is bound to a step
although there is no third entry. -/
theorem lookups_part_behind_shared_step :
    let layers : List Layer :=
      [{ id := .ofNat 1
         source := .effect (some EffectId.solid)
         children :=
          [{ id := .ofNat 2, effect := EffectId.media },
            { id := .ofNat 3, effect := EffectId.noise },
            { id := .ofNat 4, effect := EffectId.noise },
            { id := .ofNat 5, effect := EffectId.noise }] }]
    let p := Program.ofLayers
      { manifest := {}, generatorNamespaces := ["synth"] } EffectId.noise
      layers
    let g : PipelineGraph :=
      { passes :=
          [⟨EffectId.solid, 0⟩, ⟨EffectId.media, 0⟩, ⟨EffectId.noise, 1⟩,
            ⟨EffectId.noise, 1⟩, ⟨EffectId.noise, 2⟩] }
    (layers.flatMap Layer.ids).Nodup ∧
      p.invocations[3]? =
        some ⟨EffectId.noise, .child (.ofNat 1) (.ofNat 4)⟩ ∧
      p.invocations[4]? =
        some ⟨EffectId.noise, .child (.ofNat 1) (.ofNat 5)⟩ ∧
      p.earlier 3 EffectId.noise = 1 ∧ p.earlier 4 EffectId.noise = 2 ∧
      (build p g).step? (.ofNat 4) = some 1 ∧
      (g.stepsOf EffectId.noise)[1]? = some 2 ∧
      (build p g).step? (.ofNat 5) = some 2 ∧
      (g.stepsOf EffectId.noise).length ≤ 2 := by
  decide +kernel

end StepMap

end Compositing
