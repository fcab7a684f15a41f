/-
Compositing.Proofs.Session.Mapped — what has a step is visible.

A step map names only what its program shows, and as long as a session is
not stale the program was made of layers of the same skeleton. So
whatever has a step is a visible layer or a visible child effect of one,
whichever passes the engine showed (`Moves.mapsVisible`).
-/
import Compositing.Proofs.Pipeline.Occurrence
import Compositing.Proofs.Session.Moves

namespace Compositing

namespace StepMap

/-- What has a step had one before, or is shown by what was bound. -/
theorem mem_shown_of_bindAll {g : PipelineGraph} {id : LayerId} :
    ∀ {invocations : List Invocation} {before : List EffectId}
      {m : StepMap},
      ((bindAll g m before invocations).step? id).isSome = true →
      (m.step? id).isSome = true ∨
        id ∈ invocations.filterMap (·.role.shown?)
  | [], _, _, mapped => .inl mapped
  | inv :: rest, before, m, mapped => by
    rw [bindAll] at mapped
    rcases mem_shown_of_bindAll mapped with now | later
    · split at now
      · cases role : inv.role <;>
          simp only [bind, role, step?, Assoc.get?_insert,
            Assoc.compare_eq_iff] at now
        case layer id' | child owner id' =>
          split at now
          · rename_i same
            exact .inr (List.mem_filterMap.mpr
              ⟨inv, List.mem_cons_self, by rw [role, same]; rfl⟩)
          · exact .inl now
        all_goals exact .inl now
      · exact .inl now
    · obtain ⟨inv', mem, shown⟩ := List.mem_filterMap.mp later
      exact .inr (List.mem_filterMap.mpr
        ⟨inv', List.mem_cons_of_mem _ mem, shown⟩)

/-- A step map names only what the program shows. -/
theorem mem_shown_of_build {p : Program} {g : PipelineGraph} {id : LayerId}
    (mapped : ((build p g).step? id).isSome = true) :
    id ∈ p.invocations.filterMap (·.role.shown?) := by
  rcases mem_shown_of_bindAll mapped with before | shown
  · cases before
  · exact shown

end StepMap

/-- The identities of visible layers and their visible child effects. -/
def visibleIds (layers : List Layer) : List LayerId :=
  (layers.filter (·.visible)).flatMap Program.shownIds

/-- Layers of one skeleton are visible together. -/
theorem visibleIds_of_skeleton_eq {a b : List Layer}
    (h : skeleton a = skeleton b) : visibleIds a = visibleIds b := by
  have view : ∀ layers : List Layer, visibleIds layers =
      ((skeleton layers).filter (·.visible)).flatMap fun l =>
        l.id :: (l.children.filter (·.visible)).map (·.id) := by
    intro layers
    rw [visibleIds, skeleton, List.filter_map, List.flatMap_map]
    refine List.flatMap_congr fun l _ => ?_
    simp only [Program.shownIds, Layer.visibleChildren, Layer.skeleton,
      List.filter_map, List.map_map]
    rfl
  rw [view a, view b, h]

namespace Session

variable {σ ρ : Type} [EffectEngine σ] {s s' : Session σ ρ}

omit [EffectEngine σ] in
/-- A step map that is not stale has steps for visible things only. -/
def MapsVisible (s : Session σ ρ) : Prop :=
  ∀ id step, s.step? id = some step → id ∈ visibleIds s.layers

theorem mapsVisible_adopted (s : Session σ ρ) (events : List Event)
    (engine : σ) : (s.adopted events engine).MapsVisible := by
  intro id step mapped
  have mapped : ((s.asked (events ++ _) engine).mapOf
      (s.programOf s.layers)).step? id = some step := mapped
  unfold mapOf at mapped
  split at mapped
  · have shown := StepMap.mem_shown_of_build
      (Option.isSome_iff_exists.mpr ⟨step, mapped⟩)
    rwa [programOf, Program.shown_ofLayers] at shown
  · cases mapped

/-- Every move keeps it so. -/
theorem MapsVisible.move (h : s.MapsVisible) (move : s.Move s') :
    s'.MapsVisible := by
  cases move with
  | ask => exact h
  | feed s' current fed =>
    cases fed
    exact h
  | trial => intro id step mapped; cases mapped
  | commit events engine => exact mapsVisible_adopted s events engine
  | touch composition retains =>
    intro id step mapped
    rw [layers, visibleIds_of_skeleton_eq retains.skeleton]
    exact h id step mapped
  | edit => intro id step mapped; cases mapped

theorem Moves.mapsVisible (moves : s.Moves s') (h : s.MapsVisible) :
    s'.MapsVisible := by
  induction moves with
  | refl => exact h
  | tail _ move ih => exact ih.move move

end Session

end Compositing
