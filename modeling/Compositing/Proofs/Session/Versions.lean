/-
Compositing.Proofs.Session.Versions — what the counters of a session say.

The revision counts the changes of the stack's structure and the
generation counts the commits. Neither moves back, and where one of them
stands still, what it counts has stayed as it was (`CountedFrom`). An
update, a new name or lock, new video frames and a trial move neither.
-/
import Compositing.Proofs.Workspace.Representation

namespace Compositing

/-- The command changes neither the structure of the stack nor the
program. -/
def SessionCommand.keepsCounters : SessionCommand → Bool
  | .tryCompile _ | .updateParams _ _ | .updateOpacity _ _
  | .updateOffset _ _ | .refreshVideo | .rename _ _ | .setLocked _ _
  | .mint => true
  | _ => false

namespace Session

variable {σ ρ : Type}

/-- The counters of the second session follow those of the first one, and
where they are equal they stand for the same. -/
structure CountedFrom (s s' : Session σ ρ) : Prop where
  revision_le : s.revision ≤ s'.revision
  generation_le : s.generation ≤ s'.generation
  skeleton : s'.revision = s.revision →
    skeleton s'.layers = skeleton s.layers
  compiled : s'.generation = s.generation → s'.compiled = s.compiled

namespace CountedFrom

theorem refl (s : Session σ ρ) : s.CountedFrom s where
  revision_le := Nat.le_refl _
  generation_le := Nat.le_refl _
  skeleton _ := rfl
  compiled _ := rfl

/-- A counter that ends where it began stood still in between. -/
theorem trans {a b c : Session σ ρ} (h : a.CountedFrom b)
    (h' : b.CountedFrom c) : a.CountedFrom c where
  revision_le := Nat.le_trans h.revision_le h'.revision_le
  generation_le := Nat.le_trans h.generation_le h'.generation_le
  skeleton eq := by
    have le := h.revision_le
    have le' := h'.revision_le
    exact (h'.skeleton (by omega)).trans (h.skeleton (by omega))
  compiled eq := by
    have le := h.generation_le
    have le' := h'.generation_le
    exact (h'.compiled (by omega)).trans (h.compiled (by omega))

end CountedFrom

variable [EffectEngine σ] {s s' : Session σ ρ}

/-- A commit is counted as a generation, a change of the structure as a
revision, and no other move changes what is counted. -/
theorem Move.countedFrom (move : s.Move s') : s.CountedFrom s' := by
  have refl := CountedFrom.refl s
  cases move with
  | ask => exact { refl with }
  | feed s' current fed =>
    cases fed
    exact { refl with }
  | trial => exact { refl with }
  | commit events engine =>
    exact
      { revision_le := Nat.le_refl _
        generation_le := Nat.le_succ _
        skeleton := fun _ => rfl
        compiled := fun eq => absurd eq (Nat.succ_ne_self _) }
  | touch composition retains =>
    exact { refl with skeleton := fun _ => retains.skeleton }
  | edit composition evolves =>
    exact
      { revision_le := Nat.le_succ _
        generation_le := Nat.le_refl _
        skeleton := fun eq => absurd eq (Nat.succ_ne_self _)
        compiled := fun _ => rfl }

theorem Moves.countedFrom (moves : s.Moves s') : s.CountedFrom s' := by
  induction moves with
  | refl => exact .refl s
  | tail _ move ih => exact ih.trans move.countedFrom

/-! ## Commands that are not counted -/

/-- Both counters stand still. -/
structure Uncounted (s s' : Session σ ρ) : Prop where
  revision : s'.revision = s.revision
  generation : s'.generation = s.generation

theorem Fed.uncounted (fed : s.Fed s') : s.Uncounted s' := by
  cases fed
  exact ⟨rfl, rfl⟩

theorem uncounted_tryCompile (text : String) (s : Session σ ρ) :
    s.Uncounted (s.tryCompile text).2 := by
  obtain ⟨events, engine, stale, -, eq⟩ := exists_tryCompile_eq text s
  rw [eq]
  exact ⟨rfl, rfl⟩

/-- An edit that is not structural and what feeds the pipeline after it. -/
theorem uncounted_updating (change : Edit Unit)
    {follow : Session σ ρ → Except Error Bool × Session σ ρ}
    (fed : ∀ s : Session σ ρ, s.Fed (follow s).2) (s : Session σ ρ) :
    s.Uncounted (s.updating change follow).2 :=
  let followed := (fed_updating change fed s).uncounted
  ⟨followed.revision, followed.generation⟩

variable [TextRasterizer ρ]

theorem uncounted_perform (s : Session σ ρ) {command : SessionCommand}
    (keeps : command.keepsCounters = true) :
    s.Uncounted (s.perform command).2 := by
  cases command with
  | tryCompile text => exact uncounted_tryCompile text s
  | updateParams id patch =>
    exact uncounted_updating _ (fed_followParams id patch) s
  | updateOpacity id opacity =>
    exact uncounted_updating _ (fed_followOpacity id opacity) s
  | updateOffset id offset =>
    exact uncounted_updating _ (fed_followOffset id offset) s
  | refreshVideo => exact (fed_refreshVideo s).uncounted
  | rename id name => exact ⟨rfl, rfl⟩
  | setLocked id locked => exact ⟨rfl, rfl⟩
  | mint => exact ⟨rfl, rfl⟩
  | _ => cases keeps

end Session

namespace Workspace

variable {σ ρ : Type} [EffectEngine σ] [TextRasterizer ρ]

/-- Commands carried out in turn lead on. -/
theorem leads_run (commands : List Command) :
    ∀ w : Workspace σ ρ, w.Leads (w.run commands).2 := by
  induction commands with
  | nil =>
    intro w
    exact .refl
  | cons command rest ih =>
    intro w
    exact .head (.perform command) (ih (w.perform command).2)

/-- Neither counter ever moves back. At two moments of one revision the
stack has one skeleton, at two moments of one generation the program and
the step map are the same, and what is not structural moves no counter. -/
theorem Leads.counters_faithful {w w' : Workspace σ ρ} (h : w.Leads w') :
    w.session.revision ≤ w'.session.revision ∧
      w.session.generation ≤ w'.session.generation ∧
      (w'.session.revision = w.session.revision →
        skeleton w'.session.layers = skeleton w.session.layers) ∧
      (w'.session.generation = w.session.generation →
        w'.session.compiled = w.session.compiled) ∧
      ∀ command : SessionCommand, command.keepsCounters = true →
        let next := (w'.perform (.session command)).2
        next.session.revision = w'.session.revision ∧
          next.session.generation = w'.session.generation := by
  have counted := h.moves.countedFrom
  refine ⟨counted.revision_le, counted.generation_le, counted.skeleton,
    counted.compiled, fun command keeps => ?_⟩
  have uncounted := w'.session.uncounted_perform keeps
  exact ⟨uncounted.revision, uncounted.generation⟩

/-- An update and a refused trial after a recompile that failed. -/
theorem Leads.counters_faithful_of_failures :
    let w := ((simulated { rejectCalls := [2, 3] } Simulated.layers).run
      [.session (.rebuild false),
        .session (.setBlendMode (.ofNat 1) .add)]).2
    let w' := (w.run
      [.session (.updateOpacity (.ofNat 1) 50.0),
        .session (.tryCompile "a.b()")]).2
    w.Leads w' ∧ w.session.revision = 1 ∧ w'.session.revision = 1 ∧
      w.session.generation = 1 ∧ w'.session.generation = 1 ∧
      skeleton w'.session.layers = skeleton w.session.layers ∧
      w'.session.compiled = w.session.compiled := by
  intro w w'
  have leads : w.Leads w' := leads_run _ w
  have counters : w.session.revision = 1 ∧ w'.session.revision = 1 ∧
      w.session.generation = 1 ∧ w'.session.generation = 1 := by
    decide +kernel
  obtain ⟨revision, revision', generation, generation'⟩ := counters
  obtain ⟨-, -, skeleton, compiled, -⟩ := leads.counters_faithful
  exact ⟨leads, revision, revision', generation, generation',
    skeleton (revision'.trans revision.symm),
    compiled (generation'.trans generation.symm)⟩

end Workspace

end Compositing
