/-
Compositing.Proofs.Workspace.Reachable — the workspaces that there are.

A workspace begins with a session over a list of layers. Users carry out
commands in any order, and between them the engine may change by itself.
Whatever holds of every new session and is kept by moves holds of the
session of every reachable workspace, since its session comes about by
moves (`exists_moves`). What depends on identities being new holds only
while they are `InStock`.
-/
import Compositing.Proofs.Reorder.Snapshot

namespace Compositing.Workspace

variable {σ ρ : Type} [EffectEngine σ] [TextRasterizer ρ]

/-- Identities have not run out. Handing out one past the last is a fault
that ends a run. -/
def InStock (w : Workspace σ ρ) : Prop :=
  w.session.composition.ids.next < LayerId.bound

instance (w : Workspace σ ρ) : Decidable w.InStock :=
  inferInstanceAs (Decidable (_ < _))

/-- What users and the engine can make of a new workspace. -/
inductive Reachable : Workspace σ ρ → Prop where
  | start {engine : σ} {rasterizer : Option ρ} {config : Config}
      {layers : List Layer} {s : Session σ ρ}
      (made : Session.ofLayers engine rasterizer config layers = .ok s) :
      Reachable { session := s }
  | perform {w : Workspace σ ρ} (command : Command)
      (reachable : Reachable w) : Reachable (w.perform command).2
  /-- The engine changes by itself. -/
  | drift {w : Workspace σ ρ} (engine : σ)
      (same : SameManifest w.session.engine engine)
      (reachable : Reachable w) :
      Reachable { w with session := { w.session with engine := engine } }

/-- The session of a performed command comes about by moves. -/
theorem moves_perform (w : Workspace σ ρ) (command : Command) :
    w.session.Moves (w.perform command).2.session := by
  cases command <;> simp only [perform]
  case session command => exact w.session.moves_perform command
  case reorder n command =>
    exact Transaction.moves_perform (w.transaction n) w.session command

omit [TextRasterizer ρ] in
theorem moves_drift (s : Session σ ρ) {engine : σ}
    (same : SameManifest s.engine engine) :
    s.Moves { s with engine := engine } := by
  have move : s.Move (s.asked [] engine) :=
    .ask [] engine (fun _ mem => nomatch mem) same
  rw [Session.asked, List.append_nil] at move
  exact move.moves

omit [EffectEngine σ] [TextRasterizer ρ] in
/-- The reorderings after one of them was put down again. -/
theorem transaction_insert (s : Session σ ρ) (m : Nat) (t : Transaction)
    (transactions : List (Nat × Transaction)) (n : Nat) :
    transaction
        { session := s, transactions := Assoc.insert m t transactions } n =
      if n = m then t else (Assoc.get? n transactions).getD .idle := by
  unfold transaction
  rw [Assoc.get?_insert]
  simp only [Nat.compare_eq_eq]
  split <;> rfl

/-! ## New sessions -/

omit [EffectEngine σ] [TextRasterizer ρ] in
/-- A new session is over a stack that was made of its layers. -/
theorem ofLayers_eq_ok {engine : σ} {rasterizer : Option ρ}
    {config : Config} {layers : List Layer} {s : Session σ ρ}
    (made : Session.ofLayers engine rasterizer config layers = .ok s) :
    ∃ stack, LayerStack.ofLayers layers = .ok stack ∧
      s.composition = Composition.ofStack IdSource.fresh stack ∧
      s.compiled = none ∧ s.stale = true ∧ s.journal = [] := by
  unfold Session.ofLayers at made
  cases result : LayerStack.ofLayers layers with
  | error e =>
    rw [result] at made
    cases made
  | ok stack =>
    rw [result] at made
    cases made
    exact ⟨stack, rfl, rfl, rfl, rfl, rfl⟩

omit [EffectEngine σ] [TextRasterizer ρ] in
/-- A new session has a sound composition. -/
theorem sound_ofLayers {engine : σ} {rasterizer : Option ρ}
    {config : Config} {layers : List Layer} {s : Session σ ρ}
    (made : Session.ofLayers engine rasterizer config layers = .ok s) :
    s.composition.Sound := by
  obtain ⟨stack, made, eq, -⟩ := ofLayers_eq_ok made
  rw [eq]
  have sound := LayerStack.sound_of_ofLayers made
  exact
    ⟨sound, fun _ mem =>
      IdSource.covers_observeAll (sound.coherent.mem_allIds.mpr mem)⟩

namespace Reachable

variable {w : Workspace σ ρ}

/-- The session of a reachable workspace comes about by moves from a new
one. -/
theorem exists_moves (h : w.Reachable) :
    ∃ (engine : σ) (rasterizer : Option ρ) (config : Config)
      (layers : List Layer) (s : Session σ ρ),
      Session.ofLayers engine rasterizer config layers = .ok s ∧
        s.Moves w.session := by
  induction h with
  | start made => exact ⟨_, _, _, _, _, made, .refl _⟩
  | perform command reachable ih =>
    obtain ⟨_, _, _, _, s, made, moves⟩ := ih
    exact ⟨_, _, _, _, s, made, moves.trans (moves_perform _ command)⟩
  | drift engine same reachable ih =>
    obtain ⟨_, _, _, _, s, made, moves⟩ := ih
    exact ⟨_, _, _, _, s, made, moves.trans (moves_drift _ same)⟩

/-- Compositions are sound. -/
theorem sound (h : w.Reachable) (stock : w.InStock) :
    w.session.composition.Sound := by
  obtain ⟨_, _, _, _, s, made, moves⟩ := h.exists_moves
  exact moves.sound stock (sound_ofLayers made)

/-- What reorderings hold is faithful. -/
theorem faithful (h : w.Reachable) (stock : w.InStock) (n : Nat) :
    (w.transaction n).Faithful w.session := by
  induction h generalizing n with
  | start made => exact trivial
  | drift engine same reachable ih =>
    exact (ih stock n).moves (moves_drift _ same)
  | @perform w command reachable ih =>
    have before : w.InStock :=
      Nat.lt_of_le_of_lt (moves_perform w command).next_le stock
    have ih := ih before
    cases command with
    | session command => exact (ih n).moves (w.session.moves_perform command)
    | reorder m command =>
      simp only [Workspace.perform, transaction_insert]
      split
      · exact (ih m).perform (reachable.sound before) command
      · exact (ih n).moves (Transaction.moves_perform _ _ command)

/-- Commands carried out in turn lead from a reachable workspace to a
reachable one. -/
theorem run (h : w.Reachable) (commands : List Command) :
    (w.run commands).2.Reachable := by
  induction commands generalizing w with
  | nil => exact h
  | cons command rest ih => exact ih (h.perform command)

end Reachable

/-! ## From one workspace to a later one -/

/-- What users or the engine make of a workspace at once. -/
inductive Step (w : Workspace σ ρ) : Workspace σ ρ → Prop where
  | perform (command : Command) : Step w (w.perform command).2
  /-- The engine changes by itself. -/
  | drift (engine : σ) (same : SameManifest w.session.engine engine) :
      Step w { w with session := { w.session with engine := engine } }

/-- A workspace comes about from another one, step by step. -/
def Leads : Workspace σ ρ → Workspace σ ρ → Prop :=
  Relation.ReflTransGen Step

theorem Step.moves {w w' : Workspace σ ρ} (h : w.Step w') :
    w.session.Moves w'.session := by
  cases h with
  | perform command => exact moves_perform w command
  | drift engine same => exact moves_drift w.session same

theorem Leads.moves {w w' : Workspace σ ρ} (h : w.Leads w') :
    w.session.Moves w'.session := by
  induction h with
  | refl => exact .refl _
  | tail _ step ih => exact ih.trans step.moves

end Compositing.Workspace
