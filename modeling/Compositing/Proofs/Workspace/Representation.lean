/-
Compositing.Proofs.Workspace.Representation — the stack over whole runs.

The stack of a reachable workspace is well-formed, and its base stays: the
one command that gives the stack another base is the one that replaces
all layers. A dropped candidate keeps the base, and so does the snapshot
that is restored when the candidate is refused.
-/
import Compositing.Proofs.Layer.Representation
import Compositing.Proofs.Reorder.AllOrNothing
import Compositing.Proofs.Session.Updates
import Compositing.Proofs.Workspace.Simulated

namespace Compositing

/-- Put other layers in place of all. -/
def SessionCommand.Replaces : SessionCommand → Prop
  | .setLayers layers => ∃ stack, LayerStack.ofLayers layers = .ok stack
  | _ => False

/-- Put other layers in place of all. -/
def Command.Replaces : Command → Prop
  | .session command => command.Replaces
  | .reorder _ _ => False

/-! ## Sessions -/

namespace Session

variable {σ ρ : Type} {s s' : Session σ ρ}

theorem base?_touch {α : Type} {change : Edit α}
    (keeps : Edit.KeepsBase change) (nonempty : s.stack.order ≠ []) :
    (s.touch change).2.stack.base? = s.stack.base? :=
  keeps s.composition nonempty

variable [EffectEngine σ]

theorem Fed.stack_eq (h : s.Fed s') : s'.stack = s.stack := by
  cases h
  rfl

theorem base?_updating {change : Edit Unit} (keeps : Edit.KeepsBase change)
    (nonempty : s.stack.order ≠ [])
    {follow : Session σ ρ → Except Error Bool × Session σ ρ}
    (fed : ∀ s : Session σ ρ, s.Fed (follow s).2) :
    (s.updating change follow).2.stack.base? = s.stack.base? := by
  have touched := base?_touch keeps nonempty
  unfold updating
  split
  · rename_i e s' eq
    rwa [eq] at touched
  · rename_i s' eq
    rw [eq] at touched
    rw [(fed s').stack_eq]
    exact touched

variable [TextRasterizer ρ]

theorem stack_rebuild (force : Bool) (s : Session σ ρ) :
    (s.rebuild force).2.stack = s.stack :=
  congrArg Composition.stack (composition_rebuild force s)

theorem base?_edit {α : Type} {change : Edit α}
    (keeps : Edit.KeepsBase change) (nonempty : s.stack.order ≠ []) :
    (s.edit change).2.stack.base? = s.stack.base? := by
  have touched := base?_touch keeps nonempty
  unfold edit
  split
  · rename_i e s' eq
    rwa [eq] at touched
  · rename_i value s' eq
    rw [eq] at touched
    rw [Prod.map_snd, id, stack_rebuild]
    exact touched

/-- A command leaves the base, unless it replaces all layers. -/
theorem base?_perform (nonempty : s.stack.order ≠ [])
    {command : SessionCommand} (keeps : ¬ command.Replaces) :
    (s.perform command).2.stack.base? = s.stack.base? := by
  open Compositing.Composition in
  cases command <;> simp only [perform, answer]
  case rebuild force => rw [stack_rebuild]
  case setLayers layers =>
    unfold setLayers
    split
    · rfl
    · rename_i stack made
      exact absurd ⟨stack, made⟩ keeps
  case tryCompile text => rw [Transaction.stack_tryCompile]
  case updateParams id patch =>
    exact base?_updating (keepsBase_patchParams id patch) nonempty
      (fed_followParams id patch)
  case updateOpacity id opacity =>
    exact base?_updating (keepsBase_editLayer id _) nonempty
      (fed_followOpacity id opacity)
  case updateOffset id offset =>
    exact base?_updating (keepsBase_setOffset id offset) nonempty
      (fed_followOffset id offset)
  case refreshVideo => rw [(fed_refreshVideo s).stack_eq]
  case addLayer name source params =>
    exact base?_edit (keepsBase_addLayer name source params) nonempty
  case removeLayer id => exact base?_edit (keepsBase_removeLayer id) nonempty
  case duplicateLayer id =>
    exact base?_edit (keepsBase_duplicateLayer id) nonempty
  case extractChild child =>
    exact base?_edit (keepsBase_extractChild child) nonempty
  case setVisible id visible =>
    exact base?_edit (keepsBase_editLayer id _) nonempty
  case setChildVisible child visible =>
    exact base?_edit (keepsBase_editChild child _) nonempty
  case setBlendMode id mode =>
    exact base?_edit (keepsBase_editLayer id _) nonempty
  case setEffect id effect =>
    exact base?_edit (keepsBase_setEffect id effect) nonempty
  case addChild id effect params =>
    exact base?_edit (keepsBase_addChild id effect params) nonempty
  case removeChild child =>
    exact base?_edit (keepsBase_removeChild child) nonempty
  case rename id name =>
    exact base?_touch (keepsBase_editLayer id _) nonempty
  case setLocked id locked =>
    exact base?_touch (keepsBase_editLayer id _) nonempty
  case mint => rfl

end Session

/-! ## Reorderings -/

namespace Transaction

variable {σ ρ : Type} [EffectEngine σ] [TextRasterizer ρ]
  {t : Transaction} {s : Session σ ρ}

/-- Whatever comes of a drop, the base stays. -/
theorem base?_process (sound : s.composition.Sound)
    (faithful : t.Faithful s) :
    (t.process s).2.2.stack.base? = s.stack.base? := by
  cases t with
  | processing snapshot candidate =>
    by_cases current : s.revision = snapshot.revision
    · have ⟨_, accepted⟩ := setOrder_candidate sound faithful current
      have head := LayerStack.base?_setOrder accepted
      have attempted := allOrNothing_attempt sound faithful current
      simp only [process, if_pos current]
      generalize (attempt snapshot candidate s).1 = outcome at attempted
      cases attempted with
      | committed _ order held applied =>
        obtain ⟨-, rfl⟩ := processing.inj held
        exact (congrArg List.head? applied).trans head
      | rolledBack _ _ _ _ _ order => exact congrArg List.head? order
      | superseded _ _ held revised unchanged => rw [unchanged]
      | notProcessing free unchanged => rw [unchanged]
    · simp only [process, if_neg current]
  | _ => rfl

theorem base?_perform (sound : s.composition.Sound) (faithful : t.Faithful s)
    (command : ReorderCommand) :
    (t.perform s command).2.2.stack.base? = s.stack.base? := by
  cases command <;> simp only [perform, answer]
  case process => exact base?_process sound faithful
  case dropAndProcess target side =>
    have dropped := faithful.drop target side
    unfold dropAndProcess
    split <;> dsimp only
    rename_i t' eq
    rw [eq] at dropped
    exact base?_process sound dropped

end Transaction

/-! ## Workspaces -/

namespace Workspace

variable {σ ρ : Type} [EffectEngine σ] [TextRasterizer ρ]

/-- What users or the engine make of a workspace at once without replacing
all layers. -/
inductive EditStep (w : Workspace σ ρ) : Workspace σ ρ → Prop where
  | perform (command : Command) (keeps : ¬ command.Replaces) :
      EditStep w (w.perform command).2
  /-- The engine changes by itself. -/
  | drift (engine : σ) (same : SameManifest w.session.engine engine) :
      EditStep w { w with session := { w.session with engine := engine } }

theorem EditStep.step {w w' : Workspace σ ρ} (h : w.EditStep w') :
    w.Step w' := by
  cases h with
  | perform command keeps => exact .perform command
  | drift engine same => exact .drift engine same

theorem Reachable.step {w w' : Workspace σ ρ} (h : w.Reachable)
    (step : w.Step w') : w'.Reachable := by
  cases step with
  | perform command => exact h.perform command
  | drift engine same => exact h.drift engine same

/-- A step that does not replace all layers keeps the base. -/
theorem Reachable.base?_editStep {w w' : Workspace σ ρ} (h : w.Reachable)
    (stock : w.InStock) (step : w.EditStep w') :
    w'.session.stack.base? = w.session.stack.base? := by
  have sound := h.sound stock
  cases step with
  | drift engine same => rfl
  | perform command keeps =>
    cases command with
    | session command =>
      exact Session.base?_perform sound.stack.wellFormed.nonempty keeps
    | reorder n command =>
      exact Transaction.base?_perform sound (h.faithful stock n) command

/-- Steps that do not replace all layers keep the base, from a reachable
workspace on. -/
theorem Reachable.base?_editSteps {w w' : Workspace σ ρ} (h : w.Reachable)
    (steps : Relation.ReflTransGen EditStep w w') (stock : w'.InStock) :
    w'.Reachable ∧ w'.session.stack.base? = w.session.stack.base? := by
  induction steps with
  | refl => exact ⟨h, rfl⟩
  | tail _ step ih =>
    have before := Nat.lt_of_le_of_lt step.step.moves.next_le stock
    obtain ⟨reachable, same⟩ := ih before
    exact ⟨reachable.step step.step,
      (reachable.base?_editStep before step).trans same⟩

/-- The stack of a reachable workspace is well-formed, and its base stays
through whatever happens until a list of layers replaces it; then the base
is the first of them. -/
theorem Reachable.wellFormed_and_base_kept {w : Workspace σ ρ}
    (h : w.Reachable) (stock : w.InStock) :
    w.session.stack.WellFormed ∧
    (∀ w', w.EditStep w' →
      w'.session.stack.base? = w.session.stack.base?) ∧
    (∀ w', Relation.ReflTransGen EditStep w w' → w'.InStock →
      w'.session.stack.base? = w.session.stack.base?) ∧
    ∀ layers stack, LayerStack.ofLayers layers = .ok stack →
      (w.perform (.session (.setLayers layers))).2.session.stack.base? =
        layers.head?.map (·.id) := by
  refine ⟨(h.sound stock).stack.wellFormed,
    fun w' step => h.base?_editStep stock step,
    fun w' steps stock' => (h.base?_editSteps steps stock').2, ?_⟩
  intro layers stack made
  obtain ⟨-, rfl⟩ := LayerStack.ofLayers_eq_ok_iff.mp made
  show (w.session.setLayers layers).2.stack.base? = _
  rw [Transaction.stack_setLayers made]
  exact List.head?_map

/-- A drop that is committed reorders the layers above the base; the same
layers upside down have another base. -/
theorem Reachable.wellFormed_and_base_kept_of_drop :
    let w := ((simulated {} Simulated.layers).run
      [.session (.rebuild false),
        .reorder 0 (.dragStart (.ofNat 3)),
        .reorder 0 (.drop (.ofNat 1) .above)]).2
    let next := (w.perform (.reorder 0 .process)).2
    let reversed := Simulated.layers.reverse
    w.Reachable ∧ w.InStock ∧ w.EditStep next ∧
      w.session.stack.WellFormed ∧
      next.session.stack.order = [.ofNat 1, .ofNat 3, .ofNat 2] ∧
      next.session.stack.base? = some (.ofNat 1) ∧
      LayerStack.ofLayers reversed = .ok (LayerStack.ofStackable reversed) ∧
      (w.perform (.session (.setLayers reversed))).2.session.stack.base? =
        some (.ofNat 3) := by
  intro w next reversed
  have reachable : w.Reachable :=
    (reachable_simulated _ Simulated.stackable_layers).run _
  have stock : w.InStock := by
    decide +kernel
  have step : w.EditStep next := .perform _ id
  have base : w.session.stack.base? = some (.ofNat 1) := by
    decide +kernel
  have order : next.session.stack.order = [.ofNat 1, .ofNat 3, .ofNat 2] := by
    decide +kernel
  have stackable : Stackable reversed := by
    decide +kernel
  have made := LayerStack.ofLayers_eq_ok_iff.mpr ⟨stackable, rfl⟩
  obtain ⟨wellFormed, kept, -, replaced⟩ :=
    reachable.wellFormed_and_base_kept stock
  exact ⟨reachable, stock, step, wellFormed, order,
    (kept next step).trans base, made, replaced reversed _ made⟩

end Workspace

end Compositing
