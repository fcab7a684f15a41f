/-
Compositing.Proofs.Workspace.Refusals — refused commands change nothing.

Why a command is refused is a property of the list of layers alone
(`objection?`). A command that is refused leaves the workspace as it was:
no layer, no program and no step map changes, and neither the engine nor
the rasterizer nor the users hear of it. Only the identity that a new
child effect would have had is used up.
-/
import Compositing.Proofs.Layer.Refusals
import Compositing.Proofs.Session.Updates
import Compositing.Proofs.Workspace.Simulated

namespace Compositing

/-- The error of a list that makes no stack. -/
def unstackable? (layers : List Layer) : Option Error :=
  match LayerStack.ofLayers layers with
  | .ok _ => none
  | .error e => some e

/-- Why a session over some layers refuses a command, if it does. -/
def SessionCommand.objection? (layers : List Layer) :
    SessionCommand → Option Error
  | .setLayers new => unstackable? new
  | .updateParams id _ =>
    if HasChild layers id then none else missingLayer? layers id
  | .updateOffset id _ =>
    if IsLocked layers id then some (.lockedLayer id)
    else missingLayer? layers id
  | .removeLayer id =>
    if IsBase layers id then some .baseRemoval
    else missingLayer? layers id
  | .setEffect id _ =>
    if ShowsMedia layers id then some (.mediaLayer id)
    else missingLayer? layers id
  | .updateOpacity id _ | .duplicateLayer id | .setVisible id _
  | .setBlendMode id _ | .addChild id _ _ | .rename id _
  | .setLocked id _ => missingLayer? layers id
  | .extractChild child | .setChildVisible child _ | .removeChild child =>
    missingChild? layers child
  | .rebuild _ | .tryCompile _ | .refreshVideo | .addLayer _ _ _ | .mint =>
    none

/-- The identities left when a command is refused. -/
def SessionCommand.idsLeft (ids : IdSource) : SessionCommand → IdSource
  | .addChild _ _ _ => ids.mint.2
  | _ => ids

/-- The command compiles whatever it is given, so that the engine may
refuse it as well. -/
def SessionCommand.asksEngine : SessionCommand → Bool
  | .rebuild _ | .setLayers _ | .tryCompile _ => true
  | _ => false

/-- The error with which a command was refused. An edit whose recompile
fails was not refused. -/
def Reply.refusal? : Reply → Option Error
  | .rebuilt (.error e) | .done (.error e) | .updated (.error e)
  | .created (.error e) | .removedLayer (.error e)
  | .removedChild (.error e) | .changed (.error e) => some e
  | _ => none

namespace Session

variable {σ ρ : Type} {s : Session σ ρ}

/-- The session with other identities to hand out. -/
def withIds (s : Session σ ρ) (ids : IdSource) : Session σ ρ :=
  { s with composition := { s.composition with ids := ids } }

theorem answers_touch {α : Type} {change : Edit α} {reason? : Option Error}
    {ids : IdSource}
    (h : Answers reason? { s.composition with ids := ids }
      (change s.composition)) :
    Answers reason? (s.withIds ids) (s.touch change) := by
  cases reason? with
  | none => exact h
  | some e =>
    have refused : change s.composition = (.error e, _) := h
    unfold touch
    rw [refused]
    rfl

variable [EffectEngine σ] [TextRasterizer ρ]

/-- An edit is refused before anything is compiled, or not at all. -/
theorem answers_edit {α : Type} {change : Edit α} {reason? : Option Error}
    {ids : IdSource}
    (h : Answers reason? { s.composition with ids := ids }
      (change s.composition)) :
    Answers reason? (s.withIds ids) (s.edit change) := by
  have touched := answers_touch h
  unfold edit
  cases reason? with
  | none =>
    obtain ⟨value, accepted⟩ := touched
    split
    · rename_i e s' eq
      rw [eq] at accepted
      cases accepted
    · exact ⟨_, Prod.map_fst _ _ _⟩
  | some e =>
    have refused : s.touch change = (.error e, _) := touched
    rw [refused]
    rfl

omit [EffectEngine σ] [TextRasterizer ρ] in
/-- An update is refused before anything is pushed, or not at all. -/
theorem answers_updating {change : Edit Unit} {reason? : Option Error}
    (h : Answers reason? s.composition (change s.composition))
    {follow : Session σ ρ → Except Error Bool × Session σ ρ}
    (ok : ∀ s, ∃ pushed, (follow s).1 = .ok pushed) :
    Answers reason? s (s.updating change follow) := by
  have touched : Answers reason? s (s.touch change) := answers_touch h
  unfold updating
  cases reason? with
  | none =>
    obtain ⟨value, accepted⟩ := touched
    split
    · rename_i e s' eq
      rw [eq] at accepted
      cases accepted
    · exact ok _
  | some e =>
    have refused : s.touch change = (.error e, s) := touched
    rw [refused]
    rfl

/-! ## Commands -/

omit [EffectEngine σ] [TextRasterizer ρ] in
/-- What the reply to an operation says of its refusal. -/
theorem refusal?_answer {α : Type} {tag : Except Error α → Reply}
    (refused : ∀ e, (tag (.error e)).refusal? = some e)
    (accepted : ∀ value, (tag (.ok value)).refusal? = none)
    {reason? : Option Error} {left : Session σ ρ}
    {result : Except Error α × Session σ ρ} (h : Answers reason? left result) :
    (answer tag result).1.refusal? = reason? ∧
      ∀ e, reason? = some e → (answer tag result).2 = left := by
  cases reason? with
  | none =>
    obtain ⟨value, eq⟩ := h
    refine ⟨?_, nofun⟩
    rw [answer, eq]
    exact accepted value
  | some e =>
    have eq : result = (.error e, left) := h
    rw [eq]
    exact ⟨refused e, fun _ _ => rfl⟩

/-- What the reply to an edit says of its refusal. -/
theorem refusal?_edit {α : Type} {tag : Except Error (Edited α) → Reply}
    {change : Edit α} (refused : ∀ e, (tag (.error e)).refusal? = some e)
    (accepted : ∀ value, (tag (.ok value)).refusal? = none)
    {reason? : Option Error} {ids : IdSource}
    (h : Answers reason? { s.composition with ids := ids }
      (change s.composition)) :
    (answer tag (s.edit change)).1.refusal? = reason? ∧
      ∀ e, reason? = some e →
        (answer tag (s.edit change)).2 = s.withIds ids :=
  refusal?_answer refused accepted (answers_edit h)

/-- Commands that the engine has no say in are refused for their objection
and nothing else. -/
theorem refusal?_perform (h : s.stack.Coherent) (command : SessionCommand)
    (own : command.asksEngine = false) :
    (s.perform command).1.refusal? = command.objection? s.layers ∧
      ∀ e, command.objection? s.layers = some e →
        (s.perform command).2 =
          s.withIds (command.idsLeft s.composition.ids) := by
  open Compositing.Composition in
  cases command
  case rebuild | setLayers | tryCompile => cases own
  case refreshVideo | mint => exact ⟨rfl, nofun⟩
  case updateParams id patch =>
    rw [Session.perform, updateParams_eq]
    exact refusal?_answer (fun _ => rfl) (fun _ => rfl)
      (answers_updating (answers_patchParams h id patch)
        (exists_followParams_eq_ok id patch))
  case updateOpacity id opacity =>
    rw [Session.perform, updateOpacity_eq]
    exact refusal?_answer (fun _ => rfl) (fun _ => rfl)
      (answers_updating (answers_editLayer h id _)
        (exists_followOpacity_eq_ok id opacity))
  case updateOffset id offset =>
    rw [Session.perform, updateOffset_eq]
    exact refusal?_answer (fun _ => rfl) (fun _ => rfl)
      (answers_updating (answers_setOffset h id offset)
        (exists_followOffset_eq_ok id offset))
  case addLayer name source params =>
    have answers : Answers none s.composition
        (addLayer name source params s.composition) := ⟨_, rfl⟩
    exact refusal?_edit (fun _ => rfl) (fun _ => rfl) answers
  case removeLayer id =>
    exact refusal?_edit (fun _ => rfl) (fun _ => rfl)
      (answers_removeLayer h id)
  case duplicateLayer id =>
    exact refusal?_edit (fun _ => rfl) (fun _ => rfl)
      (answers_duplicateLayer h id)
  case extractChild child =>
    exact refusal?_edit (fun _ => rfl) (fun _ => rfl)
      (answers_extractChild h child)
  case setVisible id visible =>
    exact refusal?_edit (fun _ => rfl) (fun _ => rfl)
      (answers_editLayer h id _)
  case setChildVisible child visible =>
    exact refusal?_edit (fun _ => rfl) (fun _ => rfl)
      (answers_editChild s.composition child _)
  case setBlendMode id mode =>
    exact refusal?_edit (fun _ => rfl) (fun _ => rfl)
      (answers_editLayer h id _)
  case setEffect id effect =>
    exact refusal?_edit (fun _ => rfl) (fun _ => rfl)
      (answers_setEffect h id effect)
  case addChild id effect params =>
    exact refusal?_edit (fun _ => rfl) (fun _ => rfl)
      (answers_addChild h id effect params)
  case removeChild child =>
    exact refusal?_edit (fun _ => rfl) (fun _ => rfl)
      (answers_removeChild h child)
  case rename id name =>
    exact refusal?_answer (fun _ => rfl) (fun _ => rfl)
      (answers_touch (answers_editLayer h id _))
  case setLocked id locked =>
    exact refusal?_answer (fun _ => rfl) (fun _ => rfl)
      (answers_touch (answers_editLayer h id _))

/-- A rebuild is no change of the structure. -/
theorem revision_rebuild (force : Bool) (s : Session σ ρ) :
    (s.rebuild force).2.revision = s.revision := by
  cases eq : s.rebuild force with
  | mk result s' =>
    cases rebuilt_of_rebuild eq with
    | committed events engine quiet same s' fed =>
      cases fed
      rfl
    | _ => rfl

/-- Layers that make no stack are refused before anything else happens. -/
theorem setLayers_of_unstackable {layers : List Layer} {e : Error}
    (bad : unstackable? layers = some e) :
    s.setLayers layers = (.error e, s) := by
  unfold unstackable? at bad
  unfold setLayers
  cases made : LayerStack.ofLayers layers with
  | ok stack =>
    rw [made] at bad
    cases bad
  | error e' =>
    rw [made] at bad
    obtain rfl := Option.some.inj bad
    rfl

/-- Layers that make a stack are in place, whatever the engine then makes of
them. -/
theorem setLayers_of_stackable {layers : List Layer}
    (good : unstackable? layers = none) :
    (s.setLayers layers).2.layers = layers ∧
      (s.setLayers layers).2.revision = s.revision + 1 := by
  unfold unstackable? at good
  unfold setLayers
  cases made : LayerStack.ofLayers layers with
  | error e =>
    rw [made] at good
    cases good
  | ok stack =>
    dsimp only
    rw [Session.layers, composition_rebuild, revision_rebuild]
    exact ⟨LayerStack.toList_of_ofLayers made, rfl⟩

end Session

namespace Workspace

variable {σ ρ : Type} [EffectEngine σ] [TextRasterizer ρ]

/-- A command is refused exactly for its objection to the layers, and a
refused command changes nothing but the identities left. Layers without an
objection take the place of the others, even if the engine then refuses
their program. -/
theorem Reachable.perform_refused_iff_objection {w : Workspace σ ρ}
    (h : w.Reachable) (stock : w.InStock) (command : SessionCommand) :
    (command.asksEngine = false →
      (w.perform (.session command)).1.refusal? =
        command.objection? w.session.layers) ∧
    (∀ e, command.objection? w.session.layers = some e →
      (w.perform (.session command)).1.refusal? = some e ∧
        (w.perform (.session command)).2 =
          { w with
            session := w.session.withIds
              (command.idsLeft w.session.composition.ids) }) ∧
    ∀ layers, command = .setLayers layers →
      command.objection? w.session.layers = none →
        (w.perform (.session command)).2.session.layers = layers ∧
          (w.perform (.session command)).2.session.revision =
            w.session.revision + 1 := by
  have coherent := (h.sound stock).stack.coherent
  refine ⟨fun own => ?_, fun e objection => ?_, ?_⟩
  · exact (Session.refusal?_perform coherent command own).1
  · cases asks : command.asksEngine with
    | false =>
      obtain ⟨refused, left⟩ := Session.refusal?_perform coherent command asks
      refine ⟨refused.trans objection, ?_⟩
      rw [← left e objection]
      rfl
    | true =>
      cases command with
      | setLayers layers =>
        have refused : w.session.setLayers layers = (.error e, w.session) :=
          Session.setLayers_of_unstackable objection
        simp only [Workspace.perform, Session.perform, answer, refused]
        exact ⟨rfl, rfl⟩
      | rebuild force => cases objection
      | tryCompile text => cases objection
      | _ => cases asks
  · rintro layers rfl accepted
    exact Session.setLayers_of_stackable accepted

/-- A filter for a layer that is not there uses up an identity; layers that
make a stack take the place of the others. -/
theorem Reachable.perform_refused_of_missing_layer :
    let w := ((simulated {} Simulated.layers).run
      [.session (.rebuild false)]).2
    let refused : SessionCommand :=
      .addChild (.ofNat 9) EffectId.blend Params.empty
    let accepted : SessionCommand := .setLayers Simulated.layers
    w.Reachable ∧ w.InStock ∧ refused.asksEngine = false ∧
      refused.objection? w.session.layers =
        some (.unknownLayer (.ofNat 9)) ∧
      accepted.objection? w.session.layers = none ∧
      (w.perform (.session refused)).1.refusal? =
        some (.unknownLayer (.ofNat 9)) ∧
      (w.perform (.session refused)).2 =
        { w with
          session := w.session.withIds w.session.composition.ids.mint.2 } ∧
      (w.perform (.session accepted)).2.session.layers = Simulated.layers ∧
      (w.perform (.session accepted)).2.session.revision =
        w.session.revision + 1 := by
  intro w refused accepted
  have reachable : w.Reachable :=
    (reachable_simulated _ Simulated.stackable_layers).run _
  have stock : w.InStock := by
    decide +kernel
  have objection : refused.objection? w.session.layers =
      some (.unknownLayer (.ofNat 9)) := by
    decide +kernel
  have none : accepted.objection? w.session.layers = none := by
    decide +kernel
  have refusal := reachable.perform_refused_iff_objection stock refused
  have replaced := reachable.perform_refused_iff_objection stock accepted
  exact ⟨reachable, stock, rfl, objection, none,
    (refusal.1 rfl).trans objection, (refusal.2.1 _ objection).2,
    replaced.2.2 _ rfl none⟩

end Workspace

end Compositing
