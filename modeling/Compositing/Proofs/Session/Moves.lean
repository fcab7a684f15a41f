/-
Compositing.Proofs.Session.Moves — what operations are made of.

Every operation of a session, and every step of a reordering on it, is a
sequence of a few `Move`s: the engine is asked for something that leaves
the pipeline in place, the running pipeline is fed, a trial or the
session's own program is accepted, or the composition changes. An
invariant of all runs is proved by going through the moves once.
-/
import Mathlib.Logic.Relation
import Compositing.Proofs.Layer.Edits
import Compositing.Proofs.Session.Requests
import Compositing.Workspace

namespace Compositing.Session

variable {σ ρ : Type} [EffectEngine σ]

/-- A smallest change of a session. -/
inductive Move (s : Session σ ρ) : Session σ ρ → Prop where
  /-- The running pipeline stays in place. -/
  | ask (events : List Event) (engine : σ)
      (quiet : ∀ e ∈ events, e.isQuiet = true)
      (same : SameManifest s.engine engine) : Move s (s.asked events engine)
  /-- The running pipeline is the session's own and is fed. -/
  | feed (s' : Session σ ρ) (current : s.stepMap?.isSome = true)
      (fed : s.Fed s') : Move s s'
  /-- A trial is accepted. -/
  | trial (events : List Event) (engine : σ) (text : String)
      (quiet : ∀ e ∈ events, e.isQuiet = true)
      (same : SameManifest s.engine engine) :
      Move s
        { s.asked (events ++ [.compile text true]) engine with stale := true }
  /-- The session's own program is accepted. -/
  | commit (events : List Event) (engine : σ)
      (quiet : ∀ e ∈ events, e.isQuiet = true)
      (same : SameManifest s.engine engine) : Move s (s.adopted events engine)
  /-- The composition changes, but not its skeleton. -/
  | touch (composition : Composition)
      (retains : s.composition.Retains composition) :
      Move s { s with composition := composition }
  /-- The structure of the composition changes. -/
  | edit (composition : Composition)
      (evolves : s.composition.Evolves composition) :
      Move s { s with composition := composition }.invalidate

/-- A sequence of moves. -/
def Moves : Session σ ρ → Session σ ρ → Prop :=
  Relation.ReflTransGen Move

theorem Moves.refl (s : Session σ ρ) : s.Moves s :=
  Relation.ReflTransGen.refl

theorem Moves.trans {a b c : Session σ ρ} (h : a.Moves b) (h' : b.Moves c) :
    a.Moves c :=
  Relation.ReflTransGen.trans h h'

theorem Move.moves {s s' : Session σ ρ} (h : s.Move s') : s.Moves s' :=
  Relation.ReflTransGen.single h

/-- The source of identities never moves back. -/
theorem Move.next_le {s s' : Session σ ρ} (h : s.Move s') :
    s.composition.ids.next ≤ s'.composition.ids.next := by
  cases h with
  | feed s' current fed =>
    cases fed
    exact Nat.le_refl _
  | touch composition retains => exact retains.next_le
  | edit composition evolves => exact evolves.next_le
  | _ => exact Nat.le_refl _

theorem Moves.next_le {s s' : Session σ ρ} (h : s.Moves s') :
    s.composition.ids.next ≤ s'.composition.ids.next := by
  induction h with
  | refl => exact Nat.le_refl _
  | tail _ move ih => exact Nat.le_trans ih move.next_le

/-- What one move keeps as long as identities have not run out, a
sequence of moves keeps. -/
theorem Moves.keep (Inv : Session σ ρ → Prop)
    (step : ∀ {s s' : Session σ ρ}, s.Move s' →
      s'.composition.ids.next < LayerId.bound → Inv s → Inv s')
    {s s' : Session σ ρ} (h : s.Moves s')
    (bound : s'.composition.ids.next < LayerId.bound) (inv : Inv s) :
    Inv s' := by
  induction h with
  | refl => exact inv
  | tail _ move ih =>
    exact step move bound (ih (Nat.lt_of_le_of_lt move.next_le bound))

/-- Compositions stay sound. -/
theorem Moves.sound {s s' : Session σ ρ} (h : s.Moves s')
    (bound : s'.composition.ids.next < LayerId.bound)
    (sound : s.composition.Sound) : s'.composition.Sound := by
  refine h.keep (fun s => s.composition.Sound) ?_ bound sound
  intro s s' move bound sound
  cases move with
  | feed s' current fed =>
    cases fed
    exact sound
  | touch composition retains => exact retains.sound sound bound
  | edit composition evolves => exact evolves.sound sound bound
  | _ => exact sound

/-! ## Reading the step map -/

omit [EffectEngine σ] in
theorem stale_of_isSome_stepMap? {s : Session σ ρ}
    (h : s.stepMap?.isSome = true) : s.stale = false := by
  cases stale : s.stale with
  | false => rfl
  | true => simp [stepMap?, stale] at h

omit [EffectEngine σ] in
theorem isSome_stepMap?_of_step? {s : Session σ ρ} {id : LayerId} {step : Nat}
    (h : s.step? id = some step) : s.stepMap?.isSome = true := by
  obtain ⟨map, current, -⟩ := Option.bind_eq_some_iff.mp h
  rw [current]
  rfl

omit [EffectEngine σ] in
theorem isSome_stepMap?_of_blendStep? {s : Session σ ρ} {id : LayerId}
    {step : Nat} (h : s.blendStep? id = some step) :
    s.stepMap?.isSome = true := by
  obtain ⟨map, current, -⟩ := Option.bind_eq_some_iff.mp h
  rw [current]
  rfl

omit [EffectEngine σ] in
theorem isSome_stepMap?_of_opacityPatch {s : Session σ ρ} {id : LayerId}
    {opacity : Float} {step : Nat} {patch : Params}
    (h : s.opacityPatch id opacity = (some step, patch)) :
    s.stepMap?.isSome = true := by
  unfold opacityPatch at h
  split at h
  · exact isSome_stepMap?_of_step? (Prod.mk.inj h).1
  · exact isSome_stepMap?_of_blendStep? (Prod.mk.inj h).1

/-! ## Edits -/

theorem moves_touch {α : Type} {change : Edit α}
    (neutral : Edit.Neutral change) (s : Session σ ρ) :
    s.Moves (s.touch change).2 :=
  (Move.touch _ (neutral s.composition)).moves

theorem moves_mint (s : Session σ ρ) : s.Moves s.mint.2 := by
  have retains : s.composition.Retains s.composition.mint.2 :=
    .of_stack_eq rfl (Nat.le_succ _)
  exact (Move.touch _ retains).moves

/-- Any stack that was made of a list may take the place of another
one. -/
theorem evolves_ofStack (c : Composition) {layers : List Layer}
    {stack : LayerStack} (made : LayerStack.ofLayers layers = .ok stack) :
    c.Evolves (.ofStack c.ids stack) where
  next_le := IdSource.next_le_observeAll _ _
  sound _ _ :=
    { stack := LayerStack.sound_of_ofLayers made
      covers := fun _ mem =>
        IdSource.covers_observeAll
          ((LayerStack.sound_of_ofLayers made).coherent.mem_allIds.mpr mem) }

/-- A stack may be reordered. -/
theorem evolves_setOrder (c : Composition) {order : List LayerId}
    {stack : LayerStack} (accepted : c.stack.setOrder order = .ok stack) :
    c.Evolves { c with stack := stack } where
  next_le := Nat.le_refl _
  sound h _ := by
    have perm : stack.toList.Perm c.stack.toList :=
      LayerStack.perm_toList_setOrder accepted
    refine ⟨⟨h.stack.coherent.setOrder accepted, ?_⟩, fun id mem => ?_⟩
    · exact h.stack.stackable.perm perm
    · exact h.covers id ((perm.flatMap_right Layer.ids).mem_iff.mp mem)

theorem moves_commitOrder (order : List LayerId) (s : Session σ ρ) :
    s.Moves (s.commitOrder order).2 := by
  unfold commitOrder
  split
  · exact .refl s
  · rename_i stack accepted
    exact (Move.edit _ (evolves_setOrder s.composition accepted)).moves

theorem moves_tryCompile (text : String) (s : Session σ ρ) :
    s.Moves (s.tryCompile text).2 := by
  unfold tryCompile
  obtain ⟨events, engine, quiet, same, accepted | ⟨e, refused⟩⟩ :=
    compileText_cases text s
  · rw [accepted]
    exact (Move.trial events engine text quiet same).moves
  · rw [refused]
    exact (Move.ask events engine quiet same).moves

theorem moves_feed {s s' : Session σ ρ} (current : s.stepMap?.isSome = true)
    (fed : s.Fed s') : s.Moves s' :=
  (Move.feed s' current fed).moves

theorem moves_refreshVideo (s : Session σ ρ) :
    s.Moves s.refreshVideo.2 := by
  unfold refreshVideo
  split
  · rename_i map uploads current _
    exact moves_feed (by rw [current]; rfl) (fed_uploadCounting _ s)
  · exact .refl s

/-! ## Updates -/

theorem moves_updateOpacity (id : LayerId) (opacity : Float)
    (s : Session σ ρ) : s.Moves (s.updateOpacity id opacity).2 := by
  have touched := moves_touch (Composition.neutral_setOpacity id opacity) s
  unfold updateOpacity
  split
  · rename_i e s' eq
    rwa [eq] at touched
  · rename_i s' eq
    rw [eq] at touched
    split
    · exact touched
    · rename_i step patch found
      exact touched.trans
        (moves_feed (isSome_stepMap?_of_opacityPatch found) (fed_push _ _ s'))

theorem moves_updateOffset (id : LayerId) (offset : Offset)
    (s : Session σ ρ) : s.Moves (s.updateOffset id offset).2 := by
  have touched := moves_touch (Composition.neutral_setOffset id offset) s
  unfold updateOffset
  split
  · rename_i e s' eq
    rwa [eq] at touched
  · rename_i s' eq
    rw [eq] at touched
    split
    · exact touched
    · rename_i step found
      refine touched.trans (moves_feed ?_ (fed_push _ _ s'))
      split at found
      · exact isSome_stepMap?_of_step? found
      · cases found

variable [TextRasterizer ρ]

theorem moves_updateParams (id : LayerId) (patch : Params)
    (s : Session σ ρ) : s.Moves (s.updateParams id patch).2 := by
  have touched := moves_touch (Composition.neutral_patchParams id patch) s
  unfold updateParams
  split
  · rename_i e s' eq
    rwa [eq] at touched
  · rename_i s' eq
    rw [eq] at touched
    split
    · exact touched
    · rename_i step found
      refine touched.trans
        (moves_feed (isSome_stepMap?_of_step? found) ?_)
      exact (fed_push _ _ s').trans (fed_refreshText _ _ _)

/-! ## Rebuilding -/

theorem moves_rebuild (force : Bool) (s : Session σ ρ) :
    s.Moves (s.rebuild force).2 := by
  cases eq : s.rebuild force with
  | mk result s' =>
    cases rebuilt_of_rebuild eq with
    | skipped c unforced unchanged => exact .refl _
    | refused e events engine quiet same =>
      exact (Move.ask events engine quiet same).moves
    | committed events engine quiet same s' fed =>
      exact (Move.commit events engine quiet same).moves.trans
        (moves_feed rfl fed)

theorem moves_setLayers (layers : List Layer) (s : Session σ ρ) :
    s.Moves (s.setLayers layers).2 := by
  unfold setLayers
  split
  · exact .refl s
  · rename_i stack made
    exact (Move.edit _ (evolves_ofStack s.composition made)).moves.trans
      (moves_rebuild true _)

theorem moves_edit {α : Type} {change : Edit α} (lawful : Edit.Lawful change)
    (s : Session σ ρ) : s.Moves (s.edit change).2 := by
  unfold edit
  split
  · rename_i e s' touched
    simp only [touch, Prod.mk.injEq] at touched
    obtain ⟨refused, rfl⟩ := touched
    refine (Move.touch _ ?_).moves
    exact lawful.retains_of_refused (Prod.ext refused rfl)
  · rename_i value s' touched
    simp only [touch, Prod.mk.injEq] at touched
    obtain ⟨-, rfl⟩ := touched
    have move := (Move.edit _ (lawful.evolves s.composition)).moves
    dsimp only [Prod.map, id]
    exact move.trans (moves_rebuild false _)

/-! ## Commands -/

/-- Whatever users do to a session is a sequence of moves. -/
theorem moves_perform (s : Session σ ρ) (command : SessionCommand) :
    s.Moves (s.perform command).2 := by
  cases command <;> simp only [perform, answer]
  case rebuild force => exact moves_rebuild force s
  case setLayers layers => exact moves_setLayers layers s
  case tryCompile text => exact moves_tryCompile text s
  case updateParams id patch => exact moves_updateParams id patch s
  case updateOpacity id opacity => exact moves_updateOpacity id opacity s
  case updateOffset id offset => exact moves_updateOffset id offset s
  case refreshVideo => exact moves_refreshVideo s
  case addLayer name source params =>
    exact moves_edit (Composition.lawful_addLayer name source params) s
  case removeLayer id => exact moves_edit (Composition.lawful_removeLayer id) s
  case duplicateLayer id =>
    exact moves_edit (Composition.lawful_duplicateLayer id) s
  case extractChild child =>
    exact moves_edit (Composition.lawful_extractChild child) s
  case setVisible id visible =>
    exact moves_edit (Composition.lawful_setVisible id visible) s
  case setChildVisible child visible =>
    exact moves_edit (Composition.lawful_setChildVisible child visible) s
  case setBlendMode id mode =>
    exact moves_edit (Composition.lawful_setBlendMode id mode) s
  case setEffect id effect =>
    exact moves_edit (Composition.lawful_setEffect id effect) s
  case addChild id effect params =>
    exact moves_edit (Composition.lawful_addChild id effect params) s
  case removeChild child =>
    exact moves_edit (Composition.lawful_removeChild child) s
  case rename id name => exact moves_touch (Composition.neutral_rename id name) s
  case setLocked id locked =>
    exact moves_touch (Composition.neutral_setLocked id locked) s
  case mint => exact moves_mint s

end Compositing.Session
