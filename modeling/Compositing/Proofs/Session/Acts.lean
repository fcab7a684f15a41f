/-
Compositing.Proofs.Session.Acts — operations one by one.

Where `Move`s tell only what a session may become, an `Act` is one of the
operations themselves: a rebuild, a trial, an update that pushes, new
video frames. What changes the composition otherwise either relabels it,
so that its program stays as it was, or revises it and leaves the session
stale. Every command is a sequence of acts (`acts_perform`), and an
invariant that depends on what was asked of the engine is proved by going
through the acts once (`Acts.keep`).
-/
import Compositing.Proofs.Program.Traces
import Compositing.Proofs.Workspace.Reachable

namespace Compositing

/-! ## Labels -/

/-- A layer without its name and its lock. -/
def Layer.unlabelled (l : Layer) : Layer :=
  { l with name := "", locked := false }

namespace Program

variable (catalog : Catalog) (fallback : EffectId)

/-- Names and locks leave no trace in a program. -/
theorem ofLayers_unlabelled (layers : List Layer) :
    ofLayers catalog fallback (layers.map Layer.unlabelled) =
      ofLayers catalog fallback layers := by
  have twins : ∀ l : Layer, Twins catalog fallback l l.unlabelled :=
    fun _ => ⟨rfl, rfl, rfl, rfl, rfl, rfl, fun _ => rfl⟩
  exact ofLayers_map twins (fun _ => rfl) layers

end Program

namespace Composition

/-- What becomes of a composition when only names and locks change. -/
structure Relabels (c c' : Composition) : Prop extends Retains c c' where
  labels : c'.layers.map Layer.unlabelled = c.layers.map Layer.unlabelled

theorem Relabels.of_stack_eq {c c' : Composition} (stack : c'.stack = c.stack)
    (next_le : c.ids.next ≤ c'.ids.next) : c.Relabels c' where
  toRetains := .of_stack_eq stack next_le
  labels := by
    unfold layers
    rw [stack]

/-- The program stays as it was. -/
theorem Relabels.ofLayers_eq {c c' : Composition} (h : c.Relabels c')
    (catalog : Catalog) (fallback : EffectId) :
    Program.ofLayers catalog fallback c'.layers =
      Program.ofLayers catalog fallback c.layers := by
  rw [← Program.ofLayers_unlabelled, h.labels, Program.ofLayers_unlabelled]

theorem relabels_editLayer {id : LayerId} {f : Layer → Layer}
    (neutral : Edit.Neutral (editLayer id f))
    (labels : ∀ l, (f l).unlabelled = l.unlabelled) (c : Composition) :
    c.Relabels (editLayer id f c).2 := by
  refine ⟨neutral c, ?_⟩
  unfold editLayer
  split
  · exact map_toList_modify c.stack id labels
  · rfl

theorem relabels_rename (id : LayerId) (name : String) (c : Composition) :
    c.Relabels (rename id name c).2 :=
  relabels_editLayer (neutral_rename id name) (fun _ => rfl) c

theorem relabels_setLocked (id : LayerId) (locked : Bool)
    (c : Composition) : c.Relabels (setLocked id locked c).2 :=
  relabels_editLayer (neutral_setLocked id locked) (fun _ => rfl) c

end Composition

namespace Session

variable {σ ρ : Type} [EffectEngine σ] [TextRasterizer ρ]

/-! ## Acts -/

/-- One operation on a session. -/
inductive Act (s : Session σ ρ) : Session σ ρ → Prop where
  | rebuild (force : Bool) : Act s (s.rebuild force).2
  | trial (text : String) : Act s (s.tryCompile text).2
  | patch (id : LayerId) (patch : Params) :
      Act s (s.updateParams id patch).2
  | opacity (id : LayerId) (opacity : Float) :
      Act s (s.updateOpacity id opacity).2
  | offset (id : LayerId) (offset : Offset) :
      Act s (s.updateOffset id offset).2
  | video : Act s s.refreshVideo.2
  /-- Names and locks change, or identities are used up. -/
  | relabel (composition : Composition)
      (relabels : s.composition.Relabels composition) :
      Act s { s with composition := composition }
  /-- The structure of the composition changes. -/
  | revise (composition : Composition)
      (evolves : s.composition.Evolves composition) :
      Act s { s with composition := composition }.invalidate
  /-- Users are told something. -/
  | notify (reason : String) : Act s (s.log (.notify reason))
  /-- The engine changes by itself. -/
  | drift (engine : σ) (same : SameManifest s.engine engine) :
      Act s { s with engine := engine }

/-- Operations one after another. -/
def Acts : Session σ ρ → Session σ ρ → Prop :=
  Relation.ReflTransGen Act

theorem Acts.refl (s : Session σ ρ) : s.Acts s :=
  Relation.ReflTransGen.refl

theorem Acts.trans {a b c : Session σ ρ} (h : a.Acts b) (h' : b.Acts c) :
    a.Acts c :=
  Relation.ReflTransGen.trans h h'

theorem Act.acts {s s' : Session σ ρ} (h : s.Act s') : s.Acts s' :=
  Relation.ReflTransGen.single h

/-- An act is made of moves. -/
theorem Act.moves {s s' : Session σ ρ} (h : s.Act s') : s.Moves s' := by
  cases h with
  | rebuild force => exact moves_rebuild force s
  | trial text => exact moves_tryCompile text s
  | patch id patch => exact moves_updateParams id patch s
  | opacity id opacity => exact moves_updateOpacity id opacity s
  | offset id offset => exact moves_updateOffset id offset s
  | video => exact moves_refreshVideo s
  | relabel composition relabels =>
    exact (Move.touch composition relabels.toRetains).moves
  | revise composition evolves => exact (Move.edit composition evolves).moves
  | notify reason =>
    refine (Move.ask [.notify reason] s.engine (fun e mem => ?_)
      (.refl _)).moves
    rw [List.mem_singleton.mp mem]
    rfl
  | drift engine same => exact Workspace.moves_drift s same

theorem Acts.moves {s s' : Session σ ρ} (h : s.Acts s') : s.Moves s' := by
  induction h with
  | refl => exact .refl s
  | tail _ act ih => exact ih.trans act.moves

/-- What one act keeps while identities have not run out, acts one after
another keep. The composition is sound all the while. -/
theorem Acts.keep (Inv : Session σ ρ → Prop)
    (step : ∀ {s s' : Session σ ρ}, s.Act s' → s.composition.Sound →
      s'.composition.Sound → Inv s → Inv s')
    {s s' : Session σ ρ} (h : s.Acts s')
    (bound : s'.composition.ids.next < LayerId.bound)
    (sound : s.composition.Sound) (inv : Inv s) :
    Inv s' := by
  suffices both : s'.composition.Sound ∧ Inv s' from both.2
  induction h with
  | refl => exact ⟨sound, inv⟩
  | @tail b c _ act ih =>
    obtain ⟨sound, inv⟩ :=
      ih (Nat.lt_of_le_of_lt act.moves.next_le bound)
    have sound' := act.moves.sound bound sound
    exact ⟨sound', step act sound sound' inv⟩

/-! ## Commands -/

theorem acts_setLayers (layers : List Layer) (s : Session σ ρ) :
    s.Acts (s.setLayers layers).2 := by
  unfold setLayers
  split
  · exact .refl s
  · rename_i stack made
    exact (Act.revise _ (evolves_ofStack s.composition made)).acts.trans
      (Act.rebuild true).acts

theorem acts_edit {α : Type} {change : Edit α} (lawful : Edit.Lawful change)
    (s : Session σ ρ) : s.Acts (s.edit change).2 := by
  unfold edit
  split
  · rename_i e s' touched
    simp only [touch, Prod.mk.injEq] at touched
    obtain ⟨refused, rfl⟩ := touched
    have stack := lawful.refused (Prod.ext refused rfl)
    exact (Act.relabel _
      (.of_stack_eq stack (lawful.evolves s.composition).next_le)).acts
  · rename_i value s' touched
    simp only [touch, Prod.mk.injEq] at touched
    obtain ⟨-, rfl⟩ := touched
    have act := (Act.revise _ (lawful.evolves s.composition)).acts
    dsimp only [Prod.map, id]
    exact act.trans (Act.rebuild false).acts

/-- Whatever users do to a session is a sequence of acts. -/
theorem acts_perform (s : Session σ ρ) (command : SessionCommand) :
    s.Acts (s.perform command).2 := by
  open Compositing.Composition in
  cases command <;> simp only [perform, answer]
  case rebuild force => exact (Act.rebuild force).acts
  case setLayers layers => exact acts_setLayers layers s
  case tryCompile text => exact (Act.trial text).acts
  case updateParams id patch => exact (Act.patch id patch).acts
  case updateOpacity id opacity => exact (Act.opacity id opacity).acts
  case updateOffset id offset => exact (Act.offset id offset).acts
  case refreshVideo => exact Act.video.acts
  case addLayer name source params =>
    exact acts_edit (lawful_addLayer name source params) s
  case removeLayer id => exact acts_edit (lawful_removeLayer id) s
  case duplicateLayer id => exact acts_edit (lawful_duplicateLayer id) s
  case extractChild child => exact acts_edit (lawful_extractChild child) s
  case setVisible id visible =>
    exact acts_edit (lawful_setVisible id visible) s
  case setChildVisible child visible =>
    exact acts_edit (lawful_setChildVisible child visible) s
  case setBlendMode id mode =>
    exact acts_edit (lawful_setBlendMode id mode) s
  case setEffect id effect => exact acts_edit (lawful_setEffect id effect) s
  case addChild id effect params =>
    exact acts_edit (lawful_addChild id effect params) s
  case removeChild child => exact acts_edit (lawful_removeChild child) s
  case rename id name =>
    exact (Act.relabel _ (relabels_rename id name s.composition)).acts
  case setLocked id locked =>
    exact (Act.relabel _ (relabels_setLocked id locked s.composition)).acts
  case mint =>
    have relabels : s.composition.Relabels s.composition.mint.2 :=
      .of_stack_eq rfl (Nat.le_succ _)
    exact (Act.relabel _ relabels).acts

end Session

namespace Transaction

open Session (Act Acts)

variable {σ ρ : Type} [EffectEngine σ] [TextRasterizer ρ]

theorem acts_rollBack (snapshot : Snapshot) (reason : String)
    (s : Session σ ρ) : s.Acts (rollBack snapshot reason s).2 :=
  (Session.acts_setLayers snapshot.layers s).trans (Act.notify reason).acts

theorem acts_commit (candidate : List LayerId) (s : Session σ ρ) :
    s.Acts (commit candidate s).2 := by
  unfold commit Session.commitOrder
  cases accepted : s.stack.setOrder candidate with
  | error e => exact .refl s
  | ok stack =>
    have ordered :=
      (Act.revise _ (Session.evolves_setOrder s.composition accepted)).acts
    exact ordered.trans (Act.rebuild true).acts

theorem acts_attempt (snapshot : Snapshot) (candidate : List LayerId)
    (s : Session σ ρ) : s.Acts (attempt snapshot candidate s).2 := by
  have tried : s.Acts (s.tryCompile _).2 :=
    (Act.trial (s.programOf (s.stack.arranged candidate)).text).acts
  unfold attempt
  dsimp only
  split
  · rename_i e s' eq
    rw [eq] at tried
    exact tried.trans (acts_rollBack snapshot _ s')
  · rename_i s' eq
    rw [eq] at tried
    have committed := acts_commit candidate s'
    split
    · rename_i report s'' eq'
      rw [eq'] at committed
      exact tried.trans committed
    · rename_i e s'' eq'
      rw [eq'] at committed
      exact (tried.trans committed).trans (acts_rollBack snapshot _ s'')

theorem acts_process (t : Transaction) (s : Session σ ρ) :
    s.Acts (t.process s).2.2 := by
  cases t <;> simp only [process]
  case processing snapshot candidate =>
    split <;> dsimp only
    · exact acts_attempt snapshot candidate s
    · exact .refl s
  all_goals exact .refl s

/-- Whatever users do to a reordering is a sequence of acts. -/
theorem acts_perform (t : Transaction) (s : Session σ ρ)
    (command : ReorderCommand) : s.Acts (t.perform s command).2.2 := by
  cases command <;> simp only [perform, answer]
  case process => exact acts_process t s
  case dropAndProcess target side =>
    unfold dropAndProcess
    split <;> dsimp only
    · rename_i t' _
      exact acts_process t' s
    · exact .refl s
  all_goals exact .refl s

end Transaction

namespace Workspace

variable {σ ρ : Type} [EffectEngine σ] [TextRasterizer ρ]

/-- The session of a performed command comes about by acts. -/
theorem acts_perform (w : Workspace σ ρ) (command : Command) :
    w.session.Acts (w.perform command).2.session := by
  cases command with
  | session command => exact w.session.acts_perform command
  | reorder n command =>
    exact Transaction.acts_perform (w.transaction n) w.session command

/-- The session of a reachable workspace comes about by acts from a new
one. -/
theorem Reachable.exists_acts {w : Workspace σ ρ} (h : w.Reachable) :
    ∃ (engine : σ) (rasterizer : Option ρ) (config : Config)
      (layers : List Layer) (s : Session σ ρ),
      Session.ofLayers engine rasterizer config layers = .ok s ∧
        s.Acts w.session := by
  induction h with
  | start made => exact ⟨_, _, _, _, _, made, .refl _⟩
  | perform command reachable ih =>
    obtain ⟨_, _, _, _, s, made, acts⟩ := ih
    exact ⟨_, _, _, _, s, made, acts.trans (acts_perform _ command)⟩
  | drift engine same reachable ih =>
    obtain ⟨_, _, _, _, s, made, acts⟩ := ih
    exact ⟨_, _, _, _, s, made, acts.trans (Session.Act.drift engine same).acts⟩

end Workspace

end Compositing
