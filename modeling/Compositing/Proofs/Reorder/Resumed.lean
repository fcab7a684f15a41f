/-
Compositing.Proofs.Reorder.Resumed — what runs after a rollback.

A drop is given up at its trial or, once the trial was accepted, at the
commit of its order (`GivenUp`); either way the session has still the
program that it committed before. Rolling back puts the layers of the drag
in place and compiles their program. If the engine accepts it the session
has `Resumed`: it runs that program and its step map describes it. If not
the session has `Halted`: it is stale, without a step map, and has still
the program that it committed before (`process_rolledBack_resumes`).
-/
import Compositing.Proofs.Reorder.Rollback
import Compositing.Proofs.Session.Committed
import Compositing.Proofs.Session.Uploads

namespace Compositing

namespace Session

variable {σ ρ : Type}

/-! ## Putting layers in place -/

/-- The session with other layers in place of all, before it is brought up
to date. -/
def restoring (layers : List Layer) (s : Session σ ρ) : Session σ ρ :=
  invalidate
    { s with
      composition :=
        .ofStack s.composition.ids (LayerStack.ofStackable layers) }

theorem layers_restoring {layers : List Layer} (stackable : Stackable layers)
    (s : Session σ ρ) : (s.restoring layers).layers = layers :=
  LayerStack.toList_of_ofLayers
    (LayerStack.ofLayers_eq_ok_iff.mpr ⟨stackable, rfl⟩)

/-- The session is stale and has the program that it had before. -/
structure Halted (s before : Session σ ρ) : Prop where
  stale : s.stale = true
  unmapped : s.stepMap? = none
  text : s.programText? = before.programText?

theorem Halted.log {s before : Session σ ρ} (h : s.Halted before)
    (reason : String) : (s.log (.notify reason)).Halted before :=
  ⟨h.stale, h.unmapped, h.text⟩

/-- What a session has halted with, every session with the same program has
halted with. -/
theorem Halted.of_compiled_eq {s before earlier : Session σ ρ}
    (h : s.Halted before) (same : before.compiled = earlier.compiled) :
    s.Halted earlier where
  stale := h.stale
  unmapped := h.unmapped
  text := by
    rw [h.text, programText?, programText?, same]

theorem layers_log (event : Event) (s : Session σ ρ) :
    (s.log event).layers = s.layers :=
  rfl

variable [EffectEngine σ]

/-- The session runs a program that the engine accepted when the session was
`running`. -/
structure Resumed (s : Session σ ρ) (program : Program)
    (running : Session σ ρ) : Prop where
  fresh : s.stale = false
  text : s.programText? = some program.text
  /-- It is the last text that the engine accepted. -/
  accepted : s.runningText? = some program.text
  /-- The step map is that of the program on the passes that the engine
  showed, and empty if it showed none. -/
  stepMap : s.stepMap? = some
    (match EffectEngine.graph? running.engine with
    | some graph => StepMap.build program graph
    | none => {})
  /-- On a steady engine these are the passes that it shows now. -/
  graph : SteadyGraph σ →
    EffectEngine.graph? s.engine = EffectEngine.graph? running.engine
  /-- On a steady engine the program is that of the layers now. -/
  program : SteadyManifest σ → program = s.programOf s.layers

theorem Resumed.log {s running : Session σ ρ} {program : Program}
    (h : s.Resumed program running) (reason : String) :
    (s.log (.notify reason)).Resumed program running where
  fresh := h.fresh
  text := h.text
  accepted := by
    rw [runningText?, Session.log, Event.acceptedTexts_append]
    exact (congrArg List.getLast? (List.append_nil _)).trans h.accepted
  stepMap := h.stepMap
  graph := h.graph
  program := h.program

variable [TextRasterizer ρ]

theorem setLayers_eq_rebuild {layers : List Layer}
    (stackable : Stackable layers) (s : Session σ ρ) :
    s.setLayers layers = (s.restoring layers).rebuild true := by
  unfold setLayers
  rw [LayerStack.ofLayers_eq_ok_iff.mpr ⟨stackable, rfl⟩]
  rfl

theorem layers_rebuild (force : Bool) (s : Session σ ρ) :
    (s.rebuild force).2.layers = s.layers :=
  congrArg Composition.layers (composition_rebuild force s)

/-- A stale session whose program is accepted runs it after a rebuild. -/
theorem resumed_rebuild {s running : Session σ ρ} {layers : List Layer}
    (stale : s.stale = true) (placed : s.layers = layers)
    (accepted : s.compileText (s.programOf layers).text =
      (.ok (), running)) :
    (s.rebuild true).2.Resumed (s.programOf layers) running := by
  subst placed
  have built : (s.rebuild true).1 =
      .ok (running.commit (s.programOf s.layers)).1 := by
    rw [rebuild_of_accepted true stale accepted]
    rfl
  obtain ⟨quiet, engine, -, same, accepted', eq, -⟩ :=
    rebuild_eq_syncTextures built rfl
  rw [accepted] at accepted'
  obtain rfl := (Prod.mk.inj accepted').2
  have fed := fed_syncTextures (s.adopted quiet engine)
  have inStep := (InStep.adopted s quiet same).fed fed
  rw [← eq] at fed inStep
  have map := fed.stepMap?_eq
  have fresh : (s.rebuild true).2.stale = false :=
    stale_of_isSome_stepMap? (by rw [map]; rfl)
  refine ⟨fresh, ?_, inStep.running, map, fun still => ?_, fun steady => ?_⟩
  · rw [programText?, inStep.compiled]
    rfl
  · rw [eq]
    exact graph?_syncTextures still _
  · rw [layers_rebuild]
    exact inStep.program steady

/-- A stale session whose program is refused stays stale, and its program
stays. -/
theorem halted_rebuild {s halted : Session σ ρ} {layers : List Layer}
    {e : Error} (stale : s.stale = true) (placed : s.layers = layers)
    (refused : s.compileText (s.programOf layers).text =
      (.error e, halted)) :
    (s.rebuild true).2.Halted s := by
  subst placed
  have built : s.rebuild true = (.error e, halted) := by
    unfold rebuild
    simp only [if_pos, refused]
  obtain ⟨quiet, engine, -, -, accepted | ⟨e', refused'⟩⟩ :=
    compileText_cases (s.programOf s.layers).text s
  · rw [refused] at accepted
    cases (Prod.mk.inj accepted).1
  · rw [refused] at refused'
    obtain rfl := (Prod.mk.inj refused').2
    rw [built]
    exact ⟨stale, if_pos stale, rfl⟩

end Session

/-! ## Giving up -/

namespace Transaction

open Session (moves_tryCompile moves_commitOrder moves_rebuild)

variable {σ ρ : Type} [EffectEngine σ] [TextRasterizer ρ]

/-- Where a drop of a candidate is given up, with the error and what has
become of the session by then. -/
inductive GivenUp (candidate : List LayerId) (s : Session σ ρ) :
    Error → Session σ ρ → Prop where
  /-- The trial is refused. -/
  | trial {e : Error} {failed : Session σ ρ}
      (refused : s.tryCompile (s.programOf (s.stack.arranged candidate)).text =
        (.error e, failed)) :
      GivenUp candidate s e failed
  /-- The trial is accepted and the order committed, but the program of the
  committed order is refused. -/
  | commit {tried ordered : Session σ ρ} {e : Error} {failed : Session σ ρ}
      (accepted : s.tryCompile
        (s.programOf (s.stack.arranged candidate)).text = (.ok (), tried))
      (committed : tried.commitOrder candidate = (.ok (), ordered))
      (refused : ordered.rebuild true = (.error e, failed)) :
      GivenUp candidate s e failed

omit [TextRasterizer ρ] in
theorem compiled_tryCompile (text : String) (s : Session σ ρ) :
    (s.tryCompile text).2.compiled = s.compiled := by
  obtain ⟨events, engine, stale, -, eq⟩ := s.exists_tryCompile_eq text
  rw [eq]
  rfl

omit [EffectEngine σ] [TextRasterizer ρ] in
theorem compiled_commitOrder (order : List LayerId) (s : Session σ ρ) :
    (s.commitOrder order).2.compiled = s.compiled := by
  unfold Session.commitOrder
  split <;> rfl

namespace GivenUp

variable {candidate : List LayerId} {s failed : Session σ ρ} {e : Error}

theorem moves (h : GivenUp candidate s e failed) : s.Moves failed := by
  have trial := moves_tryCompile
    (s.programOf (s.stack.arranged candidate)).text s
  cases h with
  | trial refused =>
    rw [refused] at trial
    exact trial
  | @commit tried ordered _ _ accepted committed refused =>
    have order := moves_commitOrder candidate tried
    have built := moves_rebuild true ordered
    rw [accepted] at trial
    rw [committed] at order
    rw [refused] at built
    exact (trial.trans order).trans built

/-- The program that was committed before is still the session's own. -/
theorem compiled_eq (h : GivenUp candidate s e failed) :
    failed.compiled = s.compiled := by
  have trial := compiled_tryCompile
    (s.programOf (s.stack.arranged candidate)).text s
  cases h with
  | trial refused =>
    rw [refused] at trial
    exact trial
  | @commit tried ordered _ _ accepted committed refused =>
    have order := compiled_commitOrder candidate tried
    rw [accepted] at trial
    rw [committed] at order
    cases Session.rebuilt_of_rebuild refused with
    | refused e events engine quiet same => exact order.trans trial

end GivenUp

/-! ## Rolling back -/

section

variable {snapshot : Snapshot} (stackable : Stackable snapshot.layers)
  (reason : String) (s : Session σ ρ)

include stackable

/-- Rolling back puts the layers of the snapshot in place, compiles their
program and tells users. -/
theorem rollBack_eq_rebuild :
    (rollBack snapshot reason s).2 =
      ((s.restoring snapshot.layers).rebuild true).2.log (.notify reason) := by
  rw [rollBack, Session.setLayers_eq_rebuild stackable]

theorem layers_rollBack :
    (rollBack snapshot reason s).2.layers = snapshot.layers := by
  rw [rollBack_eq_rebuild stackable, Session.layers_log,
    Session.layers_rebuild, Session.layers_restoring stackable]

/-- If the program of the snapshot is accepted, the session runs it. -/
theorem resumed_rollBack {running : Session σ ρ}
    (accepted : (s.restoring snapshot.layers).compileText
      ((s.restoring snapshot.layers).programOf snapshot.layers).text =
        (.ok (), running)) :
    (rollBack snapshot reason s).2.Resumed
      ((s.restoring snapshot.layers).programOf snapshot.layers) running := by
  have placed := Session.layers_restoring stackable s
  have resumed := Session.resumed_rebuild rfl placed accepted
  rw [rollBack_eq_rebuild stackable]
  exact resumed.log reason

/-- If it is refused, the session is stale and its program stays. -/
theorem halted_rollBack {e : Error} {halted : Session σ ρ}
    (refused : (s.restoring snapshot.layers).compileText
      ((s.restoring snapshot.layers).programOf snapshot.layers).text =
        (.error e, halted)) :
    (rollBack snapshot reason s).2.Halted s := by
  have placed := Session.layers_restoring stackable s
  have stays := Session.halted_rebuild rfl placed refused
  rw [rollBack_eq_rebuild stackable]
  exact (stays.log reason).of_compiled_eq rfl

end

/-- A drop that is rolled back was given up, and then the snapshot was
restored. -/
theorem exists_givenUp {snapshot : Snapshot} {candidate : List LayerId}
    {s : Session σ ρ} {reason : String} (sound : s.composition.Sound)
    (faithful : (processing snapshot candidate).Faithful s)
    (outcome : ((processing snapshot candidate).process s).1 =
      .rolledBack reason) :
    ∃ e failed, GivenUp candidate s e failed ∧ reason = e.message ∧
      ((processing snapshot candidate).process s).2.2 =
        (rollBack snapshot e.message failed).2 := by
  by_cases current : s.revision = snapshot.revision
  · have ⟨_, ordered⟩ := setOrder_candidate sound faithful current
    simp only [process, if_pos current, attempt] at outcome ⊢
    cases tried : s.tryCompile
        (s.programOf (s.stack.arranged candidate)).text with
    | mk result s₁ =>
      simp only [tried] at outcome ⊢
      cases result with
      | error e =>
        exact ⟨e, s₁, .trial tried,
          (ReorderOutcome.rolledBack.inj outcome).symm, rfl⟩
      | ok _ =>
        -- The trial left the stack, so it accepts the order as before.
        have stack := stack_tryCompile
          (s.programOf (s.stack.arranged candidate)).text s
        rw [tried] at stack
        rw [← stack] at ordered
        obtain ⟨s₂, committed⟩ :
            ∃ s₂, s₁.commitOrder candidate = (.ok (), s₂) :=
          ⟨_, commitOrder_of_setOrder ordered⟩
        simp only [commit, committed] at outcome ⊢
        cases rebuilt : s₂.rebuild true with
        | mk result s₃ =>
          simp only [rebuilt] at outcome ⊢
          cases result with
          | error e =>
            exact ⟨e, s₃, .commit tried committed rebuilt,
              (ReorderOutcome.rolledBack.inj outcome).symm, rfl⟩
          | ok report => cases outcome
  · simp [process, current] at outcome

end Transaction

namespace Workspace

open Transaction (GivenUp)

variable {σ ρ : Type} [EffectEngine σ] [TextRasterizer ρ]

/-- A drop that is rolled back was given up at its trial or at its commit.
The layers are those of the drag again, and their program is compiled. If
that succeeds the session runs it: it is not stale, its text is the one
that the session committed and the engine accepted last, and the step map
is built from it. If it fails the session is stale, without a step map,
and its text is what it was before the drop was processed. -/
theorem Reachable.process_rolledBack_resumes {w : Workspace σ ρ}
    (h : w.Reachable) (stock : w.InStock) (n : Nat) {reason : String}
    (outcome : ((w.transaction n).process w.session).1 = .rolledBack reason) :
    (∃ id start, Dragged n id start w) ∧
      ∀ id start, Dragged n id start w →
        ∃ snapshot candidate e failed,
          w.transaction n = .processing snapshot candidate ∧
          GivenUp candidate w.session e failed ∧ reason = e.message ∧
          let after := ((w.transaction n).process w.session).2.2
          let restoring := failed.restoring start.session.layers
          let program := restoring.programOf start.session.layers
          after.layers = start.session.layers ∧
            (SteadyManifest σ →
              program = w.session.programOf start.session.layers) ∧
            (∀ running,
              restoring.compileText program.text = (.ok (), running) →
                after.Resumed program running) ∧
            ∀ e' halted,
              restoring.compileText program.text = (.error e', halted) →
                after.Halted w.session := by
  have sound := h.sound stock
  have faithful := h.faithful stock n
  cases pending : w.transaction n with
  | idle =>
    rw [pending] at outcome
    cases outcome
  | dragging snapshot =>
    rw [pending] at outcome
    cases outcome
  | processing snapshot candidate =>
    have dragged : ∃ id start, Dragged n id start w := by
      obtain idle | dragged := h.exists_dragged n
      · rw [pending] at idle
        cases idle
      · exact dragged
    refine ⟨dragged, fun id start dragged => ?_⟩
    have held := dragged.snapshot?_eq
    rw [pending] at faithful outcome held
    -- What the drag snapshotted are the layers that it started from.
    have layers : start.session.layers = snapshot.layers :=
      (congrArg Snapshot.layers (Option.some.inj held)).symm
    have stackable := faithful.1.stackable
    obtain ⟨e, failed, givenUp, told, rolledBack⟩ :=
      Transaction.exists_givenUp sound faithful outcome
    rw [rolledBack, layers]
    refine ⟨snapshot, candidate, e, failed, rfl, givenUp, told, ?_, ?_, ?_, ?_⟩
    · exact Transaction.layers_rollBack stackable e.message failed
    · intro steady
      obtain ⟨config, manifest⟩ := givenUp.moves.catalog_eq
      exact Session.programOf_congr w.session _ (manifest steady) config _
    · intro running accepted
      exact Transaction.resumed_rollBack stackable e.message failed accepted
    · intro e' halted refused
      have stays :=
        Transaction.halted_rollBack stackable e.message failed refused
      exact stays.of_compiled_eq givenUp.compiled_eq

/-- A drop whose commit is refused after its trial was accepted, and one
whose trial is refused and the restored program as well. -/
theorem Reachable.process_rolledBack_resumes_or_halts :
    let dropped (refused : List Nat) :=
      ((simulated { rejectCalls := refused } Simulated.layers).run
        [.session (.rebuild false),
          .reorder 0 (.dragStart (.ofNat 3)),
          .session (.updateOpacity (.ofNat 2) 25.0),
          .reorder 0 (.drop (.ofNat 1) .above)]).2
    let w := dropped [3]
    let done := (w.transaction 0).process w.session
    let w' := dropped [2, 3]
    let done' := (w'.transaction 0).process w'.session
    w.Reachable ∧ w.InStock ∧
      done.1 = .rolledBack "compile error: call 3 rejected" ∧
      (∃ program running, done.2.2.Resumed program running) ∧
      w'.Reachable ∧ w'.InStock ∧
      done'.1 = .rolledBack "compile error: call 2 rejected" ∧
      done'.2.2.Halted w'.session := by
  intro dropped w done w' done'
  have reachable : w.Reachable :=
    (reachable_simulated _ Simulated.stackable_layers).run _
  have reachable' : w'.Reachable :=
    (reachable_simulated _ Simulated.stackable_layers).run _
  have resumed : w.InStock ∧
      done.1 = .rolledBack "compile error: call 3 rejected" ∧
      done.2.2.stale = false := by
    decide +kernel
  have halted : w'.InStock ∧
      done'.1 = .rolledBack "compile error: call 2 rejected" ∧
      done'.2.2.stale = true := by
    decide +kernel
  obtain ⟨stock, outcome, fresh⟩ := resumed
  obtain ⟨stock', outcome', stale⟩ := halted
  -- All that has to be computed is known.
  clear_value w w'
  refine ⟨reachable, stock, outcome, ?_, reachable', stock', outcome', ?_⟩
  · obtain ⟨⟨id, start, dragged⟩, restored⟩ :=
      reachable.process_rolledBack_resumes stock 0 outcome
    obtain ⟨_, _, _, failed, -, -, -, -, -, resumes, halts⟩ :=
      restored id start dragged
    cases compiled : (failed.restoring start.session.layers).compileText
        ((failed.restoring start.session.layers).programOf
          start.session.layers).text with
    | mk result running =>
      cases result with
      | ok _ => exact ⟨_, running, resumes running compiled⟩
      | error e =>
        have stale := (halts e running compiled).stale
        exact absurd (stale.symm.trans fresh) Bool.noConfusion
  · obtain ⟨⟨id, start, dragged⟩, restored⟩ :=
      reachable'.process_rolledBack_resumes stock' 0 outcome'
    obtain ⟨_, _, _, failed, -, -, -, -, -, resumes, halts⟩ :=
      restored id start dragged
    cases compiled : (failed.restoring start.session.layers).compileText
        ((failed.restoring start.session.layers).programOf
          start.session.layers).text with
    | mk result running =>
      cases result with
      | ok _ =>
        have fresh := (resumes running compiled).fresh
        exact absurd (stale.symm.trans fresh) Bool.noConfusion
      | error e => exact halts e running compiled

end Workspace

end Compositing
