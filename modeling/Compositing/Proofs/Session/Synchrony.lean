/-
Compositing.Proofs.Session.Synchrony — the step map describes what runs.

As long as a session is not stale, the engine runs the text of the last
commit, the step map is the one that was built for that commit, and the
stack still has the skeleton that was committed. A trial and a change of
structure make the session stale; everything else keeps what is claimed
(`InStep.move`).
-/
import Compositing.Proofs.Workspace.Simulated

namespace Compositing

/-- The step map of a commit. It is empty if the engine showed no
passes. -/
def Commit.stepMap (made : Commit) : StepMap :=
  match made.graph? with
  | some graph => StepMap.build made.program graph
  | none => {}

namespace Session

variable {σ ρ : Type}

/-- The text that the engine accepted last. -/
def runningText? (s : Session σ ρ) : Option String :=
  (Event.acceptedTexts s.journal).getLast?

/-- The commit that was made last. -/
def lastCommit? (s : Session σ ρ) : Option Commit :=
  (Event.commits s.journal).getLast?

variable [EffectEngine σ]

/-- A commit is the last one, its program runs and is described by the
step map, and the stack has its skeleton. -/
structure InStep (s : Session σ ρ) (made : Commit) : Prop where
  lastCommit : s.lastCommit? = some made
  running : s.runningText? = some made.program.text
  compiled : s.compiled =
    some { program := made.program, stepMap := made.stepMap }
  skeleton : skeleton s.layers = skeleton made.layers
  program : SteadyManifest σ → made.program = s.programOf made.layers

/-- Sessions of one manifest and one config make the same programs. -/
theorem programOf_congr (s s' : Session σ ρ)
    (manifest : EffectEngine.manifest s'.engine =
      EffectEngine.manifest s.engine)
    (config : s'.config = s.config) (layers : List Layer) :
    s'.programOf layers = s.programOf layers := by
  unfold programOf catalog
  rw [manifest, config]

namespace InStep

variable {s s' : Session σ ρ} {made : Commit}

/-- What neither accepts a text nor commits leaves a session in step. -/
theorem of_idle (h : s.InStep made) {events : List Event}
    (journal : s'.journal = s.journal ++ events)
    (accepted : Event.acceptedTexts events = [])
    (commits : Event.commits events = [])
    (compiled : s'.compiled = s.compiled)
    (layers : Compositing.skeleton s'.layers = Compositing.skeleton s.layers)
    (same : SameManifest s.engine s'.engine) (config : s'.config = s.config) :
    s'.InStep made where
  lastCommit := by
    rw [lastCommit?, journal, Event.commits_append, commits, List.append_nil]
    exact h.lastCommit
  running := by
    rw [runningText?, journal, Event.acceptedTexts_append, accepted,
      List.append_nil]
    exact h.running
  compiled := compiled.trans h.compiled
  skeleton := layers.trans h.skeleton
  program steady := by
    rw [programOf_congr s s' (same steady) config]
    exact h.program steady

/-- A session that has just adopted its program is in step. -/
theorem adopted (s : Session σ ρ) (events : List Event) {engine : σ}
    (same : SameManifest s.engine engine) :
    (s.adopted events engine).InStep
      { layers := s.layers
        program := s.programOf s.layers
        graph? := EffectEngine.graph? engine } where
  lastCommit := by
    simp only [lastCommit?, Session.adopted, asked, Event.commits_append,
      ← List.append_assoc]
    exact List.getLast?_concat
  running := by
    simp only [runningText?, Session.adopted, asked,
      Event.acceptedTexts_append, ← List.append_assoc]
    exact List.getLast?_concat
  compiled := rfl
  skeleton := rfl
  program steady := by
    have manifest := same steady
    exact (programOf_congr s (s.adopted events engine) manifest rfl _).symm

/-- A session in step takes every move in step or becomes stale. -/
theorem move (h : s.InStep made) (move : s.Move s')
    (current : s'.stale = false) : ∃ made, s'.InStep made := by
  cases move with
  | ask events engine quiet same =>
    exact ⟨made, h.of_idle rfl (Event.acceptedTexts_of_quiet quiet)
      (Event.commits_of_quiet quiet) rfl rfl same rfl⟩
  | feed s' isSome fed =>
    obtain ⟨events, engine, rasterizer, feed, same⟩ := fed
    exact ⟨made, h.of_idle rfl (Event.acceptedTexts_of_feed feed)
      (Event.commits_of_feed feed) rfl rfl same rfl⟩
  | trial => cases current
  | commit events engine quiet same => exact ⟨_, adopted s events same⟩
  | touch composition retains =>
    exact ⟨made, h.of_idle (List.append_nil _).symm rfl rfl rfl
      retains.skeleton (.refl _) rfl⟩
  | edit => cases current

/-- A stale session takes a move that leaves it current by a commit. -/
theorem of_move (stale : s.stale = true) (move : s.Move s')
    (current : s'.stale = false) : ∃ made, s'.InStep made := by
  cases move with
  | commit events engine quiet same => exact ⟨_, adopted s events same⟩
  | feed s' isSome fed =>
    obtain ⟨events, engine, rasterizer, feed, same⟩ := fed
    exact absurd (stale.symm.trans current) Bool.noConfusion
  | trial => cases current
  | edit => cases current
  | _ => exact absurd (stale.symm.trans current) Bool.noConfusion

end InStep

/-- A session that moves have made current is in step. -/
theorem Moves.inStep {s s' : Session σ ρ} (moves : s.Moves s')
    (stale : s.stale = true) (current : s'.stale = false) :
    ∃ made, s'.InStep made := by
  induction moves with
  | refl => exact absurd (stale.symm.trans current) Bool.noConfusion
  | @tail b c _ move ih =>
    cases fresh : b.stale with
    | true => exact InStep.of_move fresh move current
    | false =>
      obtain ⟨made, inStep⟩ := ih fresh
      exact inStep.move move current

end Session

namespace Workspace.Reachable

variable {σ ρ : Type} [EffectEngine σ] [TextRasterizer ρ]
  {w : Workspace σ ρ}

/-- In every reachable workspace a step map that is not stale is the one
of the last commit: the engine has accepted no text since that one, which
is the session's own, and the stack has the skeleton of the layers that
the program was made of. -/
theorem stepMap_in_step (h : w.Reachable) {map : StepMap}
    (current : w.session.stepMap? = some map) :
    ∃ made, w.session.lastCommit? = some made ∧
      w.session.runningText? = w.session.programText? ∧
      w.session.programText? = some made.program.text ∧
      map = made.stepMap ∧
      skeleton w.session.layers = skeleton made.layers ∧
      (SteadyManifest σ →
        made.program = w.session.programOf made.layers) := by
  have fresh : w.session.stale = false := by
    unfold Session.stepMap? at current
    split at current
    · cases current
    · exact Bool.eq_false_iff.mpr ‹_›
  obtain ⟨_, _, _, _, s, made, moves⟩ := h.exists_moves
  obtain ⟨_, _, _, _, stale, _⟩ := ofLayers_eq_ok made
  obtain ⟨made, inStep⟩ := moves.inStep stale fresh
  have text : w.session.programText? = some made.program.text := by
    rw [Session.programText?, inStep.compiled]
    rfl
  refine ⟨made, inStep.lastCommit, ?_, text, ?_, inStep.skeleton,
    inStep.program⟩
  · rw [inStep.running, text]
  · rw [Session.stepMap?, fresh, inStep.compiled] at current
    exact (Option.some.inj current).symm

/-- A step map that outlives an update and a refused trial. -/
theorem stepMap_in_step_after_refusal :
    let w := ((simulated { failLoads := true } Simulated.layers).run
      [.session (.rebuild false),
        .session (.updateOpacity (.ofNat 1) 50.0),
        .session (.tryCompile "a.b()")]).2
    w.Reachable ∧ w.session.stepMap? = some { steps := [(.ofNat 1, 0)] } ∧
      ∃ made, w.session.lastCommit? = some made ∧
        w.session.runningText? = w.session.programText? ∧
        w.session.programText? = some made.program.text ∧
        { steps := [(.ofNat 1, 0)] } = made.stepMap ∧
        skeleton w.session.layers = skeleton made.layers ∧
        (SteadyManifest Simulated.Engine →
          made.program = w.session.programOf made.layers) := by
  intro w
  have reachable : w.Reachable :=
    (reachable_simulated _ Simulated.stackable_layers).run _
  have current :
      w.session.stepMap? = some { steps := [(.ofNat 1, 0)] } := by
    decide +kernel
  exact ⟨reachable, current, reachable.stepMap_in_step current⟩

end Workspace.Reachable

end Compositing
