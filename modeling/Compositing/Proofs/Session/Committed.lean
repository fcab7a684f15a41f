/-
Compositing.Proofs.Session.Committed — sessions that have just committed,
and what becomes of them.

`CommittedOn` is a rebuild that commits its program and finds the passes
in the order of the program. The step map is then that of the session's
layers, and it stays so for every later session that `StillRuns` the
program. On the simulated engine every program of known effects is
committed and laid out in order (`Simulated.exists_committedOn`).
-/
import Compositing.Proofs.Pipeline.Positional
import Compositing.Proofs.Program.Calls
import Compositing.Proofs.Session.Synchrony

namespace Compositing

namespace Session

variable {σ ρ : Type} [EffectEngine σ]

/-! ## Later sessions -/

/-- Moves change neither the settings nor, on a steady engine, what is
published. -/
theorem Moves.catalog_eq {s s' : Session σ ρ} (h : s.Moves s') :
    s'.config = s.config ∧ SameManifest s.engine s'.engine := by
  induction h with
  | refl => exact ⟨rfl, .refl _⟩
  | tail _ move ih =>
    obtain ⟨config, manifest⟩ := ih
    cases move with
    | feed s'' current fed =>
      obtain ⟨events, engine, rasterizer, feed, same⟩ := fed
      exact ⟨config, manifest.trans same⟩
    | ask events engine quiet same => exact ⟨config, manifest.trans same⟩
    | trial events engine text quiet same =>
      exact ⟨config, manifest.trans same⟩
    | commit events engine quiet same => exact ⟨config, manifest.trans same⟩
    | touch composition retains => exact ⟨config, manifest⟩
    | edit composition evolves => exact ⟨config, manifest⟩

/-- What a session that was in step becomes is in step unless it is
stale. -/
theorem InStep.moves {s s' : Session σ ρ} {made : Commit} (h : s.InStep made)
    (moves : s.Moves s') (current : s'.stale = false) :
    ∃ made, s'.InStep made := by
  induction moves with
  | refl => exact ⟨made, h⟩
  | @tail b c _ move ih =>
    cases fresh : b.stale with
    | true => exact InStep.of_move fresh move current
    | false =>
      obtain ⟨made, inStep⟩ := ih fresh
      exact inStep.move move current

/-- A later session whose step map is still that of the commit. -/
structure StillRuns (s : Session σ ρ) (made : Commit) (later : Session σ ρ) :
    Prop where
  moves : s.Moves later
  current : later.stepMap?.isSome = true
  last : later.lastCommit? = some made

theorem StillRuns.inStep {s later : Session σ ρ} {made : Commit}
    (h : s.StillRuns made later) (inStep : s.InStep made) :
    later.InStep made := by
  obtain ⟨made', inStep'⟩ :=
    inStep.moves h.moves (stale_of_isSome_stepMap? h.current)
  obtain rfl := Option.some.inj (h.last.symm.trans inStep'.lastCommit)
  exact inStep'

/-! ## Commits over a graph in order -/

variable [TextRasterizer ρ]

/-- A rebuild over a sound composition commits a program, and the engine
shows its passes in order. -/
structure CommittedOn (s : Session σ ρ) (force : Bool) (made : Commit)
    (g : PipelineGraph) : Prop where
  sound : s.composition.Sound
  compiled : ∃ report, (s.rebuild force).1 = .ok report ∧
    report.skipped = false
  last : (s.rebuild force).2.lastCommit? = some made
  graph : made.graph? = some g
  laidOut : StepMap.LaidOut made.program g

omit [TextRasterizer ρ] in
/-- The text of a program calls what the program invokes. -/
theorem calls_programOf {s : Session σ ρ}
    (plain : ∀ l ∈ s.layers, l.PlainNames) :
    ProgramText.calls (s.programOf s.layers).text =
      (s.programOf s.layers).invocations.map (·.effect) :=
  Program.calls_text (fun _ => Program.isIdent_of_mem_usedNamespaces _)
    (Program.plainNames_stackStatements fun l mem =>
      plain l (List.mem_of_mem_filter mem))

/-- A rebuild whose text is accepted commits the program. -/
theorem rebuild_of_accepted {s s' : Session σ ρ} (force : Bool)
    (stale : s.stale = true)
    (accepted : s.compileText (s.programOf s.layers).text = (.ok (), s')) :
    s.rebuild force = ((s'.commit (s.programOf s.layers)).map .ok id) := by
  unfold rebuild
  simp [unchanged?, stale, accepted, Prod.map]

/-- A rebuild that compiles adopts the program and brings the textures up
to date. -/
theorem rebuild_eq_syncTextures {s : Session σ ρ} {force : Bool}
    {report : CompileReport} (built : (s.rebuild force).1 = .ok report)
    (compiled : report.skipped = false) :
    ∃ quiet engine, (∀ e ∈ quiet, e.isQuiet = true) ∧
      SameManifest s.engine engine ∧
      s.compileText (s.programOf s.layers).text =
        (.ok (), s.asked
          (quiet ++ [.compile (s.programOf s.layers).text true]) engine) ∧
      (s.rebuild force).2 = (s.adopted quiet engine).syncTextures ∧
      report.mapped =
        ((s.asked quiet engine).mapOf (s.programOf s.layers)).size := by
  unfold rebuild at built ⊢
  dsimp only at built ⊢
  split at built
  · obtain rfl := Except.ok.inj built
    cases compiled
  · obtain ⟨quiet, engine, isQuiet, same, accepted | ⟨e, refused⟩⟩ :=
      compileText_cases (s.programOf s.layers).text s
    · rw [accepted] at built ⊢
      refine ⟨quiet, engine, isQuiet, same, rfl, ?_, ?_⟩
      · simp only [adopted, commit, asked, log, mapOf, layers,
          List.append_assoc, List.cons_append, List.nil_append]
      · rw [← Except.ok.inj built]
        rfl
    · rw [refused] at built
      cases built

omit [TextRasterizer ρ] in
theorem InStep.stepMap?_eq {s : Session σ ρ} {made : Commit} (h : s.InStep made)
    (current : s.stepMap?.isSome = true) : s.stepMap? = some made.stepMap := by
  rw [stepMap?, stale_of_isSome_stepMap? current, h.compiled]
  rfl

omit [TextRasterizer ρ] in
theorem Fed.stepMap?_eq {s s' : Session σ ρ} (h : s.Fed s') :
    s'.stepMap? = s.stepMap? := by
  cases h
  rfl

omit [TextRasterizer ρ] in
/-- What is fed stays in step. -/
theorem InStep.fed {s s' : Session σ ρ} {made : Commit} (h : s.InStep made)
    (fed : s.Fed s') : s'.InStep made := by
  obtain ⟨events, engine, rasterizer, feed, same⟩ := fed
  exact h.of_idle rfl (Event.acceptedTexts_of_feed feed)
    (Event.commits_of_feed feed) rfl rfl same rfl

namespace CommittedOn

variable {s : Session σ ρ} {force : Bool} {made : Commit} {g : PipelineGraph}

/-- What was committed is the program of the session's layers, and nothing
but textures came after it. -/
theorem exists_adopted (h : s.CommittedOn force made g) :
    ∃ quiet engine, SameManifest s.engine engine ∧
      s.compileText (s.programOf s.layers).text =
        (.ok (), s.asked
          (quiet ++ [.compile (s.programOf s.layers).text true]) engine) ∧
      EffectEngine.graph? engine = some g ∧
      (s.rebuild force).2 = (s.adopted quiet engine).syncTextures ∧
      made =
        { layers := s.layers
          program := s.programOf s.layers
          graph? := EffectEngine.graph? engine } := by
  obtain ⟨report, built, compiled⟩ := h.compiled
  obtain ⟨quiet, engine, -, same, accepted, eq, -⟩ :=
    rebuild_eq_syncTextures built compiled
  have inStep := (InStep.adopted s quiet same).fed (fed_syncTextures _)
  have last := h.last
  rw [eq, inStep.lastCommit] at last
  obtain rfl := Option.some.inj last
  exact ⟨quiet, engine, same, accepted, h.graph, eq, rfl⟩

theorem stepMap?_eq (h : s.CommittedOn force made g) :
    (s.rebuild force).2.stepMap? = some made.stepMap := by
  obtain ⟨quiet, engine, -, -, -, eq, rfl⟩ := h.exists_adopted
  rw [eq, (fed_syncTextures (s.adopted quiet engine)).stepMap?_eq]
  rfl

theorem inStep (h : s.CommittedOn force made g) :
    (s.rebuild force).2.InStep made := by
  obtain ⟨quiet, engine, same, -, -, eq, rfl⟩ := h.exists_adopted
  rw [eq]
  exact (InStep.adopted s quiet same).fed (fed_syncTextures _)

/-- The step map is that of the program of the session's layers, which was
laid out in order. -/
theorem of_layers (h : s.CommittedOn force made g) :
    made.layers = s.layers ∧
      made.stepMap = StepMap.build (s.programOf s.layers) g ∧
      StepMap.LaidOut (s.programOf s.layers) g := by
  have map : made.stepMap = StepMap.build made.program g := by
    rw [Commit.stepMap, h.graph]
  have laidOut := h.laidOut
  obtain ⟨quiet, engine, -, -, -, -, rfl⟩ := h.exists_adopted
  exact ⟨rfl, map, laidOut⟩

/-- Of a session with the committed skeleton, every visible layer has a
step. -/
theorem exists_step? (h : s.CommittedOn force made g) {later : Session σ ρ}
    (inStep : later.InStep made) {l : Layer} (mem : l ∈ later.layers)
    (visible : l.visible = true) : ∃ step, made.stepMap.step? l.id = some step := by
  obtain ⟨committed, map, laidOut⟩ := h.of_layers
  have skel : l.skeleton ∈ skeleton s.layers := by
    rw [← committed, ← inStep.skeleton]
    exact List.mem_map_of_mem mem
  obtain ⟨l', mem', same⟩ := List.mem_map.mp skel
  rw [map]
  refine Option.isSome_iff_exists.mp ?_
  refine (StepMap.isSome_step?_iff h.sound.stack.stackable.distinct laidOut
    l.id).mpr ⟨l', mem', ?_, .inl (congrArg (·.id) same)⟩
  exact (congrArg (·.visible) same).trans visible
end CommittedOn

end Session

/-! ## On the simulated engine -/

namespace Simulated

open Session (CommittedOn)

/-- The steps of calls that are laid out in order. -/
theorem passes_layOut (calls : List EffectId) :
    (Settings.layOut {} calls).passes =
      calls.zipIdx.map fun (effect, i) => { effect := effect, step := i } := by
  simp [Settings.layOut, Settings.stepOf]

/-- Calls are laid out in order. -/
theorem laidOut_layOut {p : Program} {calls : List EffectId}
    (invoked : calls = p.invocations.map (·.effect)) :
    StepMap.LaidOut p (Settings.layOut {} calls) where
  effects := by
    rw [passes_layOut, List.map_map, ← invoked]
    exact List.zipIdx_map_fst 0 calls
  steps := by
    rw [passes_layOut, List.map_map]
    show (calls.zipIdx.map Prod.snd).Nodup
    rw [List.zipIdx_map_snd]
    exact List.nodup_range'

/-- The engine that has accepted one more text and laid out calls. -/
def Engine.running (e : Engine) (calls : List EffectId) : Engine :=
  { e with
    compiles := e.compiles + 1
    graph := some (Settings.layOut {} calls) }

/-- The engine accepts a text of known effects and lays out its calls,
whatever parameters and textures it refuses. -/
theorem compileText_eq {ρ : Type} {s : Session Engine ρ} {text : String}
    {known : List EffectId} {steps : List Nat} {textures : List String}
    (settings : s.engine.settings =
      { registered := known
        failPushSteps := steps
        failTextures := textures })
    (registered : ∀ effect ∈ ProgramText.calls text, effect ∈ known) :
    s.compileText text =
      (.ok (), s.asked [.compile text true]
        (s.engine.running (ProgramText.calls text))) := by
  have missing : s.missingEffects text = [] := by
    refine List.filter_eq_nil_iff.mpr fun effect mem => ?_
    have mem := registered effect (List.mem_eraseDups.mp mem)
    simp [EffectEngine.isRegistered, settings, mem]
  have accepted : s.engine.settings.objection? (s.engine.compiles + 1) text =
      none := by
    rw [settings]
    simpa [Settings.objection?] using registered
  have graph : s.engine.settings.layOut (ProgramText.calls text) =
      Settings.layOut {} (ProgramText.calls text) := by
    rw [settings]
    rfl
  have compiled : Engine.compile text s.engine =
      (.ok (), s.engine.running (ProgramText.calls text)) := by
    rw [Engine.compile, accepted, graph]
    rfl
  rw [Session.compileText, Session.loadMissing, missing]
  simp only [Session.requestCompile, EffectEngine.compile, compiled]
  rfl

theorem graph?_running {e : Engine} (seen : e.settings.noGraph = false)
    (calls : List EffectId) :
    EffectEngine.graph? (e.running calls) =
      some (Settings.layOut {} calls) := by
  simp [EffectEngine.graph?, Engine.running, seen]

section

variable {ρ : Type} [TextRasterizer ρ] {s : Session Engine ρ}
  {known : List EffectId} (stale : s.stale = true)
  (settings : s.engine.settings = { registered := known })
  (plain : ∀ l ∈ s.layers, l.PlainNames)
  (registered : ∀ effect ∈
    (s.programOf s.layers).invocations.map (·.effect), effect ∈ known)

include stale settings plain registered

/-- A stale session commits a program of known effects, once the engine has
laid out what the program invokes. -/
theorem rebuild_eq (force : Bool) :
    s.rebuild force =
      (((s.asked [.compile (s.programOf s.layers).text true]
        (s.engine.running
          ((s.programOf s.layers).invocations.map (·.effect)))).commit
        (s.programOf s.layers)).map .ok id) := by
  rw [← Session.calls_programOf plain] at registered ⊢
  exact Session.rebuild_of_accepted force stale
    (compileText_eq settings registered)

/-- The program is laid out in order. -/
theorem exists_committedOn (sound : s.composition.Sound) (force : Bool) :
    ∃ made, s.CommittedOn force made (Settings.layOut {}
      ((s.programOf s.layers).invocations.map (·.effect))) := by
  have built := rebuild_eq stale settings plain registered force
  have report : (s.rebuild force).1 = .ok _ := congrArg Prod.fst built
  obtain ⟨quiet, engine, -, same, accepted, eq, -⟩ :=
    Session.rebuild_eq_syncTextures report rfl
  have last := ((Session.InStep.adopted s quiet same).fed
    (Session.fed_syncTextures _)).lastCommit
  have calls := Session.calls_programOf plain
  rw [← calls] at registered
  rw [compileText_eq settings registered] at accepted
  have running : s.engine.running _ = engine :=
    congrArg Session.engine (Prod.mk.inj accepted).2
  have graph := graph?_running (e := s.engine) (by rw [settings])
    (ProgramText.calls (s.programOf s.layers).text)
  rw [running] at graph
  rw [← eq] at last
  rw [calls] at graph
  exact ⟨_, sound, ⟨_, report, rfl⟩, last, graph, laidOut_layOut rfl⟩

end

end Simulated

end Compositing
