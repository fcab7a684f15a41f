/-
Compositing.Proofs.Workspace.Undone — edits and their inverses.

Adding a layer, a copy or a child effect is undone by removing what the
reply names, and showing or hiding by setting back (`UndoneBy`). Whatever
the engine makes of either edit, the second one is accepted and the layers
are those from before. What comes of the last recompile depends on the
layers and the engine alone: it commits what a forced rebuild before the
first edit would have committed, as long as the engine publishes what it
published then (`Reachable.undone`). If the recompile of the first edit has
changed that, the layers are the same and their program is another one.
-/
import Compositing.Proofs.Layer.Inverses
import Compositing.Proofs.Session.Detection
import Compositing.Proofs.Session.Uploads
import Compositing.Proofs.Workspace.Twins

namespace Compositing

/-- What undoes a command on some layers, given its reply. What was added
is removed by the identity that the reply names; what was shown or hidden
is set back. -/
inductive SessionCommand.UndoneBy (layers : List Layer) :
    SessionCommand → Reply → SessionCommand → Prop where
  | addLayer {name : String} {source : LayerSource} {params : Params}
      {made : Edited LayerId} :
      UndoneBy layers (.addLayer name source params) (.created (.ok made))
        (.removeLayer made.value)
  | duplicateLayer {id : LayerId} {made : Edited LayerId} :
      UndoneBy layers (.duplicateLayer id) (.created (.ok made))
        (.removeLayer made.value)
  | addChild {id : LayerId} {effect : EffectId} {params : Params}
      {made : Edited LayerId} :
      UndoneBy layers (.addChild id effect params) (.created (.ok made))
        (.removeChild made.value)
  | setVisible {l : Layer} {visible : Bool} {changed : Edited Unit}
      (mem : l ∈ layers) :
      UndoneBy layers (.setVisible l.id visible) (.changed (.ok changed))
        (.setVisible l.id l.visible)
  | setChildVisible {l : Layer} {child : ChildEffect} {visible : Bool}
      {changed : Edited Unit} (mem : l ∈ layers)
      (own : child ∈ l.children) :
      UndoneBy layers (.setChildVisible child.id visible)
        (.changed (.ok changed)) (.setChildVisible child.id child.visible)

/-- Whether an engine takes a text, with what it has to load for it,
depends on the text alone. -/
structure VerdictOfText (σ ρ : Type) [EffectEngine σ] : Prop where
  verdict : ∀ (text : String) (s s' : Session σ ρ),
    (s.compileText text).1.isOk = (s'.compileText text).1.isOk

namespace Session

variable {σ ρ : Type} [EffectEngine σ] [TextRasterizer ρ]
  {s t : Session σ ρ}

/-! ## Two edits -/

/-- An edit that is applied is what its change makes of the composition. -/
theorem change_of_applied {α : Type} {change : Edit α} {value : Edited α}
    (applied : (s.edit change).1 = .ok value) :
    change s.composition =
      (.ok value.value, (s.edit change).2.composition) := by
  have changed := edit_change change s
  rw [applied] at changed
  exact changed.symm

/-- An edit that restores layers is accepted and leaves these layers,
whatever comes of the recompile. -/
theorem undone_edit {α : Type} {undo : Edit α}
    {tag : Except Error (Edited α) → Reply}
    (accepted : ∀ value, (tag (.ok value)).refusal? = none)
    {layers : List Layer} (restores : undo.Restores s.composition layers) :
    (answer tag (s.edit undo)).1.refusal? = none ∧
      (answer tag (s.edit undo)).2.layers = layers := by
  obtain ⟨value, c', undone, same⟩ := restores
  have changed := edit_change undo s
  rw [undone] at changed
  obtain ⟨result, composition⟩ := Prod.mk.inj changed
  refine ⟨?_, (congrArg Composition.layers composition).trans same⟩
  cases applied : (s.edit undo).1 with
  | error e =>
    rw [applied] at result
    cases result
  | ok value =>
    rw [answer, applied]
    exact accepted value

/-- An edit that is applied is recompiled if the engine takes every
text. -/
theorem exists_edited (verdicts : ∀ (text : String) (s : Session σ ρ),
      (s.compileText text).1.isOk = true)
    {α : Type} {change : Edit α} {value : α} {c' : Composition}
    (applied : change s.composition = (.ok value, c')) :
    ∃ report,
      (s.edit change).1 = .ok { value := value, compile := .ok report } := by
  have touched : s.touch change = (.ok value, { s with composition := c' }) := by
    rw [touch, applied]
  unfold edit
  rw [touched]
  generalize { s with composition := c' } = s₁
  have built := exists_report false (s := s₁.invalidate)
    (by simp [unchanged?, invalidate]) (verdicts _ _)
  obtain ⟨report, built⟩ := built
  refine ⟨report, ?_⟩
  simp only [Prod.map, built]

/-- What undoes a command is accepted and leaves the layers from before. -/
theorem undone_perform {command undo : SessionCommand}
    (sound : s.composition.Sound)
    (stock : (s.perform command).2.composition.ids.next < LayerId.bound)
    (undone : command.UndoneBy s.layers (s.perform command).1 undo)
    (same : t.composition = (s.perform command).2.composition) :
    (t.perform undo).1.refusal? = none ∧
      (t.perform undo).2.layers = s.layers := by
  generalize told : (s.perform command).1 = reply at undone
  cases undone <;> simp only [perform, answer] at told stock same ⊢
  case addLayer =>
    have applied := change_of_applied (Reply.created.inj told)
    refine undone_edit (fun _ => rfl) ?_
    rw [same]
    exact Composition.restores_addLayer sound applied stock
  case duplicateLayer =>
    have applied := change_of_applied (Reply.created.inj told)
    refine undone_edit (fun _ => rfl) ?_
    rw [same]
    exact Composition.restores_duplicateLayer sound applied stock
  case addChild =>
    have applied := change_of_applied (Reply.created.inj told)
    refine undone_edit (fun _ => rfl) ?_
    rw [same]
    exact Composition.restores_addChild sound applied stock
  case setVisible mem =>
    have applied := change_of_applied (Reply.changed.inj told)
    refine undone_edit (fun _ => rfl) ?_
    rw [same]
    exact Composition.restores_setVisible sound mem applied
  case setChildVisible mem own =>
    have applied := change_of_applied (Reply.changed.inj told)
    refine undone_edit (fun _ => rfl) ?_
    rw [same]
    exact Composition.restores_setChildVisible sound mem own applied

/-! ## The last recompile -/

/-- An edit that was recompiled ends with a rebuild of a stale session over
its layers on the engine from before. -/
theorem rebuilt_of_edit {α : Type} {change : Edit α}
    {tag : Except Error (Edited α) → Reply} {report : CompileReport}
    (tells : ∀ result, (tag result).report? =
      result.toOption.bind (·.compile.toOption))
    (told : (answer tag (s.edit change)).1.report? = some report) :
    ∃ s₁ : Session σ ρ, s₁.engine = s.engine ∧ s₁.config = s.config ∧
      s₁.stale = true ∧
      s₁.rebuild false =
        (.ok report, (answer tag (s.edit change)).2) := by
  rw [answer, tells] at told
  obtain ⟨value, applied, built⟩ := Option.bind_eq_some_iff.mp told
  have applied := toOption_eq_some applied
  have built := toOption_eq_some built
  have kept : (s.touch change).2.engine = s.engine ∧
      (s.touch change).2.config = s.config := ⟨rfl, rfl⟩
  simp only [answer]
  unfold edit at applied ⊢
  cases touched : s.touch change with
  | mk result s₁ =>
    rw [touched] at applied kept
    cases result with
    | error e => cases applied
    | ok made =>
      simp only [Prod.map, Except.ok.injEq] at applied
      subst applied
      dsimp only [Prod.map, id] at built ⊢
      refine ⟨s₁.invalidate, kept.1, kept.2, rfl, ?_⟩
      rw [← built]

/-- The same of commands that undo others. -/
theorem rebuilt_of_undo {layers : List Layer}
    {command undo : SessionCommand} {reply : Reply}
    (undone : command.UndoneBy layers reply undo) {report : CompileReport}
    (told : (s.perform undo).1.report? = some report) :
    ∃ s₁ : Session σ ρ, s₁.engine = s.engine ∧ s₁.config = s.config ∧
      s₁.stale = true ∧
      s₁.rebuild false = (.ok report, (s.perform undo).2) := by
  cases undone <;> simp only [perform] at told ⊢ <;>
    exact rebuilt_of_edit (fun _ => rfl) told

omit [TextRasterizer ρ] in
/-- A session that has just been rebuilt shows what was committed. -/
theorem Recompiled.shows {s' : Session σ ρ} {report : CompileReport}
    {made : Commit} (h : s.Recompiled s' report made) :
    s'.programText? = some (s.programOf s.layers).text ∧
      s'.stepMap? = some made.stepMap := by
  constructor
  · rw [programText?, h.inStep.compiled, Option.map_some, ← h.program]
  · rw [stepMap?, h.fresh, h.inStep.compiled]
    rfl

/-- A rebuild that does not skip commits the text of the layers. -/
theorem programText?_of_rebuilt {force : Bool} {report : CompileReport}
    (needed : force = true ∨ s.stale = true)
    (built : (s.rebuild force).1 = .ok report) :
    (s.rebuild force).2.programText? =
      some (s.programOf s.layers).text := by
  obtain ⟨made, recompiled⟩ :=
    exists_recompiled built (unskipped_of_needed needed built)
  exact recompiled.shows.1

omit [TextRasterizer ρ] in
/-- Two rebuilds that compile one program commit the same text and the same
step map. -/
theorem Recompiled.agrees (graphs : GraphOfText σ) {s' t t' : Session σ ρ}
    {report report' : CompileReport} {made made' : Commit}
    (h : s.Recompiled t report made) (h' : s'.Recompiled t' report' made')
    (same : s'.programOf s'.layers = s.programOf s.layers) :
    t'.programText? = t.programText? ∧ t'.stepMap? = t.stepMap? ∧
      report'.mapped = report.mapped := by
  have program : made'.program = made.program := by
    rw [h.program, h'.program, same]
  have map : made'.stepMap = made.stepMap :=
    stepMap_eq_of_exposed graphs h'.exposed h.exposed (by rw [program])
      (by rw [program])
  rw [h.shows.1, h.shows.2, h'.shows.1, h'.shows.2, same, map, h.mapped,
    h'.mapped, map]
  exact ⟨rfl, rfl, rfl⟩

/-- What a rebuild of a stale session commits is what a forced rebuild of a
session with the same program commits. -/
theorem forced_agrees {s₁ t : Session σ ρ} {report : CompileReport}
    (stale : s₁.stale = true)
    (built : s₁.rebuild false = (.ok report, t))
    (same : s₁.programOf s₁.layers = s.programOf s.layers)
    (graphs : GraphOfText σ) :
    t.programText? = some (s.programOf s.layers).text ∧
      t.stepMap?.isSome = true ∧
      (∀ forced, (s.rebuild true).1 = .ok forced →
        t.programText? = (s.rebuild true).2.programText? ∧
          t.stepMap? = (s.rebuild true).2.stepMap? ∧
          report.mapped = forced.mapped) ∧
      (VerdictOfText σ ρ → ∃ forced, (s.rebuild true).1 = .ok forced) := by
  have ok : (s₁.rebuild false).1 = .ok report := congrArg Prod.fst built
  have unskipped := unskipped_of_needed (.inr stale) ok
  obtain ⟨made, recompiled⟩ := exists_recompiled ok unskipped
  rw [built] at recompiled
  obtain ⟨text, map⟩ := recompiled.shows
  refine ⟨text.trans (by rw [same]), by rw [map]; rfl,
    fun forced built' => ?_, fun verdicts => ?_⟩
  · obtain ⟨made', recompiled'⟩ := exists_recompiled built'
      (unskipped_of_needed (.inl rfl) built')
    exact recompiled'.agrees graphs recompiled same
  · obtain ⟨quiet, engine, -, -, accepted, -⟩ :=
      rebuild_eq_syncTextures ok unskipped
    refine exists_report true rfl ?_
    rw [verdicts.verdict _ s s₁, ← same, accepted]
    rfl

end Session

namespace Workspace

variable {σ ρ : Type} [EffectEngine σ] [TextRasterizer ρ]

/-- Edits have inverses. Whatever the engine is like when an edit is undone,
the second edit is accepted and the layers are those from before; so is the
program of the layers, under the same manifest. If the last recompile
succeeds, it commits the text of these layers under the manifest that it
found. If that is the manifest from before, and what an engine shows is a
function of the text, then the committed text and the step map are those
that a forced rebuild before the first edit would have committed; and that
would have succeeded, if whether the engine takes a text is a function of
the text as well. -/
theorem Reachable.undone {w : Workspace σ ρ} (h : w.Reachable)
    {command undo : SessionCommand}
    (stock : (w.perform (.session command)).2.InStock)
    (undone : command.UndoneBy w.session.layers
      (w.perform (.session command)).1 undo) (engine : σ) :
    let next := (w.perform (.session command)).2
    let mid : Workspace σ ρ :=
      { next with session := { next.session with engine := engine } }
    let last := mid.perform (.session undo)
    last.1.refusal? = none ∧
      last.2.session.layers = w.session.layers ∧
      (EffectEngine.manifest last.2.session.engine =
          EffectEngine.manifest w.session.engine →
        last.2.session.programOf last.2.session.layers =
          w.session.programOf w.session.layers) ∧
      (∀ report, last.1.report? = some report →
        last.2.session.programText? =
          some (mid.session.programOf w.session.layers).text) ∧
      (EffectEngine.manifest engine =
          EffectEngine.manifest w.session.engine →
        GraphOfText σ → ∀ report, last.1.report? = some report →
          last.2.session.programText? =
              some (w.session.programOf w.session.layers).text ∧
            last.2.session.stepMap?.isSome = true ∧
            (∀ forced, (w.session.rebuild true).1 = .ok forced →
              last.2.session.programText? =
                  (w.session.rebuild true).2.programText? ∧
                last.2.session.stepMap? =
                  (w.session.rebuild true).2.stepMap? ∧
                report.mapped = forced.mapped) ∧
            (VerdictOfText σ ρ →
              ∃ forced, (w.session.rebuild true).1 = .ok forced)) := by
  intro next mid last
  have before : w.InStock :=
    Nat.lt_of_le_of_lt (moves_perform w _).next_le stock
  have sound := h.sound before
  obtain ⟨accepted, layers⟩ :=
    Session.undone_perform (t := mid.session) sound stock undone rfl
  have config : next.session.config = w.session.config :=
    (moves_perform w (.session command)).catalog_eq.1
  have config' : last.2.session.config = w.session.config :=
    (moves_perform mid (.session undo)).catalog_eq.1.trans config
  -- The last recompile is a rebuild over the layers from before.
  have rebuilt : ∀ report, last.1.report? = some report →
      ∃ s₁ : Session σ ρ, s₁.stale = true ∧
        s₁.rebuild false = (.ok report, last.2.session) ∧
        s₁.programOf s₁.layers = mid.session.programOf w.session.layers := by
    intro report told
    obtain ⟨s₁, engine₁, config₁, stale, built⟩ :=
      Session.rebuilt_of_undo undone told
    have layers₁ : s₁.layers = w.session.layers := by
      have kept := Session.composition_rebuild false s₁
      rw [built] at kept
      exact (congrArg Composition.layers kept).symm.trans layers
    refine ⟨s₁, stale, built, ?_⟩
    rw [layers₁]
    exact Session.programOf_congr _ _ (by rw [engine₁]) config₁ _
  refine ⟨accepted, layers, fun manifest => ?_, fun report told => ?_,
    fun manifest graphs report told => ?_⟩
  · have layers : last.2.session.layers = w.session.layers := layers
    rw [layers]
    exact Session.programOf_congr _ _ manifest config' _
  · obtain ⟨s₁, stale, built, program⟩ := rebuilt report told
    have text := Session.programText?_of_rebuilt (.inr stale)
      (congrArg Prod.fst built)
    rwa [built, program] at text
  · obtain ⟨s₁, stale, built, program⟩ := rebuilt report told
    refine Session.forced_agrees stale built (program.trans ?_) graphs
    exact Session.programOf_congr w.session mid.session manifest config _

/-- An engine that accepts everything takes every text. -/
theorem verdictOfText_obliging :
    VerdictOfText Simulated.Obliging Simulated.Rasterizer := by
  have takes (text : String)
      (s : Session Simulated.Obliging Simulated.Rasterizer) :
      (s.compileText text).1.isOk = true := by
    unfold Session.compileText Session.loadMissing
    cases s.missingEffects text <;> rfl
  exact ⟨fun text s s' => (takes text s).trans (takes text s').symm⟩

/-- A child effect is added and removed again, and in between the engine has
lost its passes. -/
theorem Reachable.undone_of_child :
    let start : Workspace Simulated.Obliging Simulated.Rasterizer :=
      { session := Simulated.obligingSession }
    let w := (start.run [.session (.rebuild false)]).2
    let add : SessionCommand := .addChild (.ofNat 2) EffectId.blend Params.empty
    let remove : SessionCommand := .removeChild (.ofNat 4)
    let next := (w.perform (.session add)).2
    let mid : Workspace Simulated.Obliging Simulated.Rasterizer :=
      { next with session := { next.session with engine := {} } }
    let last := mid.perform (.session remove)
    w.Reachable ∧ next.InStock ∧
      add.UndoneBy w.session.layers (w.perform (.session add)).1 remove ∧
      next.session.layers.flatMap Layer.ids =
        [.ofNat 1, .ofNat 2, .ofNat 4, .ofNat 3] ∧
      last.1.refusal? = none ∧
      last.2.session.layers = w.session.layers ∧
      GraphOfText Simulated.Obliging ∧
      VerdictOfText Simulated.Obliging Simulated.Rasterizer ∧
      last.1.report? = some { skipped := false, mapped := 1 } ∧
      (∃ forced, (w.session.rebuild true).1 = .ok forced) ∧
      last.2.session.stepMap? = (w.session.rebuild true).2.stepMap? := by
  intro start w add remove next mid last
  have reachable : w.Reachable := Simulated.reachable_obliging.run _
  have computed : next.InStock ∧
      next.session.layers.flatMap Layer.ids =
        [.ofNat 1, .ofNat 2, .ofNat 4, .ofNat 3] ∧
      ((w.session.edit (Composition.addChild (.ofNat 2) EffectId.blend
        Params.empty)).1.toOption.map (·.value)) = some (.ofNat 4) ∧
      last.1.report? = some { skipped := false, mapped := 1 } := by
    decide +kernel
  obtain ⟨stock, ids, made, told⟩ := computed
  obtain ⟨made, applied, value⟩ := Option.map_eq_some_iff.mp made
  have applied := Session.toOption_eq_some applied
  have undone : add.UndoneBy w.session.layers
      (w.perform (.session add)).1 remove := by
    have reply : (w.perform (.session add)).1 = .created (.ok made) :=
      congrArg Reply.created applied
    have named : remove = .removeChild made.value :=
      congrArg SessionCommand.removeChild value.symm
    rw [reply, named]
    exact .addChild
  obtain ⟨accepted, layers, -, -, recompiled⟩ :=
    reachable.undone stock undone {}
  obtain ⟨-, -, same, forces⟩ :=
    recompiled rfl Simulated.graphOfText_obliging _ told
  obtain ⟨forced, built⟩ := forces verdictOfText_obliging
  exact ⟨reachable, stock, undone, ids, accepted, layers,
    Simulated.graphOfText_obliging, verdictOfText_obliging, told,
    ⟨forced, built⟩, (same forced built).2.1⟩

end Workspace

/-! ## On an engine that learns -/

namespace Simulated.Learning

theorem graphOfText : GraphOfText Learning :=
  ⟨fun _ _ _ _ _ => rfl⟩

theorem takes (text : String) (s : Session Learning Rasterizer) :
    (s.compileText text).1.isOk = true := by
  rw [compileText_eq]
  rfl

theorem verdictOfText : VerdictOfText Learning Rasterizer :=
  ⟨fun text s s' => (takes text s).trans (takes text s').symm⟩

theorem sound : session.composition.Sound :=
  Workspace.Reachable.sound reachable (by decide +kernel)

/-- What has been rebuilt runs a program. -/
theorem runs_of_rebuilt {s : Session Learning Rasterizer} {force : Bool}
    {report : CompileReport} (needed : force = true ∨ s.stale = true)
    (built : (s.rebuild force).1 = .ok report) :
    (s.rebuild force).2.engine.graph.isSome = true := by
  have still : SteadyGraph Learning := ⟨fun _ _ => rfl, fun _ _ _ _ => rfl⟩
  obtain ⟨quiet, engine, -, -, accepted, eq, -⟩ :=
    Session.rebuild_eq_syncTextures built
      (Session.unskipped_of_needed needed built)
  have shown : EffectEngine.graph? (s.rebuild force).2.engine =
      EffectEngine.graph? engine := by
    rw [eq]
    exact Session.graph?_syncTextures still _
  have runs := congrArg (·.2.engine.graph) accepted
  rw [compileText_eq] at runs
  show (EffectEngine.graph? (s.rebuild force).2.engine).isSome = true
  rw [shown]
  exact congrArg Option.isSome runs.symm

/-- An edit that is applied is recompiled. Programs are made with what is
published then, if the engine ran a program already; it does run one
afterwards. -/
theorem exists_recompiled {change : Edit Unit} {c' : Composition}
    {s : Session Learning Rasterizer}
    (applied : change s.composition = (.ok (), c')) :
    ∃ report,
      (s.edit change).1 = .ok { value := (), compile := .ok report } ∧
        (s.edit change).2.composition = c' ∧
        (s.edit change).2.config = s.config ∧
        (s.edit change).2.engine.graph.isSome = true ∧
        (s.engine.graph.isSome = true →
          (s.edit change).2.programText? =
            some (learnedProgram s c'.layers).text) := by
  obtain ⟨report, done⟩ := Session.exists_edited takes applied
  have changed := Session.change_of_applied done
  rw [applied] at changed
  have composition := (Prod.mk.inj changed).2.symm
  have told : (answer Reply.changed (s.edit change)).1.report? =
      some report := by
    rw [answer, done]
    rfl
  obtain ⟨s₁, engine, config, stale, built⟩ :=
    Session.rebuilt_of_edit (fun _ => rfl) told
  change s₁.rebuild false = (.ok report, (s.edit change).2) at built
  have ok : (s₁.rebuild false).1 = .ok report := congrArg Prod.fst built
  have runs := runs_of_rebuilt (.inr stale) ok
  have text := Session.programText?_of_rebuilt (.inr stale) ok
  have kept := Session.composition_rebuild false s₁
  have config' := (Session.moves_rebuild false s₁).catalog_eq.1
  rw [built] at runs text kept config'
  refine ⟨report, done, composition, config'.trans config, runs,
    fun before => ?_⟩
  have layers : s₁.layers = c'.layers :=
    congrArg Composition.layers (kept.symm.trans composition)
  rw [text, programOf_eq (by rwa [engine]), layers,
    learnedProgram_congr config]

/-- A layer is shown or hidden and set back. The second edit finds more
published than the first one. -/
theorem set_back {s : Session Learning Rasterizer}
    (sound : s.composition.Sound) {l : Layer} (mem : l ∈ s.layers)
    {id : LayerId} (own : l.id = id) {before visible : Bool}
    (was : l.visible = before) {c' : Composition}
    (applied : Composition.setVisible id visible s.composition = (.ok (), c')) :
    let next := (s.perform (.setVisible id visible)).2
    let last := next.perform (.setVisible id before)
    SessionCommand.UndoneBy s.layers (.setVisible id visible)
        (s.perform (.setVisible id visible)).1 (.setVisible id before) ∧
      next.composition = c' ∧
      (∃ report, last.1.report? = some report) ∧
      last.2.layers = s.layers ∧
      last.2.programOf last.2.layers = learnedProgram s s.layers ∧
      last.2.programText? = some (learnedProgram s s.layers).text := by
  intro next last
  subst own was
  obtain ⟨first, done, composition, config, runs, -⟩ :=
    exists_recompiled applied
  obtain ⟨_, c'', restored, layers⟩ :=
    Composition.restores_setVisible sound mem applied
  rw [← composition] at restored
  obtain ⟨second, done', composition', config', runs', text⟩ :=
    exists_recompiled restored
  have told : (s.perform (.setVisible l.id visible)).1 =
      .changed (.ok { value := (), compile := .ok first }) :=
    congrArg Reply.changed done
  have kept : last.2.layers = s.layers :=
    (congrArg Composition.layers composition').trans layers
  refine ⟨?_, composition,
    ⟨second, congrArg (Reply.report? <| Reply.changed ·) done'⟩, kept, ?_, ?_⟩
  · rw [told]
    exact .setVisible mem
  · have config : last.2.config = s.config := config'.trans config
    rw [programOf_eq (s := last.2) runs', kept, learnedProgram_congr config]
  · have text : last.2.programText? = some _ := text runs
    rw [text, layers, learnedProgram_congr config]
    rfl

/-- If what is published makes a difference for its layers, then a session
that showed a hidden layer and hid it again has the layers from before, but
neither their program nor the text a forced rebuild had committed. -/
theorem shown_and_hidden {s : Session Learning Rasterizer}
    (sound : s.composition.Sound)
    (unlike :
      (s.programOf s.layers).text ≠ (learnedProgram s s.layers).text)
    {id : LayerId} (mem : ∃ l ∈ s.layers, l.id = id ∧ l.visible = false)
    (applied : ∃ c', Composition.setVisible id true s.composition =
      (.ok (), c') ∧ c'.ids.next < LayerId.bound) :
    let reveal : SessionCommand := .setVisible id true
    let hide : SessionCommand := .setVisible id false
    let next := (s.perform reveal).2
    let last := next.perform hide
    next.composition.ids.next < LayerId.bound ∧
      reveal.UndoneBy s.layers (s.perform reveal).1 hide ∧
      (∃ report, last.1.report? = some report) ∧
      last.2.layers = s.layers ∧
      (last.2.programOf last.2.layers).text ≠ (s.programOf s.layers).text ∧
      ∃ forced, (s.rebuild true).1 = .ok forced ∧
        last.2.programText? ≠ (s.rebuild true).2.programText? := by
  intro reveal hide next last
  obtain ⟨hidden, mem, own, was⟩ := mem
  obtain ⟨c', applied, bound⟩ := applied
  obtain ⟨undone, composition, told, layers, program, text⟩ :=
    set_back sound mem own was applied
  obtain ⟨forced, built⟩ := Session.exists_report true (s := s) rfl
    (takes _ _)
  have forcedText := Session.programText?_of_rebuilt (.inl rfl) built
  refine ⟨?_, undone, told, layers, ?_, forced, built, ?_⟩
  · rwa [← composition] at bound
  · rw [program]
    exact unlike.symm
  · rw [text, forcedText]
    exact fun same => unlike (Option.some.inj same).symm

end Simulated.Learning

namespace Workspace

open Simulated (Learning)

/-- A hidden layer is shown and hidden again. In between the engine has come
to publish that the clock is a generator, so the layers are those from
before, but their program is not, nor is the text that is committed. -/
theorem Reachable.undone_under_another_manifest :
    let s := Learning.session
    let reveal : SessionCommand := .setVisible (.ofNat 2) true
    let hide : SessionCommand := .setVisible (.ofNat 2) false
    let next := (s.perform reveal).2
    let last := next.perform hide
    Workspace.Reachable { session := s } ∧
      GraphOfText Learning ∧ VerdictOfText Learning Simulated.Rasterizer ∧
      next.composition.ids.next < LayerId.bound ∧
      reveal.UndoneBy s.layers (s.perform reveal).1 hide ∧
      (∃ report, last.1.report? = some report) ∧
      last.2.layers = s.layers ∧
      (last.2.programOf last.2.layers).text ≠ (s.programOf s.layers).text ∧
      ∃ forced, (s.rebuild true).1 = .ok forced ∧
        last.2.programText? ≠ (s.rebuild true).2.programText? :=
  ⟨Learning.reachable, Learning.graphOfText, Learning.verdictOfText,
    Learning.shown_and_hidden Learning.sound (Learning.text_ne rfl)
      (by decide +kernel)
      ⟨_, Prod.ext (Session.toOption_eq_some (by decide +kernel)) rfl,
        by decide +kernel⟩⟩

end Workspace

end Compositing
