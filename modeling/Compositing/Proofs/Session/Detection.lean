/-
Compositing.Proofs.Session.Detection — what a skipped rebuild saves.

The text of a program does not tell the identities of its layers, so it is
not the text alone that makes it safe to skip a rebuild. As long as a
session is not stale its layers have the skeleton that was committed, and
the step map depends on nothing but the skeleton and the passes. If an
engine shows the same passes for the same text, a forced rebuild would
therefore make the step map that there is already
(`Reachable.change_detection_sound`). An edit leaves the session stale, so
it is never skipped, whatever its text.
-/
import Compositing.Proofs.Session.Acts
import Compositing.Proofs.Session.Committed
import Compositing.Proofs.Session.Updates

namespace Compositing

/-! ## Step maps -/

/-- A step map depends on the invocations and the passes alone. -/
theorem StepMap.build_congr {p q : Program}
    (h : p.invocations = q.invocations) (graph : PipelineGraph) :
    build p graph = build q graph := by
  unfold build Program.baseHasBlend
  rw [h]

/-! ## What was committed -/

/-- The passes that an engine shows when it has accepted a text depend on
the text alone. -/
structure GraphOfText (σ : Type) [EffectEngine σ] : Prop where
  graph : ∀ (text : String) (e e' : σ),
    (EffectEngine.compile text e).1.isOk = true →
    (EffectEngine.compile text e').1.isOk = true →
      EffectEngine.graph? (EffectEngine.compile text e).2 =
        EffectEngine.graph? (EffectEngine.compile text e').2

/-- The passes are those that an engine showed when it had accepted the
program. -/
def Commit.IsExposed (σ : Type) [EffectEngine σ] (made : Commit) : Prop :=
  ∃ e : σ, (EffectEngine.compile made.program.text e).1.isOk = true ∧
    made.graph? =
      EffectEngine.graph? (EffectEngine.compile made.program.text e).2

namespace Session

variable {σ ρ : Type} [EffectEngine σ] {s s' : Session σ ρ}

/-- The engine that has accepted a text has just compiled it. -/
theorem engine_of_compileText_eq_ok {text : String}
    (accepted : s.compileText text = (.ok (), s')) :
    ∃ e : σ, (EffectEngine.compile text e).1.isOk = true ∧
      s'.engine = (EffectEngine.compile text e).2 := by
  unfold compileText at accepted
  split at accepted
  · rename_i s₁ _
    have ok : (EffectEngine.compile text s₁.engine).1 = .ok () :=
      congrArg Prod.fst accepted
    have next : s' = (s₁.requestCompile text).2 :=
      (congrArg Prod.snd accepted).symm
    refine ⟨s₁.engine, ?_, ?_⟩
    · rw [ok]
      rfl
    · rw [next]
      rfl
  · cases accepted

variable [TextRasterizer ρ]

/-! ## What comes of a rebuild -/

/-- A rebuild of `s` has compiled and committed the program. -/
structure Recompiled (s s' : Session σ ρ) (report : CompileReport)
    (made : Commit) : Prop where
  unskipped : report.skipped = false
  mapped : report.mapped = made.stepMap.size
  layers : made.layers = s.layers
  program : made.program = s.programOf s.layers
  exposed : made.IsExposed σ
  inStep : s'.InStep made
  fresh : s'.stale = false
  journal : ∃ events, s'.journal = s.journal ++ events ∧
    Event.acceptedTexts events = [made.program.text] ∧
    Event.commits events = [made]

/-- A rebuild that does not skip commits. -/
theorem exists_recompiled {force : Bool} {report : CompileReport}
    (built : (s.rebuild force).1 = .ok report)
    (unskipped : report.skipped = false) :
    ∃ made, s.Recompiled (s.rebuild force).2 report made := by
  obtain ⟨quiet, engine, isQuiet, same, accepted, eq, mapped⟩ :=
    rebuild_eq_syncTextures built unskipped
  obtain ⟨e, ok, shown⟩ := engine_of_compileText_eq_ok accepted
  have fed := fed_syncTextures (s.adopted quiet engine)
  have inStep := (InStep.adopted s quiet same).fed fed
  rw [eq]
  generalize (s.adopted quiet engine).syncTextures = s' at fed inStep ⊢
  obtain ⟨feeds, engine', rasterizer, isFeed, -⟩ := fed
  let made : Commit :=
    { layers := s.layers
      program := s.programOf s.layers
      graph? := EffectEngine.graph? engine }
  have exposed : made.IsExposed σ :=
    ⟨e, ok, congrArg EffectEngine.graph? shown⟩
  refine ⟨made, unskipped, mapped, rfl, rfl, exposed, inStep, rfl,
    _, List.append_assoc _ _ _, ?_, ?_⟩
  · rw [Event.acceptedTexts_append, Event.acceptedTexts_append,
      Event.acceptedTexts_of_quiet isQuiet,
      Event.acceptedTexts_of_feed isFeed]
    rfl
  · rw [Event.commits_append, Event.commits_append,
      Event.commits_of_quiet isQuiet, Event.commits_of_feed isFeed]
    rfl

/-- A rebuild that skips was not forced and does nothing. The text is the
one that runs. -/
theorem rebuild_of_skipped {force : Bool} {report : CompileReport}
    (built : (s.rebuild force).1 = .ok report)
    (skipped : report.skipped = true) :
    force = false ∧ (s.rebuild force).2 = s ∧ s.stale = false ∧
      ∃ c, s.compiled = some c ∧
        c.program.text = (s.programOf s.layers).text ∧
        report.mapped = c.stepMap.size := by
  cases eq : s.rebuild force with
  | mk result s' =>
    rw [eq] at built
    obtain rfl : result = .ok report := built
    cases rebuilt_of_rebuild eq with
    | skipped c unforced unchanged =>
      unfold unchanged? at unchanged
      split at unchanged
      · cases unchanged
      · rename_i current
        obtain ⟨compiled, text⟩ := Option.filter_eq_some_iff.mp unchanged
        refine ⟨unforced, rfl, ?_, c, compiled, of_decide_eq_true text, rfl⟩
        cases stale : s.stale with
        | false => rfl
        | true => simp [stale] at current
    | committed => cases skipped

/-- A rebuild that is forced, or of a stale session, does not skip. -/
theorem unskipped_of_needed {force : Bool} {report : CompileReport}
    (needed : force = true ∨ s.stale = true)
    (built : (s.rebuild force).1 = .ok report) :
    report.skipped = false := by
  cases skipped : report.skipped with
  | false => rfl
  | true =>
    obtain ⟨unforced, -, fresh, -⟩ := rebuild_of_skipped built skipped
    rcases needed with forced | stale
    · rw [unforced] at forced
      cases forced
    · rw [fresh] at stale
      cases stale

/-! ## Commits of whole runs -/

omit [TextRasterizer ρ] in
theorem Fed.commits_eq (fed : s.Fed s') :
    Event.commits s'.journal = Event.commits s.journal := by
  obtain ⟨events, engine, rasterizer, feed, -⟩ := fed
  exact (Event.commits_append _ _).trans
    (by rw [Event.commits_of_feed feed, List.append_nil])

/-- Only rebuilds commit. -/
theorem Act.commits_eq_or_rebuild (act : s.Act s') :
    Event.commits s'.journal = Event.commits s.journal ∨
      ∃ force, s' = (s.rebuild force).2 := by
  cases act with
  | rebuild force => exact .inr ⟨force, rfl⟩
  | trial text =>
    refine .inl ?_
    unfold tryCompile
    obtain ⟨quiet, engine, isQuiet, -, accepted | ⟨e, refused⟩⟩ :=
      compileText_cases text s
    · rw [accepted]
      simp only [asked, Event.commits_append,
        Event.commits_of_quiet isQuiet]
      exact List.append_nil _
    · rw [refused]
      simp only [asked, Event.commits_append,
        Event.commits_of_quiet isQuiet]
      exact List.append_nil _
  | patch id patch =>
    exact .inl (fed_updating _ (fed_followParams id patch) s).commits_eq
  | opacity id opacity =>
    exact .inl (fed_updating _ (fed_followOpacity id opacity) s).commits_eq
  | offset id offset =>
    exact .inl (fed_updating _ (fed_followOffset id offset) s).commits_eq
  | video => exact .inl (fed_refreshVideo s).commits_eq
  | relabel => exact .inl rfl
  | revise => exact .inl rfl
  | notify reason =>
    exact .inl ((Event.commits_append _ _).trans (List.append_nil _))
  | drift => exact .inl rfl

/-- What a rebuild commits was shown by an engine that had accepted it. -/
theorem exposed_of_rebuild {force : Bool} {made : Commit}
    (mem : made ∈ Event.commits (s.rebuild force).2.journal) :
    made ∈ Event.commits s.journal ∨ made.IsExposed σ := by
  cases built : (s.rebuild force).1 with
  | error e =>
    have eq : s.rebuild force = (.error e, (s.rebuild force).2) :=
      Prod.ext built rfl
    generalize (s.rebuild force).2 = s' at eq mem
    cases rebuilt_of_rebuild eq with
    | refused e events engine quiet same =>
      simp only [asked, Event.commits_append,
        Event.commits_of_quiet quiet, List.append_nil] at mem
      exact .inl mem
  | ok report =>
    cases skipped : report.skipped with
    | true =>
      rw [(rebuild_of_skipped built skipped).2.1] at mem
      exact .inl mem
    | false =>
      obtain ⟨new, recompiled⟩ := exists_recompiled built skipped
      obtain ⟨events, journal, -, commits⟩ := recompiled.journal
      rw [journal, Event.commits_append, commits, List.mem_append,
        List.mem_singleton] at mem
      rcases mem with old | rfl
      · exact .inl old
      · exact .inr recompiled.exposed

/-- Whatever acts commit was shown by an engine that had accepted it. -/
theorem Acts.exposed (acts : s.Acts s') {made : Commit}
    (mem : made ∈ Event.commits s'.journal) :
    made ∈ Event.commits s.journal ∨ made.IsExposed σ := by
  induction acts with
  | refl => exact .inl mem
  | @tail b c _ act ih =>
    rcases act.commits_eq_or_rebuild with same | ⟨force, rfl⟩
    · rw [same] at mem
      exact ih mem
    · rcases exposed_of_rebuild mem with old | new
      · exact ih old
      · exact .inr new

/-! ## Change detection -/

/-- Two commits of one text, made of layers of one skeleton by an engine
that shows what the text tells, have one step map. -/
theorem stepMap_eq_of_exposed (graphs : GraphOfText σ) {made made' : Commit}
    (h : made.IsExposed σ) (h' : made'.IsExposed σ)
    (text : made.program.text = made'.program.text)
    (invocations : made.program.invocations = made'.program.invocations) :
    made.stepMap = made'.stepMap := by
  obtain ⟨e, ok, graph⟩ := h
  obtain ⟨e', ok', graph'⟩ := h'
  rw [text] at ok graph
  have same : made.graph? = made'.graph? := by
    rw [graph, graph', graphs.graph _ e e' ok ok']
  unfold Commit.stepMap
  rw [same]
  cases made'.graph? with
  | none => rfl
  | some graph => exact StepMap.build_congr invocations graph

end Session

/-- What the reply tells of a compile that succeeded or was skipped. -/
def Reply.report? : Reply → Option CompileReport
  | .rebuilt result => result.toOption
  | .created result => result.toOption.bind (·.compile.toOption)
  | .removedLayer result => result.toOption.bind (·.compile.toOption)
  | .removedChild result => result.toOption.bind (·.compile.toOption)
  | .changed result => result.toOption.bind (·.compile.toOption)
  | _ => none

namespace Session

variable {σ ρ : Type} [EffectEngine σ] [TextRasterizer ρ]
  {s : Session σ ρ}

/-- The program of the session has been compiled and committed since
`s`. -/
def CommittedSince (s s' : Session σ ρ) : Prop :=
  ∃ events made, s'.journal = s.journal ++ events ∧
    Event.acceptedTexts events = [made.program.text] ∧
    Event.commits events = [made] ∧
    made.layers = s'.layers ∧
    s'.programText? = some made.program.text

omit [TextRasterizer ρ] in
theorem Recompiled.committedSince {s' : Session σ ρ}
    {report : CompileReport} {made : Commit}
    (h : s.Recompiled s' report made)
    (composition : s'.composition = s.composition) :
    s.CommittedSince s' := by
  obtain ⟨events, journal, texts, commits⟩ := h.journal
  refine ⟨events, made, journal, texts, commits, ?_, ?_⟩
  · rw [h.layers]
    exact congrArg Composition.layers composition.symm
  · rw [programText?, h.inStep.compiled]
    rfl

/-- A session that is stale is compiled in any case. -/
theorem committedSince_rebuild {s₁ : Session σ ρ} {force : Bool}
    {report : CompileReport} (stale : s₁.stale = true)
    (journal : s₁.journal = s.journal)
    (built : (s₁.rebuild force).1 = .ok report) :
    report.skipped = false ∧ s.CommittedSince (s₁.rebuild force).2 := by
  have unskipped := unskipped_of_needed (.inr stale) built
  obtain ⟨made, recompiled⟩ := exists_recompiled built unskipped
  have since := recompiled.committedSince (composition_rebuild force s₁)
  unfold CommittedSince at since ⊢
  rw [journal] at since
  exact ⟨unskipped, since⟩

theorem committedSince_edit {α : Type} {change : Edit α} {value : Edited α}
    {report : CompileReport} (applied : (s.edit change).1 = .ok value)
    (built : value.compile = .ok report) :
    report.skipped = false ∧ s.CommittedSince (s.edit change).2 := by
  have journal : (s.touch change).2.journal = s.journal := rfl
  unfold edit at applied ⊢
  cases touched : s.touch change with
  | mk result s₁ =>
    rw [touched] at applied journal
    cases result with
    | error e => cases applied
    | ok result =>
      simp only [Prod.map, Except.ok.injEq] at applied
      subst applied
      dsimp only [Prod.map, id] at built ⊢
      exact committedSince_rebuild rfl journal built

theorem toOption_eq_some {α : Type} {result : Except Error α} {value : α}
    (h : result.toOption = some value) : result = .ok value := by
  cases result with
  | error e => cases h
  | ok value' => rw [Option.some.inj h]

/-- What the reply to an edit tells of the compile. -/
theorem committedSince_answer_edit {α : Type}
    {tag : Except Error (Edited α) → Reply} {change : Edit α}
    {report : CompileReport}
    (tells : ∀ result, (tag result).report? =
      result.toOption.bind (·.compile.toOption))
    (told : (answer tag (s.edit change)).1.report? = some report) :
    report.skipped = false ∧
      s.CommittedSince (answer tag (s.edit change)).2 := by
  rw [answer, tells] at told
  obtain ⟨value, applied, built⟩ := Option.bind_eq_some_iff.mp told
  exact committedSince_edit (toOption_eq_some applied)
    (toOption_eq_some built)

/-- Whatever compiles other than a rebuild compiles in any case. -/
theorem committedSince_perform {command : SessionCommand}
    {report : CompileReport} (other : ∀ force, command ≠ .rebuild force)
    (told : (s.perform command).1.report? = some report) :
    report.skipped = false ∧ s.CommittedSince (s.perform command).2 := by
  cases command with
  | rebuild force => exact absurd rfl (other force)
  | setLayers layers =>
    have built : (s.setLayers layers).1 = .ok report :=
      toOption_eq_some told
    show report.skipped = false ∧ s.CommittedSince (s.setLayers layers).2
    unfold setLayers at built ⊢
    split at built
    · cases built
    · rename_i stack made
      exact committedSince_rebuild rfl rfl built
  | addLayer | duplicateLayer | extractChild | addChild
  | removeLayer | removeChild
  | setVisible | setChildVisible | setBlendMode | setEffect =>
    exact committedSince_answer_edit (fun _ => rfl) told
  | _ => cases told

end Session

/-! ## On an engine that accepts everything -/

namespace Simulated

/-- An engine that accepts every program and lays out its calls. -/
structure Obliging where
  graph : Option PipelineGraph := none

instance : EffectEngine Obliging where
  manifest _ := {}
  isRegistered _ _ := true
  loadEffects _ e := (.ok (), e)
  compile text _ :=
    (.ok (), { graph := some (Settings.layOut {} (ProgramText.calls text)) })
  graph? e := e.graph
  applyParams _ e := (.ok (), e)
  uploadTexture _ source _ e := (.ok (Engine.extent source), e)

theorem steadyManifest_obliging : SteadyManifest Obliging :=
  ⟨fun _ _ => rfl, fun _ _ => rfl, fun _ _ => rfl, fun _ _ _ _ => rfl⟩

theorem graphOfText_obliging : GraphOfText Obliging :=
  ⟨fun _ _ _ _ _ => rfl⟩

/-- A session over a flat base on such an engine. -/
def obligingSession : Session Obliging Rasterizer :=
  { engine := {}
    rasterizer := none
    config := {}
    composition :=
      Composition.ofStack IdSource.fresh (LayerStack.ofStackable layers)
    compiled := none
    stale := true
    revision := 0
    generation := 0
    journal := [] }

theorem reachable_obliging :
    Workspace.Reachable { session := obligingSession } := by
  have made : Session.ofLayers {} none {} layers = .ok obligingSession := by
    unfold Session.ofLayers
    rw [LayerStack.ofLayers_eq_ok_iff.mpr ⟨stackable_layers, rfl⟩]
    rfl
  exact .start made

end Simulated

/-! ## Whole runs -/

namespace Workspace

variable {σ ρ : Type} [EffectEngine σ] [TextRasterizer ρ]

/-- Where an engine shows what the text of a program tells, a rebuild is
skipped only if a forced one would make what there is: the same text, step
map and count. No other command that compiles is ever skipped, so that a
success means that the program was compiled and committed, whatever its
text. -/
theorem Reachable.change_detection_sound {w : Workspace σ ρ}
    (h : w.Reachable) (steady : SteadyManifest σ)
    (graphs : GraphOfText σ) :
    (∀ report, (w.session.rebuild false).1 = .ok report →
      report.skipped = true →
      ∀ forced, (w.session.rebuild true).1 = .ok forced →
        let kept := (w.session.rebuild false).2
        let made := (w.session.rebuild true).2
        made.programText? = kept.programText? ∧
          made.stepMap? = kept.stepMap? ∧
          made.stepMap?.isSome = true ∧
          forced.mapped = report.mapped ∧
          made.composition = kept.composition) ∧
    ∀ command, (∀ force, command ≠ .rebuild force) →
      ∀ report,
        (w.perform (.session command)).1.report? = some report →
          report.skipped = false ∧
            w.session.CommittedSince
              (w.perform (.session command)).2.session := by
  refine ⟨fun report built skipped forced built' => ?_,
    fun command other report told =>
      Session.committedSince_perform other told⟩
  obtain ⟨-, eq, fresh, c, compiled, text, mapped⟩ :=
    Session.rebuild_of_skipped built skipped
  -- What runs was committed, and its layers had this skeleton.
  obtain ⟨_, _, _, _, s, start, acts⟩ := h.exists_acts
  obtain ⟨_, _, _, _, stale, journal⟩ := ofLayers_eq_ok start
  obtain ⟨old, inStep⟩ := acts.moves.inStep stale fresh
  have exposed : old.IsExposed σ := by
    have mem := List.mem_of_getLast? inStep.lastCommit
    rcases acts.exposed mem with none | exposed
    · rw [journal] at none
      cases none
    · exact exposed
  -- A forced rebuild commits a program of the same invocations.
  have unskipped := Session.unskipped_of_needed (.inl rfl) built'
  obtain ⟨new, recompiled⟩ := Session.exists_recompiled built' unskipped
  rw [inStep.compiled] at compiled
  obtain rfl := Option.some.inj compiled
  have text : old.program.text = new.program.text := by
    rw [recompiled.program]
    exact text
  have invocations : old.program.invocations = new.program.invocations := by
    rw [recompiled.program, inStep.program steady]
    exact Program.invocations_of_skeleton_eq _ _ inStep.skeleton.symm
  have map : old.stepMap = new.stepMap :=
    Session.stepMap_eq_of_exposed graphs exposed recompiled.exposed text
      invocations
  have shown : w.session.stepMap? = some old.stepMap := by
    rw [Session.stepMap?, fresh, inStep.compiled]
    rfl
  have shown' : (w.session.rebuild true).2.stepMap? = some new.stepMap := by
    rw [Session.stepMap?, recompiled.fresh, recompiled.inStep.compiled]
    rfl
  dsimp only
  rw [eq, shown', shown, map, mapped, recompiled.mapped,
    Session.composition_rebuild]
  refine ⟨?_, rfl, rfl, ?_, rfl⟩
  · rw [Session.programText?, Session.programText?,
      recompiled.inStep.compiled, inStep.compiled]
    exact congrArg some text.symm
  · exact congrArg StepMap.size map.symm

/-- A rebuild is skipped after an opacity has been set and set back; an
edit that leaves the text as it is does compile. -/
theorem Reachable.change_detection_sound_of_text_restored :
    let start : Workspace Simulated.Obliging Simulated.Rasterizer :=
      { session := Simulated.obligingSession }
    let w := (start.run
      [.session (.rebuild false),
        .session (.updateOpacity (.ofNat 1) 50.0),
        .session (.updateOpacity (.ofNat 1) 100.0)]).2
    let edit : SessionCommand := .setVisible (.ofNat 2) false
    w.Reachable ∧ SteadyManifest Simulated.Obliging ∧
      GraphOfText Simulated.Obliging ∧
      (w.session.rebuild false).1 = .ok { skipped := true, mapped := 1 } ∧
      (w.session.rebuild true).1 = .ok { skipped := false, mapped := 1 } ∧
      (w.session.rebuild true).2.stepMap? =
        (w.session.rebuild false).2.stepMap? ∧
      (w.perform (.session edit)).2.session.programText? =
        w.session.programText? ∧
      (w.perform (.session edit)).1.report? =
        some { skipped := false, mapped := 1 } ∧
      w.session.CommittedSince (w.perform (.session edit)).2.session := by
  intro start w edit
  have reachable : w.Reachable := Simulated.reachable_obliging.run _
  obtain ⟨sound, compiles⟩ := reachable.change_detection_sound
    Simulated.steadyManifest_obliging Simulated.graphOfText_obliging
  have skipped : (w.session.rebuild false).1.toOption =
      some { skipped := true, mapped := 1 } := by
    decide +kernel
  have forced : (w.session.rebuild true).1.toOption =
      some { skipped := false, mapped := 1 } := by
    decide +kernel
  have skipped := Session.toOption_eq_some skipped
  have forced := Session.toOption_eq_some forced
  have told : (w.perform (.session edit)).1.report? =
      some { skipped := false, mapped := 1 } := by
    decide +kernel
  have text : (w.perform (.session edit)).2.session.programText? =
      w.session.programText? := by
    decide +kernel
  obtain ⟨-, map, -⟩ := sound _ skipped rfl _ forced
  exact ⟨reachable, Simulated.steadyManifest_obliging,
    Simulated.graphOfText_obliging, skipped, forced, map, text, told,
    (compiles edit nofun _ told).2⟩

end Workspace

end Compositing
