/-
Compositing.Proofs.Workspace.Simulated — workspaces that can be run.

Over the simulated engine every workspace of a stackable list can be
taken through commands and looked at. Its manifest is what it was made
with; an engine that publishes more once it runs a program is
`Simulated.Learning`.
-/
import Compositing.Pipeline.Simulated
import Compositing.Proofs.Workspace.Reachable

namespace Compositing

instance (layers : List Layer) : Decidable (Stackable layers) :=
  decidable_of_iff
    (layers.isEmpty = false ∧
      (∀ l ∈ layers, l.opacity.isFinite = true) ∧
      (layers.flatMap Layer.ids).Nodup)
    ⟨fun ⟨nonempty, finite, distinct⟩ =>
      ⟨List.isEmpty_eq_false_iff.mp nonempty, finite, distinct⟩,
      fun ⟨nonempty, finite, distinct⟩ =>
        ⟨List.isEmpty_eq_false_iff.mpr nonempty, finite, distinct⟩⟩

namespace Workspace

/-- A workspace over layers and a simulated engine. -/
def simulated (settings : Simulated.Settings) (layers : List Layer) :
    Workspace Simulated.Engine Simulated.Rasterizer :=
  { session :=
      { engine := { manifest := {}, settings := settings }
        rasterizer := none
        config := {}
        composition :=
          Composition.ofStack IdSource.fresh (LayerStack.ofStackable layers)
        compiled := none
        stale := true
        revision := 0
        generation := 0
        journal := [] } }

/-- The session of a simulated workspace is new. -/
theorem ofLayers_simulated (settings : Simulated.Settings)
    {layers : List Layer} (h : Stackable layers) :
    Session.ofLayers { manifest := {}, settings := settings } none {}
      layers = .ok (simulated settings layers).session := by
  unfold Session.ofLayers
  rw [LayerStack.ofLayers_eq_ok_iff.mpr ⟨h, rfl⟩]
  rfl

theorem reachable_simulated (settings : Simulated.Settings)
    {layers : List Layer} (h : Stackable layers) :
    (simulated settings layers).Reachable :=
  .start (ofLayers_simulated settings h)

end Workspace

namespace Simulated

/-- A flat base under two hidden layers. -/
def layers : List Layer :=
  [{ id := .ofNat 1, source := .effect (some EffectId.solid) },
    { id := .ofNat 2, visible := false, source := .media "a.png" .image },
    { id := .ofNat 3, visible := false, source := .effect none }]

theorem stackable_layers : Stackable layers := by
  decide +kernel

/-- The simulated engine never changes its manifest. -/
theorem steadyManifest : SteadyManifest Engine where
  load effects e := by
    simp only [EffectEngine.loadEffects, EffectEngine.manifest, Engine.load]
    split
    · rfl
    · split <;> rfl
  compile text e := by
    simp only [EffectEngine.compile, EffectEngine.manifest, Engine.compile]
    split <;> rfl
  apply values e := by
    simp only [EffectEngine.applyParams, EffectEngine.manifest, Engine.apply]
    split <;> rfl
  upload texture source flipY e := by
    simp only [EffectEngine.uploadTexture, EffectEngine.manifest,
      Engine.upload]
    split <;> rfl

/-! ## An engine that learns -/

/-- An effect that no namespace tells to be a generator. -/
def clock : EffectId :=
  ⟨"time", "clock", by decide, by decide⟩

/-- An engine that accepts every program and lays out its calls. That the
clock is a generator it publishes only once it runs a program. -/
structure Learning where
  graph : Option PipelineGraph := none

/-- What is published about the clock. -/
def Learning.learned : Manifest :=
  Manifest.insert {} clock { starter := true }

instance : EffectEngine Learning where
  manifest e := if e.graph.isSome then Learning.learned else {}
  isRegistered _ _ := true
  loadEffects _ e := (.ok (), e)
  compile text _ :=
    (.ok (), { graph := some (Settings.layOut {} (ProgramText.calls text)) })
  graph? e := e.graph
  applyParams _ e := (.ok (), e)
  uploadTexture _ source _ e := (.ok (Engine.extent source), e)

namespace Learning

variable {ρ : Type}

/-- Every text is accepted, with nothing to load, and runs. -/
theorem compileText_eq (text : String) (s : Session Learning ρ) :
    s.compileText text =
      (.ok (), s.asked [.compile text true]
        { graph := some (Settings.layOut {} (ProgramText.calls text)) }) := by
  have missing : s.missingEffects text = [] :=
    List.filter_eq_nil_iff.mpr fun _ _ known => by cases known
  rw [Session.compileText, Session.loadMissing, missing]
  rfl

/-- The program of layers once a program runs. -/
def learnedProgram (s : Session Learning ρ) (layers : List Layer) : Program :=
  Program.ofLayers
    { manifest := learned
      generatorNamespaces := s.config.generatorNamespaces }
    s.config.defaultGenerator layers

theorem programOf_eq {s : Session Learning ρ}
    (runs : s.engine.graph.isSome = true) (layers : List Layer) :
    s.programOf layers = learnedProgram s layers := by
  rw [Session.programOf, Session.catalog, learnedProgram]
  simp only [EffectEngine.manifest, runs, if_true]

theorem learnedProgram_congr {s s' : Session Learning ρ}
    (config : s'.config = s.config) :
    learnedProgram s' = learnedProgram s := by
  unfold learnedProgram
  rw [config]

/-- A clock under two hidden layers. -/
def layers : List Layer :=
  [{ id := .ofNat 1, source := .effect (some clock) },
    { id := .ofNat 2, visible := false, source := .effect none },
    { id := .ofNat 3, visible := false, source := .effect none }]

theorem stackable_layers : Stackable layers := by
  decide +kernel

/-- A session over these layers that has compiled nothing yet. -/
def session : Session Learning Rasterizer :=
  { engine := {}
    rasterizer := none
    config := {}
    composition :=
      Composition.ofStack IdSource.fresh (LayerStack.ofStackable layers)
    compiled := none
    stale := true
    revision := 0
    generation := 0
    journal := [] }

theorem reachable : Workspace.Reachable { session := session } := by
  have made : Session.ofLayers {} none {} layers = .ok session := by
    unfold Session.ofLayers
    rw [LayerStack.ofLayers_eq_ok_iff.mpr ⟨stackable_layers, rfl⟩]
    rfl
  exact .start made

/-- What is published changes the program, however the hidden layers lie:
the clock reads nothing. -/
theorem text_ne {others : List Layer}
    (shown : others.filter (·.visible) = layers.filter (·.visible)) :
    (session.programOf others).text ≠
      (learnedProgram session others).text := by
  unfold Session.programOf learnedProgram Program.ofLayers
  rw [shown]
  decide +kernel

end Learning

end Simulated

end Compositing
