/-
Compositing.Proofs.Session.Siblings — one texture that fails holds up no
other one.

What comes of a texture is up to the engine and the rasterizer (`Filled`,
`TextUpload.Served`). Whether the next one is attempted is not. So what a
commit attempts is known before anything has answered (`Synced`), and two
sessions that differ in nothing but their answers attempt the same
(`Unaffected`). Videos are refreshed only while the step map is valid
(`dueVideos`).
-/
import Compositing.Proofs.Session.Textures
import Compositing.Proofs.Workspace.Simulated

namespace Compositing

/-! ## Attempts -/

namespace Event

/-- The medium that an engine was asked to take, with its texture and
whether it was to be flipped. -/
def medium? : Event → Option (String × TextureSource × Bool)
  | .upload texture (.media reference kind) flipY _ =>
    some (texture, .media reference kind, flipY)
  | _ => none

/-- The text that a rasterizer was asked to draw. -/
def drawing? : Event → Option Params
  | .rasterize params => some params
  | _ => none

/-- The parameters that an engine was asked to set. -/
def pushed? : Event → Option StepParams
  | .push values _ => some values
  | _ => none

end Event

/-- What an engine is asked to take for a medium. -/
def MediaUpload.attempt (flipY : Bool) (u : MediaUpload) :
    String × TextureSource × Bool :=
  (textureName mediaSlot u.step, .media u.reference u.kind, flipY)

/-! ## One texture -/

section Serving

variable {σ ρ : Type} [EffectEngine σ]

theorem MediaUpload.Served.media_eq {u : MediaUpload} {flipY tell : Bool}
    {x y : σ × Option ρ} {events : List Event}
    (h : u.Served flipY tell x events y) :
    events.filterMap Event.medium? = [u.attempt flipY] := by
  obtain ⟨engine, engine', rasterizer, events, filled⟩ := h
  cases filled <;> rfl

theorem MediaUpload.Served.drawings_eq {u : MediaUpload}
    {flipY tell : Bool} {x y : σ × Option ρ} {events : List Event}
    (h : u.Served flipY tell x events y) :
    events.filterMap Event.drawing? = [] := by
  obtain ⟨engine, engine', rasterizer, events, filled⟩ := h
  cases filled <;> rfl

theorem MediaUpload.Served.pushes_eq {u : MediaUpload} {flipY : Bool}
    {x y : σ × Option ρ} {events : List Event}
    (h : u.Served flipY false x events y) :
    events.filterMap Event.pushed? = [] := by
  obtain ⟨engine, engine', rasterizer, events, filled⟩ := h
  cases filled with
  | refused => rfl
  | silent => rfl
  | told loud => cases loud

variable [TextRasterizer ρ]

theorem TextUpload.Served.media_eq {u : TextUpload} {flipY : Bool}
    {x y : σ × Option ρ} {events : List Event}
    (h : u.Served flipY x events y) :
    events.filterMap Event.medium? = [] := by
  cases h with
  | undrawable => rfl
  | undrawn => rfl
  | drawn _ _ _ _ _ _ _ filled => cases filled <;> rfl

theorem TextUpload.Served.drawings_eq {u : TextUpload} {flipY : Bool}
    {x y : σ × Option ρ} {events : List Event}
    (h : u.Served flipY x events y) :
    events.filterMap Event.drawing? =
      if x.2.isSome then [u.params] else [] := by
  cases h with
  | undrawable => rfl
  | undrawn => rfl
  | drawn _ _ _ _ _ _ _ filled => cases filled <;> rfl

end Serving

/-! ## One texture after another -/

namespace InSequence

section Reading

variable {α β τ : Type} {Serve : α → τ → List Event → τ → Prop}
  {items : List α} {x y : τ} {events : List Event}
  {read : Event → Option β}

/-- What is read off the events of each item is read off those of all of
them, item by item. -/
theorem filterMap_eq (Keeps : τ → Prop) (wanted : α → List β)
    (step : ∀ {a x block y}, Serve a x block y → Keeps x → Keeps y)
    (each : ∀ {a x block y}, Serve a x block y → Keeps x →
      block.filterMap read = wanted a)
    (h : InSequence Serve items x events y) (start : Keeps x) :
    events.filterMap read = items.flatMap wanted := by
  induction h with
  | nil => rfl
  | cons served more ih =>
    rw [List.filterMap_append, List.flatMap_cons, each served start,
      ih (step served start)]

theorem filterMap_eq_map {wanted : α → β}
    (each : ∀ {a x block y}, Serve a x block y →
      block.filterMap read = [wanted a])
    (h : InSequence Serve items x events y) :
    events.filterMap read = items.map wanted := by
  rw [List.map_eq_flatMap]
  exact h.filterMap_eq (fun _ => True) _ (fun _ => id)
    (fun served _ => each served) trivial

theorem filterMap_eq_nil
    (each : ∀ {a x block y}, Serve a x block y → block.filterMap read = [])
    (h : InSequence Serve items x events y) :
    events.filterMap read = [] := by
  rw [h.filterMap_eq (fun _ => True) (fun _ => []) (fun _ => id)
    (fun served _ => each served) trivial]
  exact List.flatMap_eq_nil_iff.mpr fun _ _ => rfl

end Reading

/-- Each text is drawn, in order, if there is a rasterizer. -/
theorem drawings_eq {σ ρ : Type} [EffectEngine σ] [TextRasterizer ρ]
    {uploads : List TextUpload} {flipY : Bool} {x y : σ × Option ρ}
    {events : List Event}
    (h : InSequence (TextUpload.Served · flipY) uploads x events y) :
    events.filterMap Event.drawing? =
      if x.2.isSome then uploads.map (·.params) else [] := by
  have each := h.filterMap_eq (fun z => z.2.isSome = x.2.isSome)
    (fun u => if x.2.isSome then [u.params] else [])
    (fun served keeps => served.isSome_eq.trans keeps)
    (fun served keeps => by rw [served.drawings_eq, keeps]) rfl
  rw [each]
  split
  · exact List.map_eq_flatMap.symm
  · exact List.flatMap_eq_nil_iff.mpr fun _ _ => rfl

end InSequence

/-! ## Sessions -/

namespace Session

variable {σ ρ : Type} [EffectEngine σ] [TextRasterizer ρ]

/-! ## Commits -/

/-- A rebuild does not skip, and `ready` is the session once its engine has
accepted the program. -/
structure Readied (s : Session σ ρ) (force : Bool) (ready : Session σ ρ) :
    Prop where
  unskipped :
    (if force then none else s.unchanged? (s.programOf s.layers)) = none
  accepted : s.compileText (s.programOf s.layers).text = (.ok (), ready)

omit [TextRasterizer ρ] in
/-- Whatever comes of the media, the engine shows and publishes the same
afterwards. -/
def Calm (s : Session σ ρ) : Prop :=
  ∀ events after,
    InSequence (MediaUpload.Served · s.config.flipY true) s.dueMedia
      s.surroundings events after →
    EffectEngine.graph? after.1 = EffectEngine.graph? s.engine ∧
      EffectEngine.manifest after.1 = EffectEngine.manifest s.engine

omit [TextRasterizer ρ] in
theorem calm_of_steady (still : SteadyGraph σ) (steady : SteadyManifest σ)
    (s : Session σ ρ) : s.Calm := by
  intro events after served
  refine served.keeps (fun x =>
    EffectEngine.graph? x.1 = EffectEngine.graph? s.engine ∧
      EffectEngine.manifest x.1 = EffectEngine.manifest s.engine) ?_ ⟨rfl, rfl⟩
  intro u x block y served same
  exact ⟨(served.look_eq still.upload still.apply).trans same.1,
    (served.look_eq steady.upload steady.apply).trans same.2⟩

/-- Two sessions that have the same to upload, whatever their surroundings
answer. -/
structure Matches {σ' ρ' : Type} [EffectEngine σ'] (s : Session σ ρ)
    (t : Session σ' ρ') : Prop where
  composition : t.composition = s.composition
  config : t.config = s.config
  manifest : EffectEngine.manifest t.engine = EffectEngine.manifest s.engine
  graph : EffectEngine.graph? t.engine = EffectEngine.graph? s.engine
  drawable : t.rasterizer.isSome = s.rasterizer.isSome

/-- What a commit of a program does once the engine has accepted it,
whatever comes of the textures. -/
structure Synced (ready : Session σ ρ) (program : Program)
    (later : List Event)
    (outcome : Except Error CompileReport × Session σ ρ) : Prop where
  report : outcome.1 =
    .ok { skipped := false, mapped := (ready.mapOf program).size }
  stepMap : outcome.2.stepMap? = some (ready.mapOf program)
  journal : outcome.2.journal = ready.journal ++ later
  media : later.filterMap Event.medium? =
    ready.dueMedia.map (MediaUpload.attempt ready.config.flipY)
  drawings : later.filterMap Event.drawing? =
    if ready.rasterizer.isSome then ready.textUploads.map (·.params) else []
  served : ∃ made media between texts,
    later = .commit made :: (media ++ texts) ∧
      InSequence (MediaUpload.Served · ready.config.flipY true)
        ready.dueMedia ready.surroundings media between ∧
      InSequence (TextUpload.Served · ready.config.flipY)
        ready.textUploads between texts outcome.2.surroundings

/-- Two commits give the same report and the same step map and have
attempted the same. -/
structure Unaffected {σ' ρ' : Type}
    (later : List Event) (outcome : Except Error CompileReport × Session σ ρ)
    (later' : List Event)
    (outcome' : Except Error CompileReport × Session σ' ρ') : Prop where
  report : outcome'.1 = outcome.1
  stepMap : outcome'.2.stepMap? = outcome.2.stepMap?
  media : later'.filterMap Event.medium? = later.filterMap Event.medium?
  drawings : later'.filterMap Event.drawing? = later.filterMap Event.drawing?

namespace Matches

variable {σ' ρ' : Type} [EffectEngine σ'] {s : Session σ ρ}
  {t : Session σ' ρ'}

omit [TextRasterizer ρ] in
theorem dueMedia_eq (h : s.Matches t) : t.dueMedia = s.dueMedia := by
  unfold dueMedia mediaUploads? visibleLayers layers
  rw [h.composition, h.graph]

omit [TextRasterizer ρ] in
theorem textUploads_eq (h : s.Matches t) : t.textUploads = s.textUploads := by
  unfold textUploads textEffects textUploadsOf catalog visibleLayers layers
  rw [h.composition, h.config, h.manifest, h.graph]

omit [TextRasterizer ρ] in
theorem mapOf_eq (h : s.Matches t) (program : Program) :
    t.mapOf program = s.mapOf program := by
  unfold mapOf
  rw [h.graph]

/-- Commits of one program by sessions that match differ in what came of
the textures, and in nothing else. -/
theorem unaffected [TextRasterizer ρ'] (h : s.Matches t) {program : Program}
    {later later' : List Event}
    {outcome : Except Error CompileReport × Session σ ρ}
    {outcome' : Except Error CompileReport × Session σ' ρ'}
    (synced : s.Synced program later outcome)
    (synced' : t.Synced program later' outcome') :
    Unaffected later outcome later' outcome' where
  report := by rw [synced'.report, synced.report, h.mapOf_eq]
  stepMap := by rw [synced'.stepMap, synced.stepMap, h.mapOf_eq]
  media := by rw [synced'.media, synced.media, h.dueMedia_eq, h.config]
  drawings := by
    rw [synced'.drawings, synced.drawings, h.textUploads_eq, h.drawable]

end Matches

omit [TextRasterizer ρ] in
/-- On an engine that is calm the texts to upload are the same once the
media are served. -/
theorem Calm.textUploads_eq {s : Session σ ρ} (calm : s.Calm)
    {media : List Event} {between : σ × Option ρ}
    (served : InSequence (MediaUpload.Served · s.config.flipY true) s.dueMedia
      s.surroundings media between) :
    (s.answered media between).textUploads = s.textUploads := by
  obtain ⟨graph, manifest⟩ := calm _ _ served
  have matching : s.Matches (s.answered media between) :=
    ⟨rfl, rfl, manifest, graph, congrArg _ served.rasterizer_eq⟩
  exact matching.textUploads_eq

/-- A commit of a program that the engine has accepted. -/
theorem exists_synced {ready : Session σ ρ} (calm : ready.Calm)
    (program : Program) : ∃ later,
      ready.Synced program later ((ready.commit program).map .ok id) := by
  let made : Commit :=
    { layers := ready.layers
      program := program
      graph? := EffectEngine.graph? ready.engine }
  let committed : Session σ ρ :=
    { ready with
      compiled := some { program := program, stepMap := ready.mapOf program }
      stale := false
      generation := ready.generation + 1
      journal := ready.journal ++ [.commit made] }
  have calm : committed.Calm := calm
  obtain ⟨media, between, texts, after, served, served', eq⟩ :=
    exists_syncTextures committed
  rw [calm.textUploads_eq served] at served'
  have outcome : (ready.commit program).2 =
      committed.answered (media ++ texts) after := eq
  refine ⟨.commit made :: (media ++ texts), ?_⟩
  exact
    { report := rfl
      stepMap := by
        show (ready.commit program).2.stepMap? = _
        rw [outcome]
        rfl
      journal := by
        show (ready.commit program).2.journal = _
        rw [outcome]
        simp [answered, committed]
      media := by
        rw [List.filterMap_cons_none rfl, List.filterMap_append,
          served.filterMap_eq_map fun served => served.media_eq,
          served'.filterMap_eq_nil fun served => served.media_eq,
          List.append_nil]
        rfl
      drawings := by
        rw [List.filterMap_cons_none rfl, List.filterMap_append,
          served.filterMap_eq_nil fun served => served.drawings_eq,
          served'.drawings_eq, served.rasterizer_eq]
        rfl
      served := by
        refine ⟨made, media, between, texts, rfl, served, ?_⟩
        show InSequence _ _ _ _ (ready.commit program).2.surroundings
        rw [outcome]
        exact served' }

/-! ## Refreshing -/

/-- The videos that a refresh uploads: those of the session, as long as its
step map is valid. -/
def dueVideos (s : Session σ ρ) : List MediaUpload :=
  if s.stepMap?.isSome then s.dueMedia.filter fun u => u.kind = .video
  else []

/-- What a refresh does, whatever comes of the textures. -/
structure Refreshed (s : Session σ ρ) (events : List Event)
    (outcome : Nat × Session σ ρ) : Prop where
  count : outcome.1 = events.countP Event.isTaken
  journal : outcome.2.journal = s.journal ++ events
  media : events.filterMap Event.medium? =
    s.dueVideos.map (MediaUpload.attempt s.config.flipY)
  drawings : events.filterMap Event.drawing? = []
  pushes : events.filterMap Event.pushed? = []
  served : InSequence (MediaUpload.Served · s.config.flipY false)
    s.dueVideos s.surroundings events outcome.2.surroundings

omit [TextRasterizer ρ] in
theorem refreshVideo_eq (s : Session σ ρ) :
    s.refreshVideo = uploadCounting s.dueVideos s := by
  unfold refreshVideo dueVideos dueMedia
  cases s.stepMap? with
  | none => rfl
  | some map => cases s.mediaUploads? <;> rfl

omit [TextRasterizer ρ] in
/-- Without a valid step map a refresh does nothing. -/
theorem eq_nil_of_stale {s : Session σ ρ} {events : List Event}
    (stale : s.stepMap? = none)
    (journal : s.refreshVideo.2.journal = s.journal ++ events) :
    events = [] := by
  rw [refreshVideo_eq, dueVideos, stale] at journal
  exact List.self_eq_append_right.mp journal

omit [TextRasterizer ρ] in
theorem exists_refreshed (s : Session σ ρ) :
    ∃ events, s.Refreshed events s.refreshVideo := by
  obtain ⟨events, after, served, eq⟩ := exists_uploadCounting s.dueVideos s
  rw [refreshVideo_eq, eq]
  exact ⟨events,
    { count := rfl
      journal := rfl
      media := served.filterMap_eq_map fun served => served.media_eq
      drawings := served.filterMap_eq_nil fun served => served.drawings_eq
      pushes := served.filterMap_eq_nil fun served => served.pushes_eq
      served := served }⟩

/-! ## Siblings -/

theorem rebuild_of_readied {s ready : Session σ ρ} {force : Bool}
    (h : s.Readied force ready) :
    s.rebuild force = (ready.commit (s.programOf s.layers)).map .ok id := by
  rw [rebuild, h.unskipped, h.accepted]
  rfl

/-- In every session and whatever the engine and the rasterizer answer: a
rebuild whose program was accepted by a calm engine reports the same, makes
the same step map, and attempts the same media and drawings, in the same
order, as any other one that had the same to upload. A refresh attempts the
videos if the step map is valid, and counts those that were taken. -/
theorem siblings_unaffected (s : Session σ ρ) :
    (∀ force ready, s.Readied force ready → ready.Calm →
      ∃ later,
        ready.Synced (s.programOf s.layers) later (s.rebuild force) ∧
        ∀ {σ' ρ' : Type} [EffectEngine σ'] [TextRasterizer ρ']
          (t : Session σ' ρ') (force' : Bool) (ready' : Session σ' ρ'),
          t.Readied force' ready' → ready'.Calm → ready.Matches ready' →
          t.programOf t.layers = s.programOf s.layers →
          ∃ later',
            ready'.Synced (t.programOf t.layers) later' (t.rebuild force') ∧
              Unaffected later (s.rebuild force) later'
                (t.rebuild force')) ∧
      ∃ events, s.Refreshed events s.refreshVideo := by
  refine ⟨fun force ready accepted calm => ?_, exists_refreshed s⟩
  obtain ⟨later, synced⟩ := exists_synced calm (s.programOf s.layers)
  rw [← rebuild_of_readied accepted] at synced
  refine ⟨later, synced, ?_⟩
  intro σ' ρ' _ _ t force' ready' accepted' calm' matching same
  obtain ⟨later', synced'⟩ := exists_synced calm' (t.programOf t.layers)
  rw [← rebuild_of_readied accepted'] at synced'
  refine ⟨later', synced', ?_⟩
  rw [same] at synced'
  exact matching.unaffected synced synced'

end Session

/-! ## On the simulated engine -/

namespace Simulated

/-- Whatever parameters and textures it refuses, the engine accepts a
program of known effects. -/
theorem exists_readied {ρ : Type} {s : Session Engine ρ}
    {known : List EffectId} {steps : List Nat} {textures : List String}
    (stale : s.stale = true)
    (settings : s.engine.settings =
      { registered := known
        failPushSteps := steps
        failTextures := textures })
    (plain : ∀ l ∈ s.layers, l.PlainNames)
    (registered : ∀ effect ∈
      (s.programOf s.layers).invocations.map (·.effect), effect ∈ known)
    (force : Bool) :
    ∃ quiet engine, s.Readied force (s.asked quiet engine) ∧
      EffectEngine.manifest engine = EffectEngine.manifest s.engine ∧
      EffectEngine.graph? engine = some (Settings.layOut {}
        ((s.programOf s.layers).invocations.map (·.effect))) := by
  have calls := Session.calls_programOf plain
  rw [← calls] at registered ⊢
  have accepted := compileText_eq settings registered
  have graph := graph?_running (e := s.engine) (by rw [settings])
    (ProgramText.calls (s.programOf s.layers).text)
  exact ⟨_, _, ⟨by simp [Session.unchanged?, stale], accepted⟩, rfl, graph⟩

end Simulated

namespace Session

/-- A video below a title. -/
def posterLayers : List Layer :=
  [{ id := .ofNat 1, source := .media "clip.mp4" .video },
    { id := .ofNat 2
      source := .effect (some title)
      params := Params.empty.insert "text" (.str "hello") trivial }]

/-- These layers over an engine that refuses parameters for some steps and
some textures. -/
def poster (steps : List Nat) (textures : List String) :
    Session Simulated.Engine Simulated.Rasterizer :=
  { (Workspace.simulated {} posterLayers).session with
    engine :=
      { manifest := Manifest.insert {} title
          { externalTexture := some "textTex" }
        settings :=
          { registered :=
              [EffectId.solid, EffectId.media, EffectId.blend, title]
            failPushSteps := steps
            failTextures := textures } }
    rasterizer := some {} }

/-- What the program of these layers invokes. -/
def posterCalls : List EffectId :=
  ((poster [] []).programOf (poster [] []).layers).invocations.map (·.effect)

theorem readied_poster (steps : List Nat) (textures : List String) :
    ∃ quiet engine, (poster steps textures).Readied false
        ((poster steps textures).asked quiet engine) ∧
      EffectEngine.manifest engine =
        EffectEngine.manifest (poster steps textures).engine ∧
      EffectEngine.graph? engine =
        some (Simulated.Settings.layOut {} posterCalls) := by
  have plain : ∀ l ∈ (poster [] []).layers, l.PlainNames := by
    decide +kernel
  have registered : ∀ effect ∈ posterCalls, effect ∈
      [EffectId.solid, EffectId.media, EffectId.blend, title] := by
    decide +kernel
  exact Simulated.exists_readied (s := poster steps textures) rfl rfl plain
    registered false

/-- Whatever the engine refuses, it is asked for the video. -/
theorem dueMedia_poster {s : Session Simulated.Engine Simulated.Rasterizer}
    (composition : s.composition = (poster [] []).composition)
    (graph : EffectEngine.graph? s.engine =
      some (Simulated.Settings.layOut {} posterCalls)) :
    s.dueMedia = [{ step := 2, reference := "clip.mp4", kind := .video }] := by
  rw [dueMedia, mediaUploads?, visibleLayers, layers, composition, graph]
  decide +kernel

/-- One engine refuses the video and the extent of the title, the other one
takes everything. -/
theorem siblings_unaffected_by_refusals :
    ∃ ready ready' later later',
      let s := poster [3] ["imageTex_step_2"]
      let t := poster [] []
      s.Readied false ready ∧ ready.Calm ∧
        t.Readied false ready' ∧ ready'.Calm ∧ ready.Matches ready' ∧
        ready.Synced (s.programOf s.layers) later (s.rebuild false) ∧
        ready'.Synced (t.programOf t.layers) later' (t.rebuild false) ∧
        Unaffected later (s.rebuild false) later' (t.rebuild false) ∧
        later.filterMap Event.medium? =
          [("imageTex_step_2", .media "clip.mp4" .video, true)] := by
  obtain ⟨quiet, engine, accepted, manifest, graph⟩ :=
    readied_poster [3] ["imageTex_step_2"]
  obtain ⟨quiet', engine', accepted', manifest', graph'⟩ :=
    readied_poster [] []
  have calm := calm_of_steady Simulated.steadyGraph Simulated.steadyManifest
    ((poster [3] ["imageTex_step_2"]).asked quiet engine)
  have calm' := calm_of_steady Simulated.steadyGraph Simulated.steadyManifest
    ((poster [] []).asked quiet' engine')
  have same : ((poster [3] ["imageTex_step_2"]).asked quiet engine).Matches
      ((poster [] []).asked quiet' engine') :=
    ⟨rfl, rfl, manifest'.trans manifest.symm, graph'.trans graph.symm, rfl⟩
  obtain ⟨later, synced, twin⟩ :=
    (siblings_unaffected (poster [3] ["imageTex_step_2"])).1 false _ accepted
      calm
  obtain ⟨later', synced', unaffected⟩ :=
    twin (poster [] []) false _ accepted' calm' same rfl
  refine ⟨_, _, later, later', accepted, calm, accepted', calm', same, synced,
    synced', unaffected, ?_⟩
  have due := dueMedia_poster
    (s := (poster [3] ["imageTex_step_2"]).asked quiet engine) rfl graph
  rw [synced.media, due]
  rfl

/-- A video alone. -/
def clipLayers : List Layer :=
  [{ id := .ofNat 1, source := .media "clip.mp4" .video }]

theorem stackable_clipLayers : Stackable clipLayers := by
  decide +kernel

/-- The video was committed, and the recompile of an edit was rejected. -/
def rejected : Workspace Simulated.Engine Simulated.Rasterizer :=
  ((Workspace.simulated { rejectCalls := [2] } clipLayers).run
    [.session (.rebuild false),
      .session (.setVisible (.ofNat 1) true)]).2

theorem reachable_rejected : rejected.Reachable :=
  (Workspace.reachable_simulated _ stackable_clipLayers).run _

/-- There is a video to upload, but no valid step map. -/
theorem stale_rejected :
    rejected.session.stepMap?.isNone = true ∧
      rejected.session.dueMedia =
        [{ step := 2, reference := "clip.mp4", kind := .video }] := by
  decide +kernel

/-- While the step map is stale a refresh uploads no videos, although the
engine shows the passes of the last commit. -/
theorem videos_wait_while_stale :
    ¬ ∀ w : Workspace Simulated.Engine Simulated.Rasterizer, w.Reachable →
      ∃ events,
        w.session.refreshVideo.2.journal = w.session.journal ++ events ∧
        events.filterMap Event.medium? =
          (w.session.dueMedia.filter fun u => u.kind = .video).map
            (MediaUpload.attempt w.session.config.flipY) := by
  intro attempts
  obtain ⟨stale, due⟩ := stale_rejected
  obtain ⟨events, journal, media⟩ := attempts rejected reachable_rejected
  have idle := eq_nil_of_stale (Option.isNone_iff_eq_none.mp stale) journal
  have videos : (rejected.session.dueMedia.filter fun u => u.kind = .video) ≠
      [] := by
    rw [due]
    decide
  rw [idle] at media
  exact videos (List.map_eq_nil_iff.mp media.symm)

end Session

end Compositing
