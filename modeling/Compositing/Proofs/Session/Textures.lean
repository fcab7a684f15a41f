/-
Compositing.Proofs.Session.Textures — where textures from outside land.

After a commit the passes of an effect are paired with layers by position,
while the step map knows the step of everything that runs the effect. So
the textures of layers land on their own steps exactly if no child effect
and no other layer runs the effect before them (`MediaByPosition.own_iff`,
`TextsByPosition.own_iff`). Otherwise they stray: media that lie above a
layer without media, and texts above a child effect of the same kind, are
uploaded to steps that are not theirs. Which effects are texts, and through
which slot, is what the engine publishes when the texts are looked up, so
texts are spoken of on any engine (`Session.facing`).
-/
import Compositing.Proofs.Session.Committed
import Compositing.Proofs.Session.Uploads

namespace Compositing

/-- The texture that an engine was asked to fill, and what from. -/
def Event.filling? : Event → Option (String × TextureSource)
  | .upload texture source _ _ => some (texture, source)
  | _ => none

/-! ## Text effects -/

/-- A text effect has a slot, and no built-in role. -/
theorem Catalog.of_classify_eq_text {c : Catalog} {effect : EffectId}
    (h : c.classify effect = .text) :
    (∃ slot, c.externalTexture? effect = some slot) ∧
      effect ≠ EffectId.solid ∧ effect ≠ EffectId.blend := by
  unfold Catalog.classify at h
  split at h
  · cases h
  split at h
  · cases h
  split at h
  · cases h
  split at h
  · rename_i not_solid _ not_mixer slot
    refine ⟨Option.isSome_iff_exists.mp slot, not_solid, ?_⟩
    rintro rfl
    exact not_mixer rfl
  · split at h <;> cases h

/-- Layers of one skeleton show the same media. -/
theorem mediaFor_of_skeleton_eq (steps : List Nat) {a b : List Layer}
    (h : skeleton a = skeleton b) :
    mediaFor (steps.zip (mediaLayers a)) =
      mediaFor (steps.zip (mediaLayers b)) := by
  have media : ∀ layers : List Layer,
      (layers.filter (·.visible)).filterMap Layer.media? =
        (skeleton layers).filterMap fun l =>
          if l.visible then Layer.media? { id := l.id, source := l.source }
          else none := by
    intro layers
    rw [skeleton, List.filterMap_map, List.filterMap_filter]
    rfl
  rw [mediaLayers, mediaLayers, mediaFor_zip, mediaFor_zip, media a, media b, h]

namespace Session

variable {σ ρ : Type} [EffectEngine σ]
variable [TextRasterizer ρ]

namespace CommittedOn

variable {s : Session σ ρ} {force : Bool} {made : Commit} {g : PipelineGraph}

/-- Paired by position, layers get their own steps exactly if they are the
first to run the effect. -/
theorem owns_iff (h : s.CommittedOn force made g) {effect : EffectId}
    (not_solid : effect ≠ EffectId.solid)
    (not_blend : effect ≠ EffectId.blend) (layers : List Layer) :
    made.stepMap.Owns (g.paired effect layers) layers ↔
      layers.map (·.id) <+:
        Program.runners s.config.defaultGenerator s.layers effect := by
  obtain ⟨-, map, laidOut⟩ := h.of_layers
  rw [map]
  exact StepMap.owns_paired_iff h.sound.stack.stackable.distinct laidOut not_solid
    not_blend layers

/-- Layers get their own steps if nothing else runs the effect. -/
theorem owns_of_alone (h : s.CommittedOn force made g) {effect : EffectId}
    (not_solid : effect ≠ EffectId.solid)
    (not_blend : effect ≠ EffectId.blend) {p : Layer → Bool}
    (runs : ∀ l, p l = true → l.effectOr s.config.defaultGenerator = effect)
    (alone : ∀ id ∈
      Program.runners s.config.defaultGenerator s.layers effect,
      ∃ l ∈ s.visibleLayers.filter p, l.id = id) :
    made.stepMap.Owns (g.paired effect (s.visibleLayers.filter p))
      (s.visibleLayers.filter p) :=
  (h.owns_iff not_solid not_blend _).mpr
    (Program.map_id_prefix_runners _ h.sound.stack.stackable.distinct runs alone)

end CommittedOn

/-- Once the engine has accepted the program it is committed, all media are
uploaded by position, and then the texts that there are to upload on the
engine that the media have left. -/
def UploadsAfter (s s' : Session σ ρ) (made : Commit) (g : PipelineGraph) :
    Prop :=
  ∃ ready media between texts,
    s.compileText (s.programOf s.layers).text = (.ok (), ready) ∧
      EffectEngine.graph? ready.engine = some g ∧
      s'.journal = ready.journal ++ .commit made :: (media ++ texts) ∧
      InSequence (MediaUpload.Served · s.config.flipY true)
        (mediaFor (g.paired EffectId.media (mediaLayers s.layers)))
        ready.surroundings media between ∧
      InSequence (TextUpload.Served · s.config.flipY)
        (s.facing between.1).textUploads between texts s'.surroundings

theorem CommittedOn.uploadsAfter {s : Session σ ρ} {force : Bool}
    {made : Commit} {g : PipelineGraph} (h : s.CommittedOn force made g) :
    s.UploadsAfter (s.rebuild force).2 made g := by
  obtain ⟨quiet, engine, -, accepted, graph, eq, rfl⟩ := h.exists_adopted
  obtain ⟨media, between, texts, after, served, served', synced⟩ :=
    exists_syncTextures (s.adopted quiet engine)
  have due := mediaUploads?_eq (s := s.adopted quiet engine) graph
  rw [dueMedia, due] at served
  rw [eq, synced]
  refine ⟨_, media, between, texts, accepted, graph, ?_, served, served'⟩
  simp [answered, adopted, asked]

/-! ## Media -/

/-- Media are uploaded to the steps that run the media effect, paired with
the visible media layers by position. -/
structure MediaByPosition (s s' : Session σ ρ) (made : Commit)
    (g : PipelineGraph) : Prop where
  current : s'.stepMap? = some made.stepMap
  sent : s.UploadsAfter s' made g
  /-- As long as that program runs, videos are uploaded again to where they
  were uploaded. -/
  refreshed : ∀ later, s'.StillRuns made later →
    EffectEngine.graph? later.engine = some g →
      ∃ events,
        later.refreshVideo.2.journal = later.journal ++ events ∧
          InSequence (MediaUpload.Served · s.config.flipY false)
            ((mediaFor (g.paired EffectId.media (mediaLayers s.layers))).filter
              (·.kind = .video))
            later.surroundings events later.refreshVideo.2.surroundings
  /-- No texture shows the media of two layers. -/
  textures : ((g.paired EffectId.media (mediaLayers s.layers)).map
    fun (step, _) => textureName mediaSlot step).Nodup
  /-- The steps are the layers' own exactly if the media layers are the
  first to run the media effect. -/
  own_iff : made.stepMap.Owns
        (g.paired EffectId.media (mediaLayers s.layers))
        (mediaLayers s.layers) ↔
      (mediaLayers s.layers).map (·.id) <+:
        Program.runners s.config.defaultGenerator s.layers EffectId.media
  /-- So they are if nothing but media layers runs the media effect. -/
  own_of_alone :
    (∀ id ∈ Program.runners s.config.defaultGenerator s.layers EffectId.media,
      ∃ l ∈ mediaLayers s.layers, l.id = id) →
    made.stepMap.Owns (g.paired EffectId.media (mediaLayers s.layers))
      (mediaLayers s.layers)

/-- Whatever the stack, media are uploaded by position. -/
theorem CommittedOn.media_by_position {s : Session σ ρ} {force : Bool}
    {made : Commit} {g : PipelineGraph} (h : s.CommittedOn force made g) :
    s.MediaByPosition (s.rebuild force).2 made g := by
  have runs : ∀ l : Layer, l.media?.isSome = true →
      l.effectOr s.config.defaultGenerator = EffectId.media := by
    intro l shows
    cases source : l.source with
    | media reference kind => simp [Layer.effectOr, source]
    | effect effect => simp [Layer.media?, source] at shows
  refine
    { current := h.stepMap?_eq
      sent := h.uploadsAfter
      refreshed := ?refreshed
      textures := ?textures
      own_iff := h.owns_iff (by decide) (by decide) _
      own_of_alone := h.owns_of_alone (by decide) (by decide) runs }
  case refreshed =>
    intro later still graph
    -- The later session may have other parameters, but the same skeleton,
    -- and so the same media.
    have skel := (still.inStep h.inStep).skeleton
    have config : later.config = s.config :=
      ((moves_rebuild force s).trans still.moves).catalog_eq.1
    obtain ⟨map, current⟩ := Option.isSome_iff_exists.mp still.current
    have uploads := mediaUploads?_eq graph
    obtain ⟨quiet, engine, -, -, -, -, rfl⟩ := h.exists_adopted
    rw [PipelineGraph.paired, mediaFor_of_skeleton_eq _ skel] at uploads
    obtain ⟨events, after, served, eq⟩ := exists_uploadCounting
      ((mediaFor (g.paired EffectId.media (mediaLayers s.layers))).filter
        (·.kind = .video)) later
    have shown : later.refreshVideo =
        (events.countP Event.isTaken, later.answered events after) := by
      rw [← eq, refreshVideo, current, uploads]
      rfl
    rw [config] at served
    rw [shown]
    exact ⟨events, rfl, served⟩
  case textures =>
    have steps := (g.nodup_stepsOf EffectId.media).sublist
      (g.map_fst_paired_sublist EffectId.media (mediaLayers s.layers))
    have names := steps.map fun a b (h : textureName mediaSlot a = _) =>
      (textureName_inj h).2
    rwa [List.map_map] at names

/-- A layer that runs the media effect without media of its own, under one
that shows an image. -/
def placeholderLayers : List Layer :=
  [{ id := .ofNat 1, source := .effect (some EffectId.media) },
    { id := .ofNat 2, source := .media "a.png" .image }]

theorem stackable_placeholderLayers : Stackable placeholderLayers := by
  decide +kernel

/-- These layers over a simulated engine. -/
def placeholder : Session Simulated.Engine Simulated.Rasterizer :=
  (Workspace.simulated {} placeholderLayers).session

theorem plain_placeholder : ∀ l ∈ placeholder.layers, l.PlainNames := by
  decide +kernel

theorem registered_placeholder :
    ∀ effect ∈ (placeholder.programOf placeholder.layers).invocations.map
      (·.effect), effect ∈ placeholder.engine.settings.registered := by
  decide +kernel

theorem committedOn_placeholder :
    ∃ made g, placeholder.CommittedOn false made g := by
  have reachable :=
    Workspace.reachable_simulated {} stackable_placeholderLayers
  have sound := reachable.sound (by decide +kernel)
  obtain ⟨made, committed⟩ := Simulated.exists_committedOn
    (s := placeholder) rfl rfl plain_placeholder registered_placeholder sound
    false
  exact ⟨made, _, committed⟩

theorem media_by_position_of_placeholder :
    ∃ made g, placeholder.CommittedOn false made g ∧
      placeholder.MediaByPosition (placeholder.rebuild false).2 made g := by
  obtain ⟨made, g, committed⟩ := committedOn_placeholder
  exact ⟨made, g, committed, committed.media_by_position⟩

/-- The image is uploaded to the step of the layer beneath it, and to no
other texture, although the step map tells its own. -/
theorem media_stray_over_placeholder :
    (∃ made g, placeholder.CommittedOn false made g) ∧
      let s := (placeholder.rebuild false).2
      s.step? (.ofNat 2) = some 3 ∧
        s.journal.filterMap Event.filling? =
          [("imageTex_step_2", .media "a.png" .image)] := by
  refine ⟨committedOn_placeholder, ?_⟩
  rw [Simulated.rebuild_eq rfl rfl plain_placeholder registered_placeholder]
  decide +kernel

/-! ## Texts -/

omit [TextRasterizer ρ] in
/-- The texts to upload are those of the visible layers of text effects,
paired with the steps of the effects. -/
theorem textUploads_eq {s : Session σ ρ} {g : PipelineGraph}
    (graph : EffectEngine.graph? s.engine = some g) :
    s.textUploads = s.textEffects.flatMap (s.textUploadsOf g) := by
  rw [textUploads, graph]

omit [TextRasterizer ρ] in
theorem textUploadFor?_eq {s : Session σ ρ} {id : LayerId} {l : Layer}
    {slot : String} (known : s.stack.get? id = some l)
    (text : s.catalog.classify (l.effectOr s.config.defaultGenerator) = .text)
    (fed : s.catalog.externalTexture? (l.effectOr s.config.defaultGenerator) =
      some slot) (step : Nat) :
    s.textUploadFor? id step =
      some { step := step, slot := slot, params := l.params } := by
  simp [textUploadFor?, known, text, fed]

/-- Refreshing the text of a layer serves it for the step, if the layer's
effect is a text. -/
theorem exists_refreshText {s : Session σ ρ} {id : LayerId} {l : Layer}
    (known : s.stack.get? id = some l) (step : Nat) :
    ∃ block after, s.refreshText id step = s.answered block after ∧
      let effect := l.effectOr s.config.defaultGenerator
      s.catalog.classify effect = .text →
        ∃ slot, s.catalog.externalTexture? effect = some slot ∧
          TextUpload.Served { step := step, slot := slot, params := l.params }
            s.config.flipY s.surroundings block after := by
  rw [refreshText]
  cases found : s.textUploadFor? id step with
  | none =>
    refine ⟨[], s.surroundings, s.answered_nil.symm, fun text => ?_⟩
    obtain ⟨⟨slot, fed⟩, -⟩ := Catalog.of_classify_eq_text text
    rw [textUploadFor?_eq known text fed] at found
    cases found
  | some u =>
    obtain ⟨block, after, served, eq⟩ := exists_uploadText u s
    refine ⟨block, after, eq, fun text => ?_⟩
    obtain ⟨⟨slot, fed⟩, -⟩ := Catalog.of_classify_eq_text text
    rw [textUploadFor?_eq known text fed] at found
    obtain rfl := Option.some.inj found
    exact ⟨slot, fed, served⟩

/-- The session with new parameters for a layer. -/
def patched (s : Session σ ρ) (id : LayerId) (patch : Params) :
    Session σ ρ :=
  { s with
    composition :=
      { s.composition with
        stack := s.stack.modify id fun l =>
          { l with params := l.params.extend patch } } }

/-- New parameters for a layer with a step are pushed to the step, and then
the layer's text is refreshed. -/
theorem updateParams_of_mapped {s : Session σ ρ} {l : Layer} {step : Nat}
    (known : s.stack.get? l.id = some l) (mapped : s.step? l.id = some step)
    (patch : Params) :
    (s.updateParams l.id patch).2 =
      ((s.patched l.id patch).push step
        ((s.patched l.id patch).bakePatch l.id patch)).2.refreshText l.id
          step := by
  have touched : s.touch (Composition.patchParams l.id patch) =
      (.ok (), s.patched l.id patch) := by
    have known : s.composition.stack.get? l.id = some l := known
    simp only [touch, Composition.patchParams, Composition.editLayer, known]
    rfl
  have mapped : (s.patched l.id patch).step? l.id = some step := mapped
  rw [updateParams, touched]
  simp only [mapped]

/-- What new parameters for a layer with a step do: they are pushed to the
step, and if the layer's effect is a text on the engine that the push has
left, the text is uploaded with them, through its slot, to the same
step. -/
def UpdatesAt (s : Session σ ρ) (l : Layer) (step : Nat) (patch : Params) :
    Prop :=
  ∃ values result engine block,
    EffectEngine.applyParams [(step, values)] s.engine = (result, engine) ∧
      (s.updateParams l.id patch).2.journal =
        s.journal ++ .push [(step, values)] result.isOk :: block ∧
      let catalog := (s.facing engine).catalog
      let effect := l.effectOr s.config.defaultGenerator
      catalog.classify effect = .text →
        ∃ slot, catalog.externalTexture? effect = some slot ∧
          TextUpload.Served
            { step := step, slot := slot, params := l.params.extend patch }
            s.config.flipY (engine, s.rasterizer) block
            (s.updateParams l.id patch).2.surroundings

theorem updatesAt {s : Session σ ρ} {l : Layer} {step : Nat}
    (known : s.stack.get? l.id = some l) (mapped : s.step? l.id = some step)
    (patch : Params) : s.UpdatesAt l step patch := by
  let values := (s.patched l.id patch).bakePatch l.id patch
  let pushed := ((s.patched l.id patch).push step values).2
  have known' : pushed.stack.get? l.id =
      some { l with params := l.params.extend patch } := by
    show (s.stack.modify l.id _).get? l.id = _
    rw [LayerStack.get?_modify, if_pos rfl, known]
    rfl
  -- Whether the effect is a text is asked once the parameters are pushed.
  obtain ⟨block, after, refreshed, served⟩ := exists_refreshText known' step
  rw [UpdatesAt, updateParams_of_mapped known mapped, refreshed]
  exact ⟨values, _, pushed.engine, block, rfl, List.append_assoc _ _ _, served⟩

/-- Texts are uploaded to the steps that run their effects, for each text
effect paired with the visible layers that run it by position. -/
structure TextsByPosition (s s' : Session σ ρ) (made : Commit)
    (g : PipelineGraph) : Prop where
  current : s'.stepMap? = some made.stepMap
  sent : s.UploadsAfter s' made g
  /-- Where the engine shows the passes of the commit, the texts to upload
  are paired with them. -/
  due : ∀ engine, EffectEngine.graph? engine = some g →
    let t := s.facing engine
    t.textUploads = t.textEffects.flatMap (t.textUploadsOf g)
  /-- All visible text layers are among those whose texts are uploaded. -/
  paired : ∀ engine, ∀ l ∈ s.visibleLayers,
    let t := s.facing engine
    let effect := l.effectOr s.config.defaultGenerator
    t.catalog.classify effect = .text →
      effect ∈ t.textEffects ∧ l ∈ s.layersOf effect ∧
        ∃ slot, t.catalog.externalTexture? effect = some slot ∧
          t.textUploadsOf g effect =
            textsFor slot (g.paired effect (s.layersOf effect))
  /-- As long as that program runs, new parameters for a text upload it
  again, through its slot, to the layer's own step. -/
  updated : ∀ later, s'.StillRuns made later → later.composition.Sound →
    ∀ l ∈ later.visibleLayers,
      ∃ step, made.stepMap.step? l.id = some step ∧
        ∀ patch, later.UpdatesAt l step patch
  /-- No texture shows two texts. -/
  textures : ∀ engine,
    let t := s.facing engine
    ((t.textEffects.flatMap (t.textUploadsOf g)).map TextUpload.texture).Nodup
  /-- The steps are the layers' own exactly if the layers are the first to
  run their effect. -/
  own_iff : ∀ engine effect,
    (s.facing engine).catalog.classify effect = .text →
      (made.stepMap.Owns (g.paired effect (s.layersOf effect))
          (s.layersOf effect) ↔
        (s.layersOf effect).map (·.id) <+:
          Program.runners s.config.defaultGenerator s.layers effect)
  /-- So they are if no child effect runs it. -/
  own_of_alone : ∀ engine effect,
    (s.facing engine).catalog.classify effect = .text →
      (∀ id ∈ Program.runners s.config.defaultGenerator s.layers effect,
        ∃ l ∈ s.layersOf effect, l.id = id) →
      made.stepMap.Owns (g.paired effect (s.layersOf effect))
        (s.layersOf effect)

/-- Whatever the stack, and whatever the engine and the rasterizer answer,
texts are uploaded by position. -/
theorem CommittedOn.texts_by_position {s : Session σ ρ} {force : Bool}
    {made : Commit} {g : PipelineGraph} (h : s.CommittedOn force made g) :
    s.TextsByPosition (s.rebuild force).2 made g := by
  refine
    { current := h.stepMap?_eq
      sent := h.uploadsAfter
      due := fun engine graph => textUploads_eq (s := s.facing engine) graph
      paired := ?paired
      updated := ?updated
      textures := ?textures
      own_iff := ?own_iff
      own_of_alone := ?own_of_alone }
  case paired =>
    intro engine l mem t effect text
    obtain ⟨⟨slot, fed⟩, -⟩ := Catalog.of_classify_eq_text text
    refine ⟨?_, List.mem_filter.mpr ⟨mem, by simp [effect]⟩, slot, fed, ?_⟩
    · refine List.mem_eraseDups.mpr (List.mem_filter.mpr ⟨?_, by simp [text]⟩)
      exact List.mem_map_of_mem mem
    · rw [textUploadsOf, fed]
      rfl
  case updated =>
    intro later runs sound l mem
    have inStep := runs.inStep h.inStep
    obtain ⟨mem, visible⟩ := List.mem_filter.mp mem
    obtain ⟨step, mapped⟩ := h.exists_step? inStep mem visible
    refine ⟨step, mapped, fun patch => updatesAt ?_ ?_ patch⟩
    · exact sound.stack.coherent.get?_of_mem_toList mem
    · rw [step?, inStep.stepMap?_eq runs.current]
      exact mapped
  case textures =>
    intro engine t
    have steps : ((t.textEffects.flatMap (t.textUploadsOf g)).map
        (·.step)).Nodup := by
      have effects : t.textEffects.Nodup := nodup_eraseDups _
      refine (PipelineGraph.nodup_flatMap_stepsOf h.laidOut.steps
        effects).sublist ?_
      rw [List.map_flatMap]
      refine List.Sublist.flatMap_right _ fun effect _ => ?_
      unfold textUploadsOf
      split
      · exact List.nil_sublist _
      · rw [List.map_map]
        exact g.map_fst_paired_sublist effect (s.layersOf effect)
    refine List.pairwise_map.mpr ((List.pairwise_map.mp steps).imp ?_)
    intro a b ne same
    exact ne (textureName_inj same).2
  case own_iff =>
    intro engine effect text
    obtain ⟨-, not_solid, not_blend⟩ := Catalog.of_classify_eq_text text
    exact h.owns_iff not_solid not_blend _
  case own_of_alone =>
    intro engine effect text
    obtain ⟨-, not_solid, not_blend⟩ := Catalog.of_classify_eq_text text
    exact h.owns_of_alone not_solid not_blend fun l runs => by simpa using runs

/-- A text effect. -/
def title : EffectId :=
  ⟨"text", "title", by decide, by decide⟩

/-- A text layer above a flat base with a text among its child effects. -/
def titleLayers : List Layer :=
  [{ id := .ofNat 0
     source := .effect (some EffectId.solid)
     children := [{ id := .ofNat 2, effect := title }] },
    { id := .ofNat 1
      source := .effect (some title)
      params := Params.empty.insert "text" (.str "hello") trivial }]

theorem stackable_titleLayers : Stackable titleLayers := by
  decide +kernel

/-- These layers over an engine that publishes the text effect. -/
def titled : Session Simulated.Engine Simulated.Rasterizer :=
  { (Workspace.simulated {} titleLayers).session with
    engine :=
      { manifest := Manifest.insert {} title
          { externalTexture := some "textTex" }
        settings := { registered := [EffectId.solid, EffectId.blend, title] } }
    rasterizer := some {} }

theorem plain_titled : ∀ l ∈ titled.layers, l.PlainNames := by
  decide +kernel

theorem registered_titled :
    ∀ effect ∈ (titled.programOf titled.layers).invocations.map (·.effect),
      effect ∈ titled.engine.settings.registered := by
  decide +kernel

theorem committedOn_titled : ∃ made g, titled.CommittedOn false made g := by
  have reachable := Workspace.reachable_simulated {} stackable_titleLayers
  have sound := reachable.sound (by decide +kernel)
  obtain ⟨made, committed⟩ := Simulated.exists_committedOn (s := titled) rfl
    rfl plain_titled registered_titled sound false
  exact ⟨made, _, committed⟩

theorem texts_by_position_of_titled :
    ∃ made g, titled.CommittedOn false made g ∧
      titled.TextsByPosition (titled.rebuild false).2 made g := by
  obtain ⟨made, g, committed⟩ := committedOn_titled
  exact ⟨made, g, committed, committed.texts_by_position⟩

/-- The text is uploaded to the step of the child effect, and after an
update to the layer's own. -/
theorem texts_stray_over_child :
    (∃ made g, titled.CommittedOn false made g) ∧
      let s := (titled.rebuild false).2
      let patch := Params.empty.insert "text" (.str "hello") trivial
      let updated := (s.updateParams (.ofNat 1) patch).2
      let picture : TextureSource := .raster { width := 40, height := 16 }
      s.step? (.ofNat 1) = some 2 ∧
        s.journal.filterMap Event.filling? = [("textTex_step_1", picture)] ∧
        updated.journal.filterMap Event.filling? =
          [("textTex_step_1", picture), ("textTex_step_2", picture)] := by
  refine ⟨committedOn_titled, ?_⟩
  rw [Simulated.rebuild_eq rfl rfl plain_titled registered_titled]
  decide +kernel

end Session

/-- The simulated engine changes its passes only by compiling. -/
theorem Simulated.steadyGraph : SteadyGraph Simulated.Engine where
  apply values e := by
    simp only [EffectEngine.applyParams, EffectEngine.graph?, Engine.apply]
    split <;> rfl
  upload texture source flipY e := by
    simp only [EffectEngine.uploadTexture, EffectEngine.graph?, Engine.upload]
    split <;> rfl

end Compositing
