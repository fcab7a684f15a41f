/-
Compositing.Proofs.Session.Uploads — what comes of uploads.

What an upload does is up to what the engine and the rasterizer answer, so
the answers are part of the relations here: a texture is told to its step
if and only if the engine took it (`Filled`), a text is uploaded if and
only if it was drawn (`MediaUpload.Served`, `TextUpload.Served`). Items are
served one after another, each by what the ones before it have left
(`InSequence`). What a session has to upload depends on its composition, on
the manifest and on the passes that the engine shows when it is asked:
media are looked up before anything is uploaded, texts once the media are
(`exists_syncTextures`).
-/
import Compositing.Proofs.Pipeline.Pairing
import Compositing.Proofs.Session.Requests

namespace Compositing

/-- Neither uploads nor pushes change the passes that engines show. -/
structure SteadyGraph (σ : Type) [EffectEngine σ] : Prop where
  apply : ∀ (values : StepParams) (e : σ),
    EffectEngine.graph? (EffectEngine.applyParams values e).2 =
      EffectEngine.graph? e
  upload : ∀ (texture : String) (source : TextureSource) (flipY : Bool)
    (e : σ),
    EffectEngine.graph?
        (EffectEngine.uploadTexture texture source flipY e).2 =
      EffectEngine.graph? e

/-- An engine took a texture. -/
def Event.isTaken : Event → Bool
  | .upload _ _ _ accepted => accepted
  | _ => false

/-- The texture that a text is uploaded to. -/
def TextUpload.texture (u : TextUpload) : String :=
  textureName u.slot u.step

/-! ## One texture -/

section Serving

variable {σ ρ : Type} [EffectEngine σ]

/-- What comes of a texture: the events, and the engine that is left. A
texture that was taken is told to its step, right after and with the
extent that the engine gave, if that is wanted. -/
inductive Filled (step : Nat) (texture : String) (source : TextureSource)
    (flipY tell : Bool) (engine : σ) : List Event → σ → Prop where
  | refused (e : Error) (engine' : σ)
      (answer : EffectEngine.uploadTexture texture source flipY engine =
        (.error e, engine')) :
      Filled step texture source flipY tell engine
        [.upload texture source flipY false] engine'
  | silent (quiet : tell = false) (size : Extent) (engine' : σ)
      (answer : EffectEngine.uploadTexture texture source flipY engine =
        (.ok size, engine')) :
      Filled step texture source flipY tell engine
        [.upload texture source flipY true] engine'
  | told (loud : tell = true) (size : Extent) (between : σ)
      (answer : EffectEngine.uploadTexture texture source flipY engine =
        (.ok size, between))
      (result : Except Error Unit) (engine' : σ)
      (pushed : EffectEngine.applyParams [(step, Session.sizeParams size)]
        between = (result, engine')) :
      Filled step texture source flipY tell engine
        [.upload texture source flipY true,
          .push [(step, Session.sizeParams size)] result.isOk] engine'

/-- What comes of a medium. No rasterizer has to do with it. -/
inductive MediaUpload.Served (u : MediaUpload) (flipY tell : Bool) :
    σ × Option ρ → List Event → σ × Option ρ → Prop where
  | intro (engine engine' : σ) (rasterizer : Option ρ) (events : List Event)
      (filled : Filled u.step (textureName mediaSlot u.step)
        (.media u.reference u.kind) flipY tell engine events engine') :
      u.Served flipY tell (engine, rasterizer) events (engine', rasterizer)

theorem MediaUpload.Served.rasterizer_eq {u : MediaUpload}
    {flipY tell : Bool} {x y : σ × Option ρ} {events : List Event}
    (h : u.Served flipY tell x events y) : y.2 = x.2 := by
  cases h
  rfl

variable [TextRasterizer ρ]

/-- What comes of a text: it is drawn if there is a rasterizer, and what
was drawn is uploaded. -/
inductive TextUpload.Served (u : TextUpload) (flipY : Bool) :
    σ × Option ρ → List Event → σ × Option ρ → Prop where
  | undrawable (engine : σ) :
      u.Served flipY (engine, none) [] (engine, none)
  | undrawn (engine : σ) (drawer drawer' : ρ) (e : Error)
      (answer : TextRasterizer.rasterize u.params drawer =
        (.error e, drawer')) :
      u.Served flipY (engine, some drawer) [.rasterize u.params]
        (engine, some drawer')
  | drawn (engine engine' : σ) (drawer drawer' : ρ) (picture : Extent)
      (answer : TextRasterizer.rasterize u.params drawer =
        (.ok picture, drawer'))
      (events : List Event)
      (filled : Filled u.step u.texture (.raster picture) flipY true engine
        events engine') :
      u.Served flipY (engine, some drawer) (.rasterize u.params :: events)
        (engine', some drawer')

theorem TextUpload.Served.isSome_eq {u : TextUpload} {flipY : Bool}
    {x y : σ × Option ρ} {events : List Event}
    (h : u.Served flipY x events y) : y.2.isSome = x.2.isSome := by
  cases h <;> rfl

/-! What neither uploads nor pushes change is the same afterwards. -/

section Looking

variable {β : Type} {look : σ → β}
  (upload : ∀ (texture : String) (source : TextureSource) (flipY : Bool)
    (e : σ),
    look (EffectEngine.uploadTexture texture source flipY e).2 = look e)
  (apply : ∀ (values : StepParams) (e : σ),
    look (EffectEngine.applyParams values e).2 = look e)

include upload apply

omit [TextRasterizer ρ] in
theorem Filled.look_eq {step : Nat} {texture : String}
    {source : TextureSource} {flipY tell : Bool} {engine engine' : σ}
    {events : List Event}
    (h : Filled step texture source flipY tell engine events engine') :
    look engine' = look engine := by
  have uploaded := upload texture source flipY engine
  cases h with
  | refused e engine' answer => rwa [answer] at uploaded
  | silent quiet size engine' answer => rwa [answer] at uploaded
  | told loud size between answer result engine' pushed =>
    have applied := apply [(step, Session.sizeParams size)] between
    rw [answer] at uploaded
    rw [pushed] at applied
    exact applied.trans uploaded

omit [TextRasterizer ρ] in
theorem MediaUpload.Served.look_eq {u : MediaUpload} {flipY tell : Bool}
    {x y : σ × Option ρ} {events : List Event}
    (h : u.Served flipY tell x events y) : look y.1 = look x.1 := by
  obtain ⟨engine, engine', rasterizer, events, filled⟩ := h
  exact filled.look_eq upload apply

theorem TextUpload.Served.look_eq {u : TextUpload} {flipY : Bool}
    {x y : σ × Option ρ} {events : List Event}
    (h : u.Served flipY x events y) : look y.1 = look x.1 := by
  cases h with
  | undrawable | undrawn => rfl
  | drawn engine engine' drawer drawer' picture answer events filled =>
    exact filled.look_eq upload apply

end Looking

end Serving

/-! ## One texture after another -/

/-- Items are served one after another, each by what the ones before it
have left. -/
inductive InSequence {α τ : Type}
    (Serve : α → τ → List Event → τ → Prop) :
    List α → τ → List Event → τ → Prop where
  | nil (x : τ) : InSequence Serve [] x [] x
  | cons {a : α} {rest : List α} {x y z : τ} {block events : List Event}
      (served : Serve a x block y) (more : InSequence Serve rest y events z) :
      InSequence Serve (a :: rest) x (block ++ events) z

namespace InSequence

variable {α τ : Type} {Serve : α → τ → List Event → τ → Prop}
  {items : List α} {x y : τ} {events : List Event}

/-- What every item keeps, all of them keep. -/
theorem keeps (Keeps : τ → Prop)
    (step : ∀ {a x block y}, Serve a x block y → Keeps x → Keeps y)
    (h : InSequence Serve items x events y) (start : Keeps x) : Keeps y := by
  induction h with
  | nil => exact start
  | cons served more ih => exact ih (step served start)

/-- What is true of the events of every item is true of all events. -/
theorem forall_mem {Kind : Event → Prop}
    (each : ∀ {a x block y}, Serve a x block y → ∀ e ∈ block, Kind e)
    (h : InSequence Serve items x events y) : ∀ e ∈ events, Kind e := by
  induction h with
  | nil => exact List.forall_mem_nil _
  | cons served more ih =>
    exact fun e mem => (List.mem_append.mp mem).elim (each served e) (ih e)

/-- Media leave the rasterizer alone. -/
theorem rasterizer_eq {σ ρ : Type} [EffectEngine σ]
    {uploads : List MediaUpload} {flipY tell : Bool} {x y : σ × Option ρ}
    {events : List Event}
    (h : InSequence (MediaUpload.Served · flipY tell) uploads x events y) :
    y.2 = x.2 :=
  h.keeps (fun z => z.2 = x.2)
    (fun served same => served.rasterizer_eq.trans same) rfl

end InSequence

/-! ## Sessions -/

namespace Session

variable {σ ρ : Type} [EffectEngine σ]

omit [EffectEngine σ] in
/-- What answers a session. -/
def surroundings (s : Session σ ρ) : σ × Option ρ :=
  (s.engine, s.rasterizer)

/-- The session after its surroundings have answered. -/
def answered (s : Session σ ρ) (events : List Event) (x : σ × Option ρ) :
    Session σ ρ :=
  { s with
    engine := x.1
    rasterizer := x.2
    journal := s.journal ++ events }

omit [EffectEngine σ] in
theorem answered_nil (s : Session σ ρ) : s.answered [] s.surroundings = s := by
  simp [answered, surroundings]

omit [EffectEngine σ] in
theorem answered_answered (s : Session σ ρ) (events later : List Event)
    (x y : σ × Option ρ) :
    (s.answered events x).answered later y = s.answered (events ++ later) y := by
  simp [answered]

/-- Upload a texture. On request the step is told the extent
afterwards. -/
def fill (step : Nat) (texture : String) (source : TextureSource)
    (tell : Bool) (s : Session σ ρ) : Bool × Session σ ρ :=
  match s.requestUpload texture source with
  | (some size, s) =>
    if tell then (true, (s.push step (sizeParams size)).2) else (true, s)
  | (none, s) => (false, s)

theorem uploadMedia_eq_fill (u : MediaUpload) (tell : Bool)
    (s : Session σ ρ) :
    s.uploadMedia u tell = s.fill u.step (textureName mediaSlot u.step)
      (.media u.reference u.kind) tell :=
  rfl

theorem requestUpload_of_answer {texture : String} {source : TextureSource}
    {s : Session σ ρ} {result : Except Error Extent} {engine : σ}
    (answer : EffectEngine.uploadTexture texture source s.config.flipY
      s.engine = (result, engine)) :
    s.requestUpload texture source = (result.toOption,
      s.answered [.upload texture source s.config.flipY result.isOk]
        (engine, s.rasterizer)) := by
  rw [requestUpload, answer]
  rfl

/-- A texture is filled, and the result says whether it was taken. -/
theorem exists_fill (step : Nat) (texture : String) (source : TextureSource)
    (tell : Bool) (s : Session σ ρ) : ∃ taken block engine,
      Filled step texture source s.config.flipY tell s.engine block engine ∧
        block.countP Event.isTaken = taken.toNat ∧
        s.fill step texture source tell =
          (taken, s.answered block (engine, s.rasterizer)) := by
  cases answer : EffectEngine.uploadTexture texture source s.config.flipY
    s.engine with
  | mk result between =>
    rw [fill, requestUpload_of_answer answer]
    cases result with
    | error e => exact ⟨false, _, _, .refused e between answer, rfl, rfl⟩
    | ok size =>
      cases tell with
      | false => exact ⟨true, _, _, .silent rfl size between answer, rfl, rfl⟩
      | true =>
        refine ⟨true, _, _, .told rfl size between answer _ _ rfl, rfl, ?_⟩
        simp only [Except.toOption, push, log, answered, List.append_assoc,
          List.singleton_append, if_true]
        rfl

/-- A medium is uploaded, and the result says whether it was taken. -/
theorem exists_uploadMedia (u : MediaUpload) (tell : Bool)
    (s : Session σ ρ) : ∃ taken block after,
      u.Served s.config.flipY tell s.surroundings block after ∧
        block.countP Event.isTaken = taken.toNat ∧
        s.uploadMedia u tell = (taken, s.answered block after) := by
  obtain ⟨taken, block, engine, filled, count, eq⟩ := s.exists_fill u.step
    (textureName mediaSlot u.step) (.media u.reference u.kind) tell
  rw [uploadMedia_eq_fill]
  exact ⟨taken, block, _, .intro _ _ _ _ filled, count, eq⟩

omit [EffectEngine σ] in
/-- Items that are fed one after another are served in sequence. -/
theorem exists_foldl {α : Type}
    {Serve : α → σ × Option ρ → List Event → σ × Option ρ → Prop}
    {feed : Session σ ρ → α → Session σ ρ} {config : Config}
    (each : ∀ s a, s.config = config → ∃ block after,
      Serve a s.surroundings block after ∧ feed s a = s.answered block after) :
    ∀ (items : List α) (s : Session σ ρ), s.config = config →
      ∃ events after, InSequence Serve items s.surroundings events after ∧
        items.foldl feed s = s.answered events after
  | [], s, _ => ⟨[], _, .nil _, s.answered_nil.symm⟩
  | a :: rest, s, same => by
    obtain ⟨block, between, served, eq⟩ := each s a same
    obtain ⟨events, after, more, eq'⟩ :=
      exists_foldl each rest (s.answered block between) same
    refine ⟨block ++ events, after, .cons served more, ?_⟩
    rw [List.foldl_cons, eq, eq', answered_answered]

/-- Media that are fed one after another are served in sequence. -/
theorem exists_foldMedia (uploads : List MediaUpload) (s : Session σ ρ) :
    ∃ events after,
      InSequence (MediaUpload.Served · s.config.flipY true) uploads
          s.surroundings events after ∧
        uploads.foldl (fun s u => (s.uploadMedia u true).2) s =
          s.answered events after := by
  refine exists_foldl (fun s' u same => ?_) uploads s rfl
  obtain ⟨_, block, after, served, -, eq⟩ := exists_uploadMedia u true s'
  rw [same] at served
  exact ⟨block, after, served, congrArg Prod.snd eq⟩

/-- Media that are counted are served in sequence, and those that were
taken are counted. -/
theorem exists_uploadCounting :
    ∀ (uploads : List MediaUpload) (s : Session σ ρ), ∃ events after,
      InSequence (MediaUpload.Served · s.config.flipY false) uploads
          s.surroundings events after ∧
        uploadCounting uploads s =
          (events.countP Event.isTaken, s.answered events after)
  | [], s => ⟨[], _, .nil _, by rw [uploadCounting, answered_nil]; rfl⟩
  | u :: rest, s => by
    obtain ⟨taken, block, between, served, count, eq⟩ :=
      exists_uploadMedia u false s
    obtain ⟨events, after, more, eq'⟩ :=
      exists_uploadCounting rest (s.answered block between)
    refine ⟨block ++ events, after, .cons served more, ?_⟩
    simp only [uploadCounting, eq, eq', answered_answered,
      List.countP_append, count]
    cases taken <;> simp [Nat.add_comm]

variable [TextRasterizer ρ]

omit [EffectEngine σ] in
theorem requestRaster_of_answer {params : Params} {s : Session σ ρ}
    {drawer drawer' : ρ} {result : Except Error Extent}
    (equipped : s.rasterizer = some drawer)
    (answer : TextRasterizer.rasterize params drawer = (result, drawer')) :
    s.requestRaster params = (result.toOption,
      s.answered [.rasterize params] (s.engine, some drawer')) := by
  simp only [requestRaster, equipped, answer]
  rfl

/-- What was drawn is uploaded, and the step is told. -/
theorem uploadText_eq_fill {u : TextUpload} {s s' : Session σ ρ}
    {picture : Extent} (drawn : s.requestRaster u.params = (some picture, s')) :
    s.uploadText u = (s'.fill u.step u.texture (.raster picture) true).2 := by
  rw [uploadText, drawn, fill, TextUpload.texture]
  dsimp only
  generalize s'.requestUpload _ _ = result
  obtain ⟨_ | size, s''⟩ := result <;> rfl

/-- A text is drawn and uploaded. -/
theorem exists_uploadText (u : TextUpload) (s : Session σ ρ) :
    ∃ block after, u.Served s.config.flipY s.surroundings block after ∧
      s.uploadText u = s.answered block after := by
  cases equipped : s.rasterizer with
  | none =>
    have alone : s.surroundings = (s.engine, none) := by
      rw [surroundings, equipped]
    refine ⟨[], s.surroundings, ?_, ?_⟩
    · rw [alone]
      exact .undrawable s.engine
    · rw [answered_nil]
      simp only [uploadText, requestRaster, equipped]
  | some drawer =>
    rw [surroundings, equipped]
    cases answer : TextRasterizer.rasterize u.params drawer with
    | mk result drawer' =>
      have asks := requestRaster_of_answer equipped answer
      cases result with
      | error e =>
        refine ⟨_, _, .undrawn s.engine drawer drawer' e answer, ?_⟩
        rw [uploadText, asks]
        rfl
      | ok picture =>
        obtain ⟨taken, block, engine, filled, -, eq⟩ := exists_fill u.step
          u.texture (.raster picture) true
          (s.answered [.rasterize u.params] (s.engine, some drawer'))
        refine ⟨_, _, .drawn s.engine engine drawer drawer' picture answer
          block filled, ?_⟩
        rw [uploadText_eq_fill asks, eq, answered_answered]
        rfl

/-- Texts that are fed one after another are served in sequence. -/
theorem exists_foldTexts (uploads : List TextUpload) (s : Session σ ρ) :
    ∃ events after,
      InSequence (TextUpload.Served · s.config.flipY) uploads s.surroundings
          events after ∧
        uploads.foldl (fun s u => s.uploadText u) s =
          s.answered events after := by
  refine exists_foldl (fun s' u same => ?_) uploads s rfl
  obtain ⟨block, after, served, eq⟩ := exists_uploadText u s'
  rw [same] at served
  exact ⟨block, after, served, eq⟩

/-- The media that there are to upload, if any. -/
def dueMedia (s : Session σ ρ) : List MediaUpload :=
  s.mediaUploads?.getD []

/-- Bringing the textures up to date serves the media first, and then the
texts that there are to upload on what the media have left. -/
theorem exists_syncTextures (s : Session σ ρ) :
    ∃ media between texts after,
      InSequence (MediaUpload.Served · s.config.flipY true) s.dueMedia
          s.surroundings media between ∧
        InSequence (TextUpload.Served · s.config.flipY)
          (s.answered media between).textUploads between texts after ∧
        s.syncTextures = s.answered (media ++ texts) after := by
  obtain ⟨media, between, served, eq⟩ := exists_foldMedia s.dueMedia s
  obtain ⟨texts, after, served', eq'⟩ := exists_foldTexts
    (s.answered media between).textUploads (s.answered media between)
  refine ⟨media, between, texts, after, served, served', ?_⟩
  rw [syncTextures, ← dueMedia, eq, eq', answered_answered]

theorem graph?_syncTextures (still : SteadyGraph σ) (s : Session σ ρ) :
    EffectEngine.graph? s.syncTextures.engine =
      EffectEngine.graph? s.engine := by
  obtain ⟨media, between, texts, after, served, served', eq⟩ :=
    exists_syncTextures s
  have shown := served.keeps
    (fun x => EffectEngine.graph? x.1 = EffectEngine.graph? s.engine)
    (fun served same => (served.look_eq still.upload still.apply).trans same)
    rfl
  rw [eq]
  exact served'.keeps
    (fun x => EffectEngine.graph? x.1 = EffectEngine.graph? s.engine)
    (fun served same => (served.look_eq still.upload still.apply).trans same)
    shown

end Session

/-! ## What there is to upload -/

/-- The media of layers for the steps that they are paired with. -/
def mediaFor (pairs : List (Nat × Layer)) : List MediaUpload :=
  pairs.filterMap fun (step, l) => l.media?.map fun (reference, kind) =>
    { step := step, reference := reference, kind := kind }

/-- The texts of layers for the steps that they are paired with. -/
def textsFor (slot : String) (pairs : List (Nat × Layer)) : List TextUpload :=
  pairs.map fun (step, l) => { step := step, slot := slot, params := l.params }

/-- The visible layers that show media. -/
def mediaLayers (layers : List Layer) : List Layer :=
  (layers.filter (·.visible)).filter fun l => l.media?.isSome

/-- Media are paired with steps as their layers are. -/
theorem mediaFor_zip :
    ∀ (steps : List Nat) (layers : List Layer),
      mediaFor (steps.zip (layers.filter fun l => l.media?.isSome)) =
        (steps.zip (layers.filterMap Layer.media?)).map
          fun (step, reference, kind) =>
            { step := step, reference := reference, kind := kind }
  | steps, [] => by simp [mediaFor]
  | [], l :: rest => by simp [mediaFor]
  | step :: steps, l :: rest => by
    cases shown : l.media? with
    | none =>
      rw [List.filter_cons_of_neg (by simp [shown]),
        List.filterMap_cons_none shown]
      exact mediaFor_zip (step :: steps) rest
    | some media =>
      have ih := mediaFor_zip steps rest
      rw [List.filter_cons_of_pos (by simp [shown]),
        List.filterMap_cons_some shown, List.zip_cons_cons, List.zip_cons_cons,
        List.map_cons, ← ih]
      simp [mediaFor, shown]

namespace Session

variable {σ ρ : Type}

/-- The visible layers that run an effect. -/
def layersOf (s : Session σ ρ) (effect : EffectId) : List Layer :=
  s.visibleLayers.filter fun l =>
    l.effectOr s.config.defaultGenerator = effect

/-- The session over another engine. -/
def facing (s : Session σ ρ) (engine : σ) : Session σ ρ :=
  { s with engine := engine }

variable [EffectEngine σ]

/-- The media to upload are those of the visible media layers, paired with
the steps of the media effect. -/
theorem mediaUploads?_eq {s : Session σ ρ} {g : PipelineGraph}
    (graph : EffectEngine.graph? s.engine = some g) :
    s.mediaUploads? =
      some (mediaFor (g.paired EffectId.media (mediaLayers s.layers))) := by
  rw [mediaUploads?, graph, PipelineGraph.paired, mediaLayers, mediaFor_zip]
  rfl

end Session

end Compositing
