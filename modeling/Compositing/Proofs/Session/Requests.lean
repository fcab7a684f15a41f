/-
Compositing.Proofs.Session.Requests — what requests leave alone.

Whatever an engine and a rasterizer answer, a request changes the engine,
the rasterizer and the journal of a session and nothing else. Events fall
into three kinds: `isQuiet` ones leave the running pipeline in place,
`isFeed` ones fill it, and what remains, an accepted compile or a commit,
replaces it. `compileText_cases` and `Rebuilt` are all that can come of a
compile and of a rebuild; `Fed` is what textures and pushes do.
-/
import Compositing.Session.Update

namespace Compositing

/-- No request changes what engines publish about their effects. -/
structure SteadyManifest (σ : Type) [EffectEngine σ] : Prop where
  load : ∀ (effects : List EffectId) (e : σ),
    EffectEngine.manifest (EffectEngine.loadEffects effects e).2 =
      EffectEngine.manifest e
  compile : ∀ (text : String) (e : σ),
    EffectEngine.manifest (EffectEngine.compile text e).2 =
      EffectEngine.manifest e
  apply : ∀ (values : StepParams) (e : σ),
    EffectEngine.manifest (EffectEngine.applyParams values e).2 =
      EffectEngine.manifest e
  upload : ∀ (texture : String) (source : TextureSource) (flipY : Bool)
    (e : σ),
    EffectEngine.manifest
        (EffectEngine.uploadTexture texture source flipY e).2 =
      EffectEngine.manifest e

/-- The second engine publishes what the first does, unless requests may
change that. -/
def SameManifest {σ : Type} [EffectEngine σ] (e e' : σ) : Prop :=
  SteadyManifest σ → EffectEngine.manifest e' = EffectEngine.manifest e

theorem SameManifest.refl {σ : Type} [EffectEngine σ] (e : σ) :
    SameManifest e e :=
  fun _ => rfl

theorem SameManifest.trans {σ : Type} [EffectEngine σ] {a b c : σ}
    (h : SameManifest a b) (h' : SameManifest b c) : SameManifest a c :=
  fun steady => (h' steady).trans (h steady)

namespace Event

/-- The event leaves the running pipeline in place. -/
def isQuiet : Event → Bool
  | .load _ | .compile _ false | .notify _ => true
  | _ => false

/-- The event gives something to the running pipeline. -/
def isFeed : Event → Bool
  | .push _ _ | .upload _ _ _ _ | .rasterize _ => true
  | _ => false

/-- The text that the engine accepted. -/
def accepted? : Event → Option String
  | .compile text true => some text
  | _ => none

/-- The commit that was made. -/
def committed? : Event → Option Commit
  | .commit made => some made
  | _ => none

/-- The texts that the engine accepted, in order. -/
def acceptedTexts (events : List Event) : List String :=
  events.filterMap accepted?

/-- The commits that were made, in order. -/
def commits (events : List Event) : List Commit :=
  events.filterMap committed?

theorem accepted?_of_idle {e : Event}
    (h : e.isQuiet = true ∨ e.isFeed = true) : e.accepted? = none := by
  cases e with
  | compile text accepted =>
    cases accepted with
    | false => rfl
    | true => rcases h with h | h <;> cases h
  | _ => rfl

theorem committed?_of_idle {e : Event}
    (h : e.isQuiet = true ∨ e.isFeed = true) : e.committed? = none := by
  cases e with
  | commit made => rcases h with h | h <;> cases h
  | _ => rfl

@[simp]
theorem acceptedTexts_append (a b : List Event) :
    acceptedTexts (a ++ b) = acceptedTexts a ++ acceptedTexts b :=
  List.filterMap_append

@[simp]
theorem commits_append (a b : List Event) :
    commits (a ++ b) = commits a ++ commits b :=
  List.filterMap_append

theorem acceptedTexts_of_quiet {events : List Event}
    (h : ∀ e ∈ events, e.isQuiet = true) : acceptedTexts events = [] :=
  List.filterMap_eq_nil_iff.mpr fun e mem => accepted?_of_idle (.inl (h e mem))

theorem acceptedTexts_of_feed {events : List Event}
    (h : ∀ e ∈ events, e.isFeed = true) : acceptedTexts events = [] :=
  List.filterMap_eq_nil_iff.mpr fun e mem => accepted?_of_idle (.inr (h e mem))

theorem commits_of_quiet {events : List Event}
    (h : ∀ e ∈ events, e.isQuiet = true) : commits events = [] :=
  List.filterMap_eq_nil_iff.mpr fun e mem =>
    committed?_of_idle (.inl (h e mem))

theorem commits_of_feed {events : List Event}
    (h : ∀ e ∈ events, e.isFeed = true) : commits events = [] :=
  List.filterMap_eq_nil_iff.mpr fun e mem =>
    committed?_of_idle (.inr (h e mem))

end Event

namespace Session

variable {σ ρ : Type} [EffectEngine σ]

/-! ## Compiling -/

/-- The session after an engine was asked for something. -/
def asked (s : Session σ ρ) (events : List Event) (engine : σ) :
    Session σ ρ :=
  { s with engine := engine, journal := s.journal ++ events }

/-- Loading what a text needs is quiet. -/
theorem loadMissing_cases (text : String) (s : Session σ ρ) :
    ∃ loads engine, (∀ e ∈ loads, e.isQuiet = true) ∧
      SameManifest s.engine engine ∧
      (s.loadMissing text).2 = s.asked loads engine := by
  unfold loadMissing
  split
  · refine ⟨[], s.engine, ?_, .refl s.engine, ?_⟩
    · intro e mem
      cases mem
    · rw [asked, List.append_nil]
  · rename_i effect rest _
    exact ⟨[.load (effect :: rest)], _,
      fun _ mem => List.mem_singleton.mp mem ▸ rfl,
      fun steady => steady.load _ _, rfl⟩

/-- A text is loaded for and then accepted, or it is not accepted and the
running pipeline stays. -/
theorem compileText_cases (text : String) (s : Session σ ρ) :
    ∃ quiet engine, (∀ e ∈ quiet, e.isQuiet = true) ∧
      SameManifest s.engine engine ∧
      (s.compileText text =
          (.ok (), s.asked (quiet ++ [.compile text true]) engine) ∨
        ∃ e, s.compileText text = (.error e, s.asked quiet engine)) := by
  obtain ⟨loads, engine, quiet, same, loaded⟩ := loadMissing_cases text s
  unfold compileText
  split
  · rename_i s' eq
    rw [eq] at loaded
    subst loaded
    have same' : SameManifest s.engine (EffectEngine.compile text engine).2 :=
      same.trans fun steady => steady.compile _ _
    cases result : (EffectEngine.compile text engine).1 with
    | ok _ =>
      refine ⟨loads, _, quiet, same', .inl ?_⟩
      simp only [requestCompile, asked, log, result, List.append_assoc]
      rfl
    | error e =>
      refine ⟨loads ++ [.compile text false], _, ?_, same', .inr ⟨e, ?_⟩⟩
      · intro event mem
        rcases List.mem_append.mp mem with mem | mem
        · exact quiet event mem
        · exact List.mem_singleton.mp mem ▸ rfl
      · simp only [requestCompile, asked, log, result, List.append_assoc]
        rfl
  · rename_i e s' eq
    rw [eq] at loaded
    subst loaded
    exact ⟨loads, engine, quiet, same, .inr ⟨e, rfl⟩⟩

/-- A trial changes nothing but the engine, the journal and whether the step
map is stale. -/
theorem exists_tryCompile_eq (text : String) (s : Session σ ρ) :
    ∃ events engine stale, SameManifest s.engine engine ∧
      (s.tryCompile text).2 = { s.asked events engine with stale := stale } := by
  unfold tryCompile
  obtain ⟨quiet, engine, -, same, accepted | ⟨e, refused⟩⟩ :=
    compileText_cases text s
  · rw [accepted]
    exact ⟨_, engine, true, same, rfl⟩
  · rw [refused]
    exact ⟨quiet, engine, s.stale, same, rfl⟩

/-! ## Feeding the pipeline -/

/-- The running pipeline was given something; nothing else has
changed. -/
inductive Fed (s : Session σ ρ) : Session σ ρ → Prop where
  | intro (events : List Event) (engine : σ) (rasterizer : Option ρ)
      (feed : ∀ e ∈ events, e.isFeed = true)
      (same : SameManifest s.engine engine) :
      Fed s
        { s with
          engine := engine
          rasterizer := rasterizer
          journal := s.journal ++ events }

namespace Fed

theorem refl (s : Session σ ρ) : s.Fed s := by
  have h := Fed.intro (s := s) [] s.engine s.rasterizer
    (fun _ mem => nomatch mem) (.refl s.engine)
  rwa [List.append_nil] at h

theorem trans {a b c : Session σ ρ} (h : a.Fed b) (h' : b.Fed c) :
    a.Fed c := by
  obtain ⟨events, engine, _, feed, same⟩ := h
  obtain ⟨events', engine', rasterizer', feed', same'⟩ := h'
  have all : ∀ e ∈ events ++ events', e.isFeed = true := fun e mem =>
    (List.mem_append.mp mem).elim (feed e) (feed' e)
  have h := Fed.intro (s := a) (events ++ events') engine' rasterizer' all
    (same.trans same')
  rwa [← List.append_assoc] at h

end Fed

theorem fed_push (step : Nat) (params : Params) (s : Session σ ρ) :
    s.Fed (s.push step params).2 :=
  .intro [.push [(step, params)] _] _ s.rasterizer
    (fun _ mem => List.mem_singleton.mp mem ▸ rfl)
    fun steady => steady.apply _ _

theorem fed_requestUpload (texture : String) (source : TextureSource)
    (s : Session σ ρ) : s.Fed (s.requestUpload texture source).2 :=
  .intro [.upload texture source s.config.flipY _] _ s.rasterizer
    (fun _ mem => List.mem_singleton.mp mem ▸ rfl)
    fun steady => steady.upload _ _ _ _

theorem fed_uploadMedia (u : MediaUpload) (pushSize : Bool)
    (s : Session σ ρ) : s.Fed (s.uploadMedia u pushSize).2 := by
  have upload := fed_requestUpload (textureName mediaSlot u.step)
    (.media u.reference u.kind) s
  unfold uploadMedia
  split
  · rename_i size s' eq
    rw [eq] at upload
    split
    · exact upload.trans (fed_push _ _ s')
    · exact upload
  · rename_i s' eq
    rw [eq] at upload
    exact upload

/-- Feeding again and again is feeding. -/
theorem fed_foldl {α : Type} {feed : Session σ ρ → α → Session σ ρ}
    (h : ∀ s a, Fed s (feed s a)) :
    ∀ (items : List α) (s : Session σ ρ), s.Fed (items.foldl feed s)
  | [], s => .refl s
  | a :: rest, s => (h s a).trans (fed_foldl h rest _)

theorem fed_uploadCounting :
    ∀ (uploads : List MediaUpload) (s : Session σ ρ),
      s.Fed (uploadCounting uploads s).2
  | [], s => .refl s
  | u :: rest, s =>
    (fed_uploadMedia u false s).trans (fed_uploadCounting rest _)

theorem fed_refreshVideo (s : Session σ ρ) : s.Fed s.refreshVideo.2 := by
  unfold refreshVideo
  split
  · exact fed_uploadCounting _ s
  · exact .refl s

variable [TextRasterizer ρ]

theorem fed_requestRaster (params : Params) (s : Session σ ρ) :
    s.Fed (s.requestRaster params).2 := by
  unfold requestRaster
  split
  · exact .refl s
  · exact .intro [.rasterize params] s.engine _
      (fun _ mem => List.mem_singleton.mp mem ▸ rfl) (.refl s.engine)

theorem fed_uploadText (u : TextUpload) (s : Session σ ρ) :
    s.Fed (s.uploadText u) := by
  have raster := fed_requestRaster u.params s
  unfold uploadText
  split
  · rename_i s' eq
    rw [eq] at raster
    exact raster
  · rename_i picture s' eq
    rw [eq] at raster
    have upload := fed_requestUpload (textureName u.slot u.step)
      (.raster picture) s'
    split
    · rename_i size s'' eq'
      rw [eq'] at upload
      exact (raster.trans upload).trans (fed_push _ _ s'')
    · rename_i s'' eq'
      rw [eq'] at upload
      exact raster.trans upload

theorem fed_syncTextures (s : Session σ ρ) : s.Fed s.syncTextures :=
  (fed_foldl (fun s u => fed_uploadMedia u true s) _ s).trans
    (fed_foldl (fun s u => fed_uploadText u s) _ _)

theorem fed_refreshText (id : LayerId) (step : Nat) (s : Session σ ρ) :
    s.Fed (s.refreshText id step) := by
  unfold refreshText
  split
  · exact fed_uploadText _ s
  · exact .refl s

/-! ## Rebuilding -/

/-- The session once the engine has accepted its program and the program
is committed. -/
def adopted (s : Session σ ρ) (quiet : List Event) (engine : σ) :
    Session σ ρ :=
  let program := s.programOf s.layers
  let made : Commit :=
    { layers := s.layers
      program := program
      graph? := EffectEngine.graph? engine }
  let events := quiet ++ [.compile program.text true, .commit made]
  let next := s.asked events engine
  { next with
    compiled := some { program := program, stepMap := next.mapOf program }
    stale := false
    generation := s.generation + 1 }

/-- What can come of a rebuild. -/
inductive Rebuilt (s : Session σ ρ) (force : Bool) :
    Except Error CompileReport → Session σ ρ → Prop where
  /-- The program runs already. -/
  | skipped (c : Compiled) (unforced : force = false)
      (unchanged : s.unchanged? (s.programOf s.layers) = some c) :
      Rebuilt s force (.ok { skipped := true, mapped := c.stepMap.size }) s
  /-- The engine refused; the running pipeline stays. -/
  | refused (e : Error) (events : List Event) (engine : σ)
      (quiet : ∀ e ∈ events, e.isQuiet = true)
      (same : SameManifest s.engine engine) :
      Rebuilt s force (.error e) (s.asked events engine)
  /-- The engine accepted; the program is committed and fed. -/
  | committed (events : List Event) (engine : σ)
      (quiet : ∀ e ∈ events, e.isQuiet = true)
      (same : SameManifest s.engine engine) (s' : Session σ ρ)
      (fed : (s.adopted events engine).Fed s') :
      Rebuilt s force
        (.ok
          { skipped := false
            mapped :=
              ((s.asked events engine).mapOf (s.programOf s.layers)).size })
        s'

theorem rebuilt_of_rebuild {force : Bool} {s s' : Session σ ρ}
    {result : Except Error CompileReport}
    (eq : s.rebuild force = (result, s')) : s.Rebuilt force result s' := by
  suffices rebuilt : s.Rebuilt force (s.rebuild force).1 (s.rebuild force).2
    by rwa [eq] at rebuilt
  unfold rebuild
  dsimp only
  split
  · rename_i c unchanged
    cases force with
    | true => cases unchanged
    | false => exact .skipped c rfl unchanged
  · obtain ⟨events, engine, quiet, same, accepted | ⟨e, refused⟩⟩ :=
      compileText_cases (s.programOf s.layers).text s
    · rw [accepted]
      have fed := fed_syncTextures (s.adopted events engine)
      refine .committed events engine quiet same _ ?_
      simpa only [adopted, commit, asked, log, mapOf, layers,
        List.append_assoc, List.cons_append, List.nil_append] using fed
    · rw [refused]
      exact .refused e events engine quiet same

/-- A rebuild that does not skip succeeds if the engine takes the text. -/
theorem exists_report (force : Bool) {s : Session σ ρ}
    (unskipped :
      (if force then none else s.unchanged? (s.programOf s.layers)) = none)
    (takes : (s.compileText (s.programOf s.layers).text).1.isOk = true) :
    ∃ report, (s.rebuild force).1 = .ok report := by
  unfold rebuild
  cases result : s.compileText (s.programOf s.layers).text with
  | mk verdict s' =>
    cases verdict with
    | error e =>
      rw [result] at takes
      cases takes
    | ok value =>
      simp only [unskipped, result]
      exact ⟨_, rfl⟩

/-- A rebuild leaves the composition. -/
theorem composition_rebuild (force : Bool) (s : Session σ ρ) :
    (s.rebuild force).2.composition = s.composition := by
  cases eq : s.rebuild force with
  | mk result s' =>
    cases rebuilt_of_rebuild eq with
    | committed events engine quiet same s' fed =>
      cases fed
      rfl
    | _ => rfl

end Session

end Compositing
