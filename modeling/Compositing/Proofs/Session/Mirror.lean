/-
Compositing.Proofs.Session.Mirror — the engine is asked to hold what the
program says.

While a session is not stale, changes of parameters, opacities and offsets
reach the layers and the steps side by side. So whatever value the program
of the layers gives to a parameter, the engine was last asked to hold just
that (`Tracks`), and holds it unless it has refused. Two kinds of
parameters are settled elsewhere (`Uncontested`): the extents of textures,
and an `offset` among the own parameters of media and texts.
-/
import Compositing.Proofs.Session.Acts
import Compositing.Proofs.Session.Live
import Compositing.Proofs.Session.Updated

namespace Compositing

open Json (Value)

/-- No step is both that of a blend and that of a layer or child
effect. -/
theorem StepMap.LaidOut.step?_ne_blendStep? {p : Program}
    {g : PipelineGraph} (h : LaidOut p g) {a b : LayerId} {step : Nat}
    (blends : (build p g).blendStep? a = some step) :
    (build p g).step? b ≠ some step := by
  intro shows
  have entry : ∀ {view : Role → Option LayerId} {id : LayerId},
      Assoc.get? id (Assoc.ofList (bound view p.invocations g.passes)) =
        some step →
      (id, step) ∈ bound view p.invocations g.passes := by
    intro view id found
    rcases Assoc.mem_of_mem_insertAll (Assoc.mem_of_get?_eq_some found)
      with mem | mem
    · exact mem
    · cases mem
  rw [h.blendStep?_eq] at blends
  rw [h.step?_eq] at shows
  obtain ⟨j, inv, pass, at_inv, at_pass, found, same⟩ :=
    mem_bound.mp (entry blends)
  obtain ⟨k, inv', pass', at_inv', at_pass', found', same'⟩ :=
    mem_bound.mp (entry shows)
  obtain rfl := h.position_eq at_pass at_pass' (same.trans same'.symm)
  rw [at_inv] at at_inv'
  cases at_inv'
  rw [Role.blended?_eq_some_iff] at found
  rw [found] at found'
  cases found'

namespace Session

variable {σ ρ : Type}

/-! ## Pushes -/

/-- What a push to a step says of a parameter. -/
def said? (push : Option (Nat × Params)) (step : Nat) (key : String) :
    Option Value :=
  push.bind fun (step', params) =>
    if step = step' then params.get? key else none

variable [EffectEngine σ]

/-- Push what there is to push. -/
def pushing (push : Option (Nat × Params)) (s : Session σ ρ) :
    Session σ ρ :=
  match push with
  | none => s
  | some (step, params) => (s.push step params).2

theorem fed_pushing (push : Option (Nat × Params)) (s : Session σ ρ) :
    s.Fed (s.pushing push) := by
  unfold pushing
  split
  · exact .refl s
  · exact fed_push _ _ s

/-- A push changes the engine and the journal. -/
theorem pushing_keeps (push : Option (Nat × Params)) (s : Session σ ρ) :
    (s.pushing push).composition = s.composition ∧
      (s.pushing push).config = s.config ∧
      SameManifest s.engine (s.pushing push).engine ∧
      ∃ taken, (s.pushing push).journal = s.journal ++
        push.toList.map fun pushed => .push [pushed] taken := by
  cases push with
  | none => exact ⟨rfl, rfl, .refl _, true, (List.append_nil _).symm⟩
  | some pushed => exact ⟨rfl, rfl, fun steady => steady.apply _ _, _, rfl⟩

theorem sinceCommit_pushing (step : Nat) {params : Params}
    {key : String} (set : params.get? key ≠ none) (s : Session σ ρ) :
    (s.pushing (some (step, params))).SinceCommit (Event.Sets step key) := by
  refine .of_mem rfl rfl (List.mem_singleton_self _) ?_
  rw [Event.Sets, Event.value?_singleton, if_pos rfl]
  exact set

/-- Whatever comes of a push, the engine was asked for its values. -/
theorem asked?_pushing (push : Option (Nat × Params)) (s : Session σ ρ)
    (step : Nat) (key : String) :
    (s.pushing push).asked? step key =
      (said? push step key).or (s.asked? step key) := by
  cases push with
  | none => rfl
  | some pushed =>
    obtain ⟨step', params⟩ := pushed
    show List.foldl _ none (s.journal ++ [_]) = _
    rw [List.foldl_append, List.foldl_cons, List.foldl_nil, Event.write,
      if_pos rfl, Event.value?_singleton]
    rfl

/-! ## What the program gives -/

/-- The program of the session's layers gives a parameter this value. -/
def Gives (s : Session σ ρ) (id : LayerId) (key : String) (value : Value) :
    Prop :=
  (s.programOf s.layers).Gives id key value

/-- The value of a parameter is not settled elsewhere. -/
structure Uncontested (s : Session σ ρ) (id : LayerId) (step : Nat)
    (key : String) : Prop where
  /-- Since the commit the step was not told the extent of its texture. -/
  untold : key = "imageSize" → ¬ s.SinceCommit (Event.TellsExtent step)
  /-- Which effects are moved by the offset of their layer does not change,
  and what is moved has no other offset among its own parameters, or at
  least none was pushed since the commit. -/
  unmoved : key = "offset" → SteadyManifest σ ∧
    ∀ l ∈ s.layers, l.id = id →
      (s.catalog.classify
        (l.effectOr s.config.defaultGenerator)).hasOffset = true →
        l.params.get? "offset" = none ∨
          ¬ s.SinceCommit (Event.Sets step "offset")

/-- The engine was asked to hold what the program gives. -/
def Mirrors (s : Session σ ρ) (made : Commit) : Prop :=
  ∀ {id step key value}, made.stepMap.step? id = some step →
    s.Gives id key value → s.Uncontested id step key →
      s.asked? step key = some value

/-- The session is in step with a commit, and if its program was laid out
in order, the engine was asked to hold what the program gives now. -/
structure Tracks (s : Session σ ρ) (made : Commit) : Prop where
  inStep : s.InStep made
  shown : made.program.invocations.filterMap (·.role.shown?) =
    visibleIds s.layers
  mirrors : ∀ g, made.graph? = some g → StepMap.LaidOut made.program g →
    s.Mirrors made

theorem catalog_congr {s s' : Session σ ρ} (config : s'.config = s.config)
    (same : SameManifest s.engine s'.engine) (steady : SteadyManifest σ) :
    s'.catalog = s.catalog := by
  unfold catalog
  rw [config, same steady]

/-- What is uncontested later was uncontested before. -/
theorem Uncontested.of_later {s s' : Session σ ρ} {id : LayerId} {step : Nat}
    {key : String} (h : s'.Uncontested id step key)
    {events : List Event} (journal : s'.journal = s.journal ++ events)
    (commits : Event.commits events = []) (config : s'.config = s.config)
    (same : SameManifest s.engine s'.engine)
    (grows : s.composition.Grows s'.composition) : s.Uncontested id step key where
  untold isSize told := h.untold isSize (told.append journal commits)
  unmoved isOffset := by
    obtain ⟨steady, unmoved⟩ := h.unmoved isOffset
    refine ⟨steady, fun l mem own moved => ?_⟩
    obtain ⟨l', mem', same_id, source, grown⟩ := grows l mem
    refine (unmoved l' mem' (same_id.trans own) ?_).imp grown
      fun unset set => unset (set.append journal commits)
    rwa [catalog_congr config same steady, config, Layer.effectOr, source]

/-- What has an own offset is not moved, if later that was pushed and is
uncontested all the same. -/
theorem Uncontested.not_isMoved {s s' : Session σ ρ} {id : LayerId}
    {step : Nat} (h : s'.Uncontested id step "offset")
    (pushed : s'.SinceCommit (Event.Sets step "offset"))
    (composition : s'.composition = s.composition)
    (config : s'.config = s.config)
    (same : SameManifest s.engine s'.engine)
    (distinct : (s.layers.flatMap Layer.ids).Nodup) {call : Program.Call}
    (shows : (s.programOf s.layers).Shows id call) {params : Params}
    (has : HasParams s.layers id params)
    (own : params.get? "offset" ≠ none) : ¬ call.IsMoved s.catalog := by
  intro moved
  obtain ⟨steady, unmoved⟩ := h.unmoved rfl
  rw [catalog_congr config same steady, config, layers, composition]
    at unmoved
  obtain ⟨l, mem, ⟨rfl, rfl⟩ | ⟨child, mem', rfl, rfl⟩⟩ :=
    (Program.shows_ofLayers_iff s.catalog _ distinct).mp shows
  · obtain ⟨-, hasOffset⟩ :=
      (Program.isMoved_ownCall_iff s.catalog _ _ l).mp moved
    have mem := List.mem_of_mem_filter mem
    rcases unmoved l mem rfl hasOffset with unset | unpushed
    · rw [has.of_layer distinct mem rfl] at unset
      exact own unset
    · exact unpushed pushed
  · obtain ⟨⟨_, role⟩, -⟩ := moved
    cases role

/-- Only the offset of a moved layer depends on what the engine
publishes. -/
theorem Gives.of_engine {s s' : Session σ ρ} {id : LayerId} {step : Nat}
    {key : String} {value : Value} (h : s'.Gives id key value)
    (free : s'.Uncontested id step key)
    (composition : s'.composition = s.composition)
    (config : s'.config = s.config)
    (same : SameManifest s.engine s'.engine)
    (sound : s.composition.Sound) : s.Gives id key value := by
  have distinct := sound.stack.stackable.distinct
  have layers : s'.layers = s.layers.map fun l => l := by
    rw [Session.layers, composition, List.map_id']
    rfl
  unfold Gives programOf at h ⊢
  rw [layers, config] at h
  refine Program.gives_of_map distinct ?_ (fun _ => rfl) ?_ ?_ h
  · rwa [List.map_id']
  · intro l mem own
    refine ⟨rfl, fun _ _ => rfl, fun isOffset => ⟨?_, fun _ => rfl⟩⟩
    exact catalog_congr config same (free.unmoved isOffset).1
  · exact fun l mem c mem' own => ⟨c, mem', rfl, rfl⟩

namespace Tracks

variable {s s' : Session σ ρ} {made : Commit}

/-- A session goes on to track its commit while it rests. -/
theorem rests (h : s.Tracks made) (rests : s.Rests s')
    (sound : s.composition.Sound) : s'.Tracks made := by
  obtain ⟨composition, config, compiled, -, same, events, journal, aside⟩ :=
    rests
  have layers : s'.layers = s.layers := by
    rw [Session.layers, composition]
    rfl
  have commits := Event.commits_of_aside aside
  constructor
  case inStep =>
    exact h.inStep.of_idle journal (Event.acceptedTexts_of_aside aside)
      commits compiled (congrArg skeleton layers) same config
  case shown => rw [h.shown, layers]
  case mirrors =>
    intro g graph laidOut id step key value mapped gives free
    have kept : s.composition.Grows s'.composition := .of_layers_eq layers
    have untold : key = "imageSize" → ∀ e ∈ events, ¬ e.TellsExtent step :=
      fun isSize e mem tells =>
        free.untold isSize (.of_mem journal commits mem tells)
    rw [asked?, journal, List.foldl_append,
      Event.foldl_write_of_aside _ aside untold]
    exact h.mirrors g graph laidOut mapped
      (gives.of_engine free composition config same sound)
      (free.of_later journal commits config same kept)

/-- A session goes on to track its commit when its layers change and the
change is pushed: whatever the changed program gives, the push says, or it
says nothing and the program gave it before. -/
theorem update (h : s.Tracks made) {composition : Composition}
    (retains : s.composition.Retains composition)
    (grows : s.composition.Grows composition)
    (sound : composition.Sound) (push : Option (Nat × Params))
    (agrees : ∀ g, made.graph? = some g →
      StepMap.LaidOut made.program g →
      let changed := { s with composition := composition }
      ∀ id step key value, made.stepMap.step? id = some step →
        changed.Gives id key value →
        (changed.pushing push).Uncontested id step key →
          said? push step key = some value ∨
            said? push step key = none ∧ s.Gives id key value) :
    ({ s with composition := composition }.pushing push).Tracks made := by
  let changed := { s with composition := composition }
  show (changed.pushing push).Tracks made
  have inStep : changed.InStep made :=
    h.inStep.of_idle (List.append_nil _).symm rfl rfl rfl retains.skeleton
      (.refl _) rfl
  obtain ⟨same_composition, config, same, taken, journal⟩ :=
    changed.pushing_keeps push
  constructor
  case inStep => exact inStep.fed (changed.fed_pushing push)
  case shown =>
    have layers : (changed.pushing push).layers = composition.layers :=
      congrArg Composition.layers same_composition
    rw [h.shown, layers]
    exact (visibleIds_of_skeleton_eq retains.skeleton).symm
  case mirrors =>
    intro g graph laidOut id step key value mapped gives free
    have gives : changed.Gives id key value :=
      gives.of_engine free same_composition config same sound
    rw [asked?_pushing]
    rcases agrees g graph laidOut id step key value mapped gives free with
      said | ⟨silent, gave⟩
    · rw [said, Option.some_or]
    · have commits : Event.commits
          (push.toList.map fun pushed => .push [pushed] taken) = [] := by
        cases push <;> rfl
      have before : s.Uncontested id step key :=
        free.of_later journal commits config same (same_composition ▸ grows)
      rw [silent, Option.none_or]
      exact h.mirrors g graph laidOut mapped gave before

/-- Names and locks are nothing to the engine. -/
theorem relabel (h : s.Tracks made) {composition : Composition}
    (relabels : s.composition.Relabels composition)
    (sound : composition.Sound) :
    { s with composition := composition }.Tracks made := by
  refine h.update relabels.toRetains ?_ sound none ?_
  · intro l mem
    have mem : l.unlabelled ∈ composition.layers.map Layer.unlabelled := by
      rw [relabels.labels]
      exact List.mem_map_of_mem mem
    obtain ⟨l', mem', same⟩ := List.mem_map.mp mem
    have params : l'.params = l.params := congrArg (·.params) same
    exact ⟨l', mem', congrArg (·.id) same, congrArg (·.source) same,
      fun none => params ▸ none⟩
  · intro g graph laidOut changed id step key value mapped gives free
    refine .inr ⟨rfl, ?_⟩
    have program : changed.programOf changed.layers =
        s.programOf s.layers := relabels.ofLayers_eq _ _
    rwa [Session.Gives, program] at gives

end Tracks

/-! ## Updates -/

theorem InStep.step?_eq {s : Session σ ρ} {made : Commit}
    (h : s.InStep made) (fresh : s.stale = false) (id : LayerId) :
    s.step? id = made.stepMap.step? id ∧
      s.blendStep? id = made.stepMap.blendStep? id := by
  unfold step? blendStep? stepMap?
  rw [fresh, h.compiled]
  exact ⟨rfl, rfl⟩

namespace Tracks

variable {s : Session σ ρ} {made : Commit}

/-- Each step is that of one layer or child effect. -/
theorem eq_of_step? (h : s.Tracks made) (sound : s.composition.Sound)
    {g : PipelineGraph} (graph : made.graph? = some g)
    (laidOut : StepMap.LaidOut made.program g) {a b : LayerId} {step : Nat}
    (at_a : made.stepMap.step? a = some step)
    (at_b : made.stepMap.step? b = some step) : a = b := by
  have nodup : (made.program.invocations.filterMap
      (·.role.shown?)).Nodup := by
    rw [h.shown]
    exact StepMap.nodup_shownIds sound.stack.stackable.distinct
  rw [Commit.stepMap, graph] at at_a at_b
  exact laidOut.eq_of_step? nodup at_a at_b

/-- A push to the step of one layer or child effect says nothing of
others. -/
theorem said?_step? (h : s.Tracks made) (sound : s.composition.Sound)
    {g : PipelineGraph} (graph : made.graph? = some g)
    (laidOut : StepMap.LaidOut made.program g) (id : LayerId)
    (params : Params) {id' : LayerId} {step : Nat}
    (mapped : made.stepMap.step? id' = some step) (key : String) :
    said? ((made.stepMap.step? id).map (·, params)) step key =
      if id = id' then params.get? key else none := by
  by_cases same : id = id'
  · subst same
    rw [mapped, if_pos rfl]
    exact if_pos rfl
  · rw [if_neg same]
    cases own : made.stepMap.step? id with
    | none => rfl
    | some step' =>
      refine if_neg ?_
      rintro rfl
      exact same (h.eq_of_step? sound graph laidOut own mapped)

/-- A push of one parameter to the step of a layer or child effect says
what is given as that parameter, or nothing. -/
theorem said_or_gave (h : s.Tracks made) (sound : s.composition.Sound)
    {g : PipelineGraph} (graph : made.graph? = some g)
    (laidOut : StepMap.LaidOut made.program g) {id : LayerId}
    {params : Params} {only : String} {said : Value}
    (single : ∀ key, params.get? key = if key = only then some said else none)
    {id' : LayerId} {step : Nat} {key : String} {value : Value} {Gave : Prop}
    (mapped : made.stepMap.step? id' = some step)
    (set : id = id' → key = only → value = said)
    (unset : ¬ (id = id' ∧ key = only) → Gave) :
    let push := (made.stepMap.step? id).map (·, params)
    said? push step key = some value ∨ said? push step key = none ∧ Gave := by
  dsimp only
  rw [h.said?_step? sound graph laidOut id _ mapped, single, ← ite_and]
  by_cases same : id = id' ∧ key = only
  · rw [if_pos same, set same.1 same.2]
    exact .inl rfl
  · rw [if_neg same]
    exact .inr ⟨rfl, unset same⟩

/-- A push to the step of a blend says nothing of layers and child
effects. -/
theorem said?_blendStep? {g : PipelineGraph} (graph : made.graph? = some g)
    (laidOut : StepMap.LaidOut made.program g) (id : LayerId)
    (params : Params) {id' : LayerId} {step : Nat}
    (mapped : made.stepMap.step? id' = some step) (key : String) :
    said? ((made.stepMap.blendStep? id).map (·, params)) step key =
      none := by
  cases blends : made.stepMap.blendStep? id with
  | none => rfl
  | some step' =>
    rw [Commit.stepMap, graph] at mapped blends
    refine if_neg ?_
    rintro rfl
    exact laidOut.step?_ne_blendStep? blends mapped

/-- An update whose edit is refused leaves everything as it was. -/
theorem updating (h : s.Tracks made) {change : Edit Unit}
    {follow : Session σ ρ → Except Error Bool × Session σ ρ}
    (refused : ∀ {e c'}, change s.composition = (.error e, c') →
      c' = s.composition)
    (accepted : (change s.composition).1 = .ok () →
      (follow { s with composition := (change s.composition).2 }).2.Tracks
        made) :
    (s.updating change follow).2.Tracks made := by
  unfold Session.updating touch
  cases eq : change s.composition with
  | mk result composition =>
    cases result with
    | error e =>
      obtain rfl := refused eq
      exact h
    | ok =>
      rw [eq] at accepted
      exact accepted rfl

/-- The push of an opacity follows the program. -/
theorem updateOpacity (h : s.Tracks made) (fresh : s.stale = false)
    (sound : s.composition.Sound) (id : LayerId) (opacity : Float)
    (sound' : (Composition.setOpacity id opacity s.composition).2.Sound) :
    (s.updateOpacity id opacity).2.Tracks made := by
  let changed : Session σ ρ :=
    { s with
      composition := (Composition.setOpacity id opacity s.composition).2 }
  have retains := Composition.neutral_setOpacity id opacity s.composition
  have distinct := sound.stack.stackable.distinct
  have distinct' : (changed.layers.flatMap Layer.ids).Nodup :=
    sound'.stack.stackable.distinct
  let push := (changed.opacityPatch id opacity).1.map fun step =>
    (step, (changed.opacityPatch id opacity).2)
  have followed : (followOpacity id opacity changed).2 =
      changed.pushing push := by
    unfold followOpacity pushing
    simp only [push]
    cases changed.opacityPatch id opacity with
    | mk step? patch => cases step? <;> rfl
  rw [updateOpacity_eq]
  refine h.updating Composition.stack_of_refused_editLayer fun _ => ?_
  show (followOpacity id opacity changed).2.Tracks made
  rw [followed]
  refine h.update retains (Composition.grows_setOpacity sound id opacity)
    sound' push ?_
  intro g graph laidOut changed' id' step key value mapped gives free
  cases baked : changed.solidBaseAlpha? id with
  | some alpha =>
    -- The new alpha of a flat base goes to its own step.
    have pushes : push = (made.stepMap.step? id).map
        (·, Params.empty.insertFloat "a" alpha) := by
      simp only [push, opacityPatch, baked]
      rw [← (h.inStep.step?_eq fresh id).1]
      rfl
    rw [pushes]
    refine h.said_or_gave sound graph laidOut
      (Params.empty.get?_insertFloat "a" alpha) mapped ?_ fun other => ?_
    · rintro rfl rfl
      exact eq_alpha_of_gives (s := changed) distinct' baked gives
    · refine Composition.gives_of_setOpacity sound sound' ?_ gives
      exact fun own isAlpha => absurd ⟨own, isAlpha⟩ other
  | none =>
    -- The new weight goes to the step of the blend.
    have pushes : push = (made.stepMap.blendStep? id).map
        (·, Params.empty.insertFloat "amount" (blendWeight opacity)) := by
      simp only [push, opacityPatch, baked]
      rw [← (h.inStep.step?_eq fresh id).2]
      rfl
    rw [pushes]
    refine .inr ⟨said?_blendStep? graph laidOut id _ mapped key, ?_⟩
    have unbaked : s.solidBaseAlpha? id = none := by
      have config : changed.config = s.config := rfl
      have same := isSome_solidBaseAlpha?_of_skeleton_eq config
        retains.skeleton id
      rw [baked] at same
      exact Option.isNone_iff_eq_none.mp (by simpa using same.symm)
    refine Composition.gives_of_setOpacity sound sound' ?_ gives
    rintro - - l mem rfl
    exact not_isFlatBase distinct mem unbaked

/-- The push of an offset follows the program. -/
theorem updateOffset (h : s.Tracks made) (fresh : s.stale = false)
    (sound : s.composition.Sound) (id : LayerId) (offset : Offset)
    (sound' : (Composition.setOffset id offset s.composition).2.Sound) :
    (s.updateOffset id offset).2.Tracks made := by
  let changed : Session σ ρ :=
    { s with
      composition := (Composition.setOffset id offset s.composition).2 }
  have retains := Composition.neutral_setOffset id offset s.composition
  have grows := Composition.grows_setOffset sound id offset
  let pair := Params.empty.insertPair "offset" offset.x offset.y
  let push := (if changed.followsOffset id then changed.step? id
    else none).map (·, pair)
  have followed : (followOffset id offset changed).2 =
      changed.pushing push := by
    unfold followOffset pushing
    simp only [push]
    cases (if changed.followsOffset id then changed.step? id else none) <;>
      rfl
  rw [updateOffset_eq]
  refine h.updating Composition.eq_of_refused_setOffset fun accepted => ?_
  show (followOffset id offset changed).2.Tracks made
  rw [followed]
  refine h.update retains grows sound' push ?_
  intro g graph laidOut changed' id' step key value mapped gives free
  cases follows : changed.followsOffset id with
  | true =>
    have pushes : push = (made.stepMap.step? id).map (·, pair) := by
      simp only [push, follows, if_true]
      rw [← (h.inStep.step?_eq fresh id).1]
      rfl
    rw [pushes]
    refine h.said_or_gave sound graph laidOut
      (Params.empty.get?_insertPair "offset" offset.x offset.y) mapped ?_
      fun other => ?_
    · rintro rfl rfl
      obtain ⟨l, found, moved⟩ := (Option.any_eq_true _ _).mp follows
      obtain ⟨mem, rfl⟩ := sound'.stack.coherent.get?_eq_some_iff.mp found
      rw [eq_offset_of_gives (s := changed) sound'.stack.stackable.distinct
          mem moved gives, Composition.offset_of_setOffset accepted found]
    · refine Composition.gives_of_setOffset sound sound' ?_ gives
      exact fun own isOffset => absurd ⟨own, isOffset⟩ other
  | false =>
    refine .inr ⟨by simp [push, follows, said?], ?_⟩
    refine Composition.gives_of_setOffset sound sound' ?_ gives
    rintro - - l mem rfl
    obtain ⟨l', mem', same, source, -⟩ := grows l mem
    have found : changed.stack.get? l.id = some l' :=
      sound'.stack.coherent.get?_eq_some_iff.mpr ⟨mem', same⟩
    have effect : l.effectOr s.config.defaultGenerator =
        l'.effectOr s.config.defaultGenerator := by
      rw [Layer.effectOr, Layer.effectOr, source]
    rw [followsOffset, found] at follows
    rw [effect]
    exact follows

/-- The program gives what was pushed for a patch, unless that is
contested. -/
theorem eq_of_pushed_patch (distinct : (s.layers.flatMap Layer.ids).Nodup)
    {id : LayerId} {old patch : Params}
    (has : HasParams s.layers id (old.extend patch)) {step : Nat}
    {key : String} {value value' : Value} (gives : s.Gives id key value)
    (said : (s.bakePatch id patch).get? key = some value')
    (free : (s.pushing (some (step, s.bakePatch id patch))).Uncontested id
      step key) : value = value' := by
  obtain ⟨call, shows, given⟩ := gives
  have agrees := agrees_bakePatch distinct has s.catalog shows
  have unmoved : key = "offset" → ¬ call.IsMoved s.catalog := by
    rintro rfl
    obtain ⟨same_composition, config, same, -⟩ :=
      s.pushing_keeps (some (step, s.bakePatch id patch))
    have pushed : (s.bakePatch id patch).get? "offset" ≠ none := by
      rw [said]
      exact Option.some_ne_none value'
    have patched : (old.extend patch).get? "offset" ≠ none := by
      rw [get?_bakePatch] at said
      obtain ⟨set, patched, -⟩ := Option.map_eq_some_iff.mp said
      rw [Params.get?_extend, patched]
      exact Option.some_ne_none set
    exact free.not_isMoved (sinceCommit_pushing step pushed s)
      same_composition config same distinct shows has patched
  rw [agrees.same key value' said unmoved] at given
  exact (Option.some.inj given).symm

variable [TextRasterizer ρ]

/-- The push of a patch follows the program, unless an own offset of media
or texts is in it. -/
theorem updateParams (h : s.Tracks made) (fresh : s.stale = false)
    (sound : s.composition.Sound) (id : LayerId) (patch : Params)
    (sound' : (Composition.patchParams id patch s.composition).2.Sound) :
    (s.updateParams id patch).2.Tracks made := by
  let changed : Session σ ρ :=
    { s with
      composition := (Composition.patchParams id patch s.composition).2 }
  have retains := Composition.neutral_patchParams id patch s.composition
  have distinct' : (changed.layers.flatMap Layer.ids).Nodup :=
    sound'.stack.stackable.distinct
  let push := (made.stepMap.step? id).map (·, changed.bakePatch id patch)
  rw [updateParams_eq]
  refine h.updating Composition.eq_of_refused_patchParams fun accepted => ?_
  have pushed : (changed.pushing push).Tracks made := by
    refine h.update retains (Composition.grows_patchParams sound id patch)
      sound' push ?_
    intro g graph laidOut changed' id' step key value mapped gives free
    rw [h.said?_step? sound graph laidOut id _ mapped]
    by_cases own : id = id'
    · subst own
      rw [if_pos rfl]
      cases said : (changed.bakePatch id patch).get? key with
      | some value' =>
        obtain ⟨old, has⟩ := Composition.hasParams_patchParams
          sound.stack.coherent accepted
        have pushes : push = some (step, changed.bakePatch id patch) := by
          simp only [push, mapped, Option.map_some]
        rw [pushes] at free
        rw [eq_of_pushed_patch (s := changed) distinct' has gives said free]
        exact .inl rfl
      | none =>
        refine .inr ⟨rfl, ?_⟩
        refine Composition.gives_of_patchParams sound sound' (fun _ => ?_)
          gives
        rwa [get?_bakePatch, Option.map_eq_none_iff] at said
    · rw [if_neg own]
      refine .inr ⟨rfl, ?_⟩
      exact Composition.gives_of_patchParams sound sound'
        (fun same => absurd same own) gives
  show (followParams id patch changed).2.Tracks made
  have mapped : changed.step? id = made.stepMap.step? id :=
    (h.inStep.step?_eq fresh id).1
  unfold followParams
  rw [mapped]
  cases known : made.stepMap.step? id with
  | none =>
    simp only [push, known] at pushed
    exact pushed
  | some step =>
    simp only [push, known] at pushed
    exact pushed.rests (rests_refreshText id step _) sound'

end Tracks

/-- A session that has just adopted its program tracks it. -/
theorem tracks_adopted (s : Session σ ρ) (events : List Event) {engine : σ}
    (same : SameManifest s.engine engine) (sound : s.composition.Sound) :
    (s.adopted events engine).Tracks
      { layers := s.layers
        program := s.programOf s.layers
        graph? := EffectEngine.graph? engine } where
  inStep := .adopted s events same
  shown := Program.shown_ofLayers _ _ _
  mirrors g graph laidOut id step key value mapped gives free := by
    obtain ⟨call, shows, given⟩ : s.Gives id key value :=
      gives.of_engine free rfl rfl same sound
    have nodup := StepMap.nodup_shown s.catalog s.config.defaultGenerator
      sound.stack.stackable.distinct
    rw [Commit.stepMap, graph] at mapped
    have params := laidOut.given?_eq nodup mapped shows
    have graph : EffectEngine.graph? engine = some g := graph
    simp only [asked?, adopted, asked, List.foldl_append, List.foldl_cons,
      List.foldl_nil, Event.write, Commit.value?, graph, Option.bind_some,
      params, given]

/-! ## Acts -/

/-- A session that is not stale goes on to track its commit over an update
whose push follows the program. -/
theorem tracks_updating (change : Edit Unit)
    {follow : Session σ ρ → Except Error Bool × Session σ ρ}
    (fed : ∀ s : Session σ ρ, s.Fed (follow s).2) {s : Session σ ρ}
    (h : s.stale = false → ∃ made, s.Tracks made)
    (sound' : (s.updating change follow).2.composition.Sound)
    (follows : ∀ made, s.Tracks made → s.stale = false →
      (change s.composition).2.Sound →
        (s.updating change follow).2.Tracks made) :
    (s.updating change follow).2.stale = false →
      ∃ made, (s.updating change follow).2.Tracks made := by
  intro fresh
  -- An update leaves a session as stale as it was, with the edited
  -- composition.
  have kept : (s.updating change follow).2.stale = s.stale ∧
      (s.updating change follow).2.composition =
        (change s.composition).2 := by
    have fed := fed_updating change fed s
    generalize (s.updating change follow).2 = s' at fed
    cases fed
    exact ⟨rfl, rfl⟩
  have fresh : s.stale = false := kept.1.symm.trans fresh
  obtain ⟨made, tracks⟩ := h fresh
  exact ⟨made, follows made tracks fresh (kept.2 ▸ sound')⟩

variable [TextRasterizer ρ] {s s' : Session σ ρ}

/-- Whatever happens, a session that is not stale tracks its commit. -/
theorem Act.tracks (act : s.Act s') (sound : s.composition.Sound)
    (sound' : s'.composition.Sound)
    (h : s.stale = false → ∃ made, s.Tracks made) :
    s'.stale = false → ∃ made, s'.Tracks made := by
  have rest : ∀ {s' : Session σ ρ}, s.Rests s' →
      s'.stale = false → ∃ made, s'.Tracks made := by
    intro s' rests fresh
    obtain ⟨made, tracks⟩ := h (rests.stale.symm.trans fresh)
    exact ⟨made, tracks.rests rests sound⟩
  cases act with
  | rebuild force =>
    cases eq : s.rebuild force with
    | mk result s'' =>
      have final : (s.rebuild force).2 = s'' := by rw [eq]
      cases rebuilt_of_rebuild eq with
      | skipped => exact h
      | refused e events engine quiet same =>
        exact rest (rests_asked quiet same)
      | committed events engine quiet same s'' fed =>
        intro _
        obtain ⟨quiet, engine, -, same, -, adopts, -⟩ :=
          rebuild_eq_syncTextures (congrArg Prod.fst eq) rfl
        show ∃ made, s''.Tracks made
        rw [← final, adopts]
        exact ⟨_, (tracks_adopted s quiet same sound).rests
          (rests_syncTextures _) sound⟩
  | trial text =>
    obtain ⟨events, engine, quiet, same, accepted | ⟨e, refused⟩⟩ :=
      compileText_cases text s
    · unfold tryCompile
      rw [accepted]
      exact nofun
    · unfold tryCompile
      rw [refused]
      exact rest (rests_asked quiet same)
  | patch id patch =>
    exact tracks_updating (Composition.patchParams id patch)
      (fed_followParams id patch) h sound' fun _ tracks fresh changed =>
        tracks.updateParams fresh sound id patch changed
  | opacity id opacity =>
    exact tracks_updating (Composition.setOpacity id opacity)
      (fed_followOpacity id opacity) h sound' fun _ tracks fresh changed =>
        tracks.updateOpacity fresh sound id opacity changed
  | offset id offset =>
    exact tracks_updating (Composition.setOffset id offset)
      (fed_followOffset id offset) h sound' fun _ tracks fresh changed =>
        tracks.updateOffset fresh sound id offset changed
  | video => exact rest (rests_refreshVideo s)
  | relabel composition relabels =>
    intro fresh
    obtain ⟨made, tracks⟩ := h fresh
    exact ⟨made, tracks.relabel relabels sound'⟩
  | revise => exact nofun
  | notify reason =>
    refine rest ⟨rfl, rfl, rfl, rfl, .refl _, [.notify reason], rfl, ?_⟩
    exact List.forall_mem_singleton.mpr trivial
  | drift engine same =>
    refine rest ⟨rfl, rfl, rfl, rfl, same, [], ?_, List.forall_mem_nil _⟩
    exact (List.append_nil _).symm

end Session

end Compositing
