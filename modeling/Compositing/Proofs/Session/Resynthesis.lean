/-
Compositing.Proofs.Session.Resynthesis — what is pushed for an opacity or
an offset is what synthesis would write.

A session whose step map was built over a graph that was laid out in order
stays `BoundTo` that graph until it is stale: every invocation of the
program of its layers has the step at its position. Setting an opacity then
pushes one parameter for a visible layer and nothing for a hidden one, and
so does setting the offset of media and texts. The program of the layers
afterwards issues the pushed value at the same step, its text spells what
it issues, and it invokes what it invoked before (`FollowsOpacity`,
`FollowsOffset`).
-/
import Compositing.Proofs.Pipeline.Binding
import Compositing.Proofs.Program.Written
import Compositing.Proofs.Workspace.Skipped

namespace Compositing

open Json (Value)

/-! ## Steps and what is issued to them -/

/-- In this role the program issues to a step this value of a parameter, if
invocations and passes belong together by position. -/
def Program.IssuesTo (p : Program) (g : PipelineGraph) (role : Role)
    (step : Nat) (key : String) (value : Value) : Prop :=
  ∃ (k : Nat) (pass : Pass) (given : Params),
    p.issued[k]? = some ({ effect := pass.effect, role := role }, given) ∧
      g.passes[k]? = some pass ∧ pass.step = step ∧
      given.get? key = some value

/-- What a program issues, it issues to the step that is bound. -/
theorem StepMap.LaidOut.issuesTo {p : Program} {g : PipelineGraph}
    (h : LaidOut p g)
    (nodup : (p.invocations.filterMap (·.role.slot?)).Nodup)
    {inv : Invocation} {given : Params} (mem : (inv, given) ∈ p.issued)
    {slot : Slot} (fills : inv.role.slot? = some slot) {key : String}
    {value : Value} (gives : given.get? key = some value) :
    ∃ step, (build p g).at? slot = some step ∧
      p.IssuesTo g inv.role step key value := by
  obtain ⟨k, at_k⟩ := List.mem_iff_getElem?.mp mem
  have at_inv : p.invocations[k]? = some inv := by
    rw [← p.map_fst_issued, List.getElem?_map, at_k]
    rfl
  obtain ⟨pass, at_pass⟩ := h.exists_pass at_inv
  refine ⟨pass.step, h.at?_build nodup at_inv at_pass fills, k, pass, given,
    ?_, at_pass, rfl, gives⟩
  rw [at_k, h.effect_eq at_inv at_pass]

namespace Session

variable {σ ρ : Type}

/-- The step at a place, unless the map is stale. -/
def stepAt? (s : Session σ ρ) (slot : Slot) : Option Nat :=
  s.stepMap?.bind (·.at? slot)

/-- The step map was built over a graph that is laid out for the program of
the layers, whatever is published. -/
structure BoundTo (s : Session σ ρ) (g : PipelineGraph) : Prop where
  coherent : s.stack.Coherent
  distinct : (s.layers.flatMap Layer.ids).Nodup
  laidOut : ∀ catalog, StepMap.LaidOut
    (Program.ofLayers catalog s.config.defaultGenerator s.layers) g
  map : ∀ catalog, s.stepMap? = some (StepMap.build
    (Program.ofLayers catalog s.config.defaultGenerator s.layers) g)

/-- A change that keeps the skeleton of the layers leaves it so. -/
theorem BoundTo.touched {s : Session σ ρ} {g : PipelineGraph}
    (h : s.BoundTo g) {c : Composition} (coherent : c.stack.Coherent)
    (distinct : (c.layers.flatMap Layer.ids).Nodup)
    (skel : skeleton c.layers = skeleton s.layers) :
    BoundTo { s with composition := c } g := by
  have same : ∀ catalog,
      (Program.ofLayers catalog s.config.defaultGenerator
          c.layers).invocations =
        (Program.ofLayers catalog s.config.defaultGenerator
          s.layers).invocations :=
    fun catalog => Program.invocations_of_skeleton_eq catalog _ skel
  refine ⟨coherent, distinct, fun catalog => ⟨?_, (h.laidOut catalog).steps⟩,
    fun catalog => ?_⟩
  · exact (h.laidOut catalog).effects.trans
      (congrArg (List.map (·.effect)) (same catalog).symm)
  · exact (h.map catalog).trans
      (congrArg some (StepMap.build_congr (same catalog).symm g))

/-- What the program of the layers issues, it issues to the step that the
session has. -/
theorem BoundTo.issuesTo {s : Session σ ρ} {g : PipelineGraph}
    (h : s.BoundTo g) {catalog : Catalog} {inv : Invocation} {given : Params}
    (mem : (inv, given) ∈ (Program.ofLayers catalog
      s.config.defaultGenerator s.layers).issued) {slot : Slot}
    (fills : inv.role.slot? = some slot) {key : String} {value : Value}
    (gives : given.get? key = some value) :
    ∃ step, s.stepAt? slot = some step ∧
      (Program.ofLayers catalog s.config.defaultGenerator
        s.layers).IssuesTo g inv.role step key value := by
  have nodup := nodup_slots
    (StepMap.nodup_shown catalog s.config.defaultGenerator h.distinct)
    (StepMap.nodup_blended catalog s.config.defaultGenerator h.distinct)
  obtain ⟨step, mapped, issues⟩ :=
    (h.laidOut catalog).issuesTo nodup mem fills gives
  refine ⟨step, ?_, issues⟩
  rw [stepAt?, h.map catalog]
  exact mapped

/-! ## One layer edited -/

/-- The session with one layer changed in place. -/
def edited (s : Session σ ρ) (id : LayerId) (f : Layer → Layer) :
    Session σ ρ :=
  { s with
    composition :=
      { s.composition with stack := s.stack.modify id f } }

section

variable {s : Session σ ρ} {g : PipelineGraph} (h : s.BoundTo g)
  {f : Layer → Layer} (skel : ∀ l, (f l).skeleton = l.skeleton)

include h skel

theorem BoundTo.edited (id : LayerId) : (s.edited id f).BoundTo g := by
  have same_id : ∀ l, (f l).id = l.id := fun l => congrArg (·.id) (skel l)
  have same_ids : ∀ l, (f l).ids = l.ids := by
    intro l
    have view : ∀ l : Layer, l.ids =
        l.skeleton.id :: l.skeleton.children.map (·.id) := by
      intro l
      rw [Layer.skeleton, List.map_map]
      rfl
    rw [view, view, skel]
  refine h.touched (h.coherent.modify same_id) ?_
    (skeleton_toList_modify s.stack id skel)
  show ((s.stack.modify id f).toList.flatMap Layer.ids).Nodup
  rw [List.flatMap_def, map_toList_modify s.stack id same_ids,
    ← List.flatMap_def]
  exact h.distinct

theorem BoundTo.layers_edited (id : LayerId) :
    (s.edited id f).layers =
      s.layers.map fun l => if l.id = id then f l else l :=
  LayerStack.toList_modify h.coherent fun l => congrArg (·.id) (skel l)

theorem BoundTo.mem_edited {l : Layer} (mem : l ∈ s.layers) :
    f l ∈ (s.edited l.id f).layers := by
  rw [h.layers_edited skel]
  exact List.mem_map.mpr ⟨l, mem, if_pos rfl⟩

end

/-- Whether a layer is a flat base is a matter of the skeleton. -/
theorem isFlatBase_edited_iff (s : Session σ ρ) {f : Layer → Layer}
    (skel : ∀ l, (f l).skeleton = l.skeleton) (l : Layer) :
    Program.IsFlatBase s.config.defaultGenerator
        ((s.edited l.id f).layers.filter (·.visible)) (f l) ↔
      Program.IsFlatBase s.config.defaultGenerator
        (s.layers.filter (·.visible)) l := by
  have base : ∀ layers : List Layer,
      (layers.filter (·.visible)).head?.map (·.id) =
        ((skeleton layers).filter (·.visible)).head?.map (·.id) := by
    intro layers
    rw [skeleton, List.filter_map, List.head?_map, Option.map_map]
    rfl
  have same : skeleton (s.edited l.id f).layers = skeleton s.layers :=
    skeleton_toList_modify s.stack l.id skel
  have same_id : (f l).id = l.id := congrArg (·.id) (skel l)
  have source : (f l).source = l.source := congrArg (·.source) (skel l)
  rw [Program.IsFlatBase, Program.IsFlatBase, base, base, same, same_id,
    Program.IsFlat, Program.IsFlat, Layer.effectOr, Layer.effectOr, source]

/-- An edit that keeps the skeleton leaves what is invoked. -/
theorem invocations_edited (s : Session σ ρ) {f : Layer → Layer}
    (skel : ∀ l, (f l).skeleton = l.skeleton) (id : LayerId)
    (catalog : Catalog) (fallback : EffectId) :
    (Program.ofLayers catalog fallback (s.edited id f).layers).invocations =
      (Program.ofLayers catalog fallback s.layers).invocations :=
  Program.invocations_of_skeleton_eq catalog fallback
    (skeleton_toList_modify s.stack id skel)

/-- An edit of a layer that is there is accepted. -/
theorem BoundTo.touch_editLayer {s : Session σ ρ} {g : PipelineGraph}
    (h : s.BoundTo g) {l : Layer} (mem : l ∈ s.layers) (f : Layer → Layer) :
    s.touch (Composition.editLayer l.id f) = (.ok (), s.edited l.id f) := by
  have found : s.composition.stack.get? l.id = some l :=
    h.coherent.get?_of_mem_toList mem
  rw [touch, Composition.editLayer, found]
  rfl

/-- Nothing that is hidden is a flat base. -/
theorem solidBaseAlpha?_of_hidden {s : Session σ ρ}
    (distinct : (s.layers.flatMap Layer.ids).Nodup) {l : Layer}
    (mem : l ∈ s.layers) (hidden : l.visible = false) :
    s.solidBaseAlpha? l.id = none := by
  unfold solidBaseAlpha?
  split
  · rename_i base found
    rw [if_neg]
    rintro ⟨same, -⟩
    obtain rfl := eq_of_mem_ids distinct mem (List.mem_of_find?_eq_some found)
      (id_mem_ids l) (same ▸ id_mem_ids base)
    have visible : l.visible = true :=
      List.find?_some (p := fun l : Layer => l.visible) found
    rw [hidden] at visible
    cases visible
  · rfl

/-! ## Pushes -/

section

variable [EffectEngine σ] {s : Session σ ρ} {id : LayerId} {opacity : Float}

theorem followOpacity_of_none (unmapped : (s.opacityPatch id opacity).1 = none) :
    followOpacity id opacity s = (.ok false, s) := by
  unfold followOpacity
  split
  · rfl
  · rename_i patch
    rw [patch] at unmapped
    cases unmapped

theorem followOpacity_of_some {step : Nat} {params : Params}
    (mapped : s.opacityPatch id opacity = (some step, params)) :
    followOpacity id opacity s =
      (.ok (s.push step params).1, (s.push step params).2) := by
  rw [followOpacity, mapped]

theorem layers_followOpacity (id : LayerId) (opacity : Float)
    (s : Session σ ρ) : (followOpacity id opacity s).2.layers = s.layers := by
  unfold followOpacity
  split <;> rfl

theorem followOffset_of_none {offset : Offset}
    (unmapped : s.followsOffset id = true → s.step? id = none) :
    followOffset id offset s = (.ok false, s) := by
  unfold followOffset
  cases follows : s.followsOffset id with
  | false => rfl
  | true => rw [if_pos rfl, unmapped follows]

theorem followOffset_of_some {offset : Offset} {step : Nat}
    (follows : s.followsOffset id = true)
    (mapped : s.step? id = some step) :
    followOffset id offset s =
      let params := Params.empty.insertPair "offset" offset.x offset.y
      (.ok (s.push step params).1, (s.push step params).2) := by
  rw [followOffset, if_pos follows, mapped]

theorem layers_followOffset (id : LayerId) (offset : Offset)
    (s : Session σ ρ) : (followOffset id offset s).2.layers = s.layers := by
  unfold followOffset
  split <;> rfl

end

/-- An update pushes nothing. -/
def PushesNothing (s : Session σ ρ)
    (outcome : Except Error Bool × Session σ ρ) : Prop :=
  outcome.1 = .ok false ∧ outcome.2.journal = s.journal

/-- An update pushes exactly one parameter. -/
def PushesOnly (s : Session σ ρ) (outcome : Except Error Bool × Session σ ρ)
    (step : Nat) (key : String) (value : Value) : Prop :=
  ∃ (pushed : Params) (taken : Bool), pushed.entries = [(key, value)] ∧
    outcome.1 = .ok taken ∧
    outcome.2.journal = s.journal ++ [.push [(step, pushed)] taken]

/-- The update pushes one parameter to the step of the invocation in this
role, and the program of the layers afterwards issues that value there. -/
def PushesAsIssued (s : Session σ ρ) (g : PipelineGraph) (catalog : Catalog)
    (outcome : Except Error Bool × Session σ ρ) (role : Role)
    (key : String) : Prop :=
  ∃ (step : Nat) (value : Value), role.slot?.bind s.stepAt? = some step ∧
    s.PushesOnly outcome step key value ∧
    (Program.ofLayers catalog s.config.defaultGenerator
      outcome.2.layers).IssuesTo g role step key value

/-- What follows from setting the opacity of a layer. -/
structure FollowsOpacity [EffectEngine σ] (s : Session σ ρ)
    (g : PipelineGraph) (l : Layer) (opacity : Float) : Prop where
  stored : (s.updateOpacity l.id opacity).2.layers = s.layers.map fun x =>
    if x.id = l.id then { x with opacity := clampOpacity opacity } else x
  hidden : l.visible = false → s.PushesNothing (s.updateOpacity l.id opacity)
  /-- A flat base takes up the opacity in its alpha. -/
  flat : l.visible = true →
    Program.IsFlatBase s.config.defaultGenerator
        (s.layers.filter (·.visible)) l →
      ∀ catalog, s.PushesAsIssued g catalog
        (s.updateOpacity l.id opacity) (.layer l.id) "a"
  /-- Any other visible layer is blended by it. -/
  blended : l.visible = true →
    ¬ Program.IsFlatBase s.config.defaultGenerator
        (s.layers.filter (·.visible)) l →
      ∀ catalog, s.PushesAsIssued g catalog
        (s.updateOpacity l.id opacity) (.blend l.id) "amount"
  invocations : ∀ catalog,
    (Program.ofLayers catalog s.config.defaultGenerator
        (s.updateOpacity l.id opacity).2.layers).invocations =
      (Program.ofLayers catalog s.config.defaultGenerator
        s.layers).invocations
  /-- What is issued is what the text says. -/
  spelled : ∀ catalog,
    let p := Program.ofLayers catalog s.config.defaultGenerator
      (s.updateOpacity l.id opacity).2.layers
    Program.Spells p.body p.issued

/-- What follows from setting the offset of a layer that is not locked. -/
structure FollowsOffset [EffectEngine σ] (s : Session σ ρ)
    (g : PipelineGraph) (l : Layer) (offset : Offset) : Prop where
  stored : (s.updateOffset l.id offset).2.layers = s.layers.map fun x =>
    if x.id = l.id then { x with offset := offset } else x
  /-- Visible media and texts are moved. -/
  moved : l.visible = true →
    (s.catalog.classify
        (l.effectOr s.config.defaultGenerator)).hasOffset = true →
      s.PushesAsIssued g s.catalog (s.updateOffset l.id offset)
        (.layer l.id) "offset"
  /-- Nothing else is. -/
  unmoved : ¬ (l.visible = true ∧ (s.catalog.classify
        (l.effectOr s.config.defaultGenerator)).hasOffset = true) →
    s.PushesNothing (s.updateOffset l.id offset)
  invocations : ∀ catalog,
    (Program.ofLayers catalog s.config.defaultGenerator
        (s.updateOffset l.id offset).2.layers).invocations =
      (Program.ofLayers catalog s.config.defaultGenerator
        s.layers).invocations
  /-- What is issued is what the text says. -/
  spelled : ∀ catalog,
    let p := Program.ofLayers catalog s.config.defaultGenerator
      (s.updateOffset l.id offset).2.layers
    Program.Spells p.body p.issued

section

variable [EffectEngine σ] {s : Session σ ρ} {g : PipelineGraph}
  (h : s.BoundTo g)

include h

/-- A hidden layer has no steps. -/
theorem BoundTo.step?_of_hidden {l : Layer} (mem : l ∈ s.layers)
    (hidden : l.visible = false) :
    s.step? l.id = none ∧ s.blendStep? l.id = none := by
  have laidOut := h.laidOut s.catalog
  have own := id_mem_ids l
  rw [step?, blendStep?, h.map s.catalog]
  exact ⟨StepMap.step?_of_hidden h.distinct laidOut mem own hidden,
    StepMap.blendStep?_eq_none h.distinct laidOut mem own fun _ => hidden⟩

/-- What is pushed after an edit of one layer, as the program of the layers
afterwards issues it. -/
theorem BoundTo.pushesAsIssued {f : Layer → Layer}
    (skel : ∀ l, (f l).skeleton = l.skeleton) {id : LayerId}
    {catalog : Catalog} {inv : Invocation} {given : Params}
    (mem : (inv, given) ∈ (Program.ofLayers catalog
      s.config.defaultGenerator (s.edited id f).layers).issued)
    {slot : Slot} (fills : inv.role.slot? = some slot) {key : String}
    {value : Value} (gives : given.get? key = some value) {params : Params}
    (single : params.entries = [(key, value)])
    {outcome : Except Error Bool × Session σ ρ}
    (push : ∀ step, s.stepAt? slot = some step →
      outcome = (.ok ((s.edited id f).push step params).1,
        ((s.edited id f).push step params).2)) :
    s.PushesAsIssued g catalog outcome inv.role key := by
  obtain ⟨step, mapped, issues⟩ :=
    (h.edited skel id).issuesTo mem fills gives
  have mapped : s.stepAt? slot = some step := mapped
  rw [push step mapped]
  refine ⟨step, value, ?_, ⟨params, _, single, rfl, rfl⟩, issues⟩
  rw [fills]
  exact mapped

omit [EffectEngine σ] in
/-- The call of a visible layer's own effect is issued after the edit. -/
theorem BoundTo.ownCall_mem_issued {f : Layer → Layer}
    (skel : ∀ l, (f l).skeleton = l.skeleton) {l : Layer}
    (mem : l ∈ s.layers) (visible : l.visible = true) (catalog : Catalog) :
    let call := Program.ownCall catalog s.config.defaultGenerator
      ((s.edited l.id f).layers.filter (·.visible)) (f l)
    (call.invocation, call.params) ∈ (Program.ofLayers catalog
        s.config.defaultGenerator (s.edited l.id f).layers).issued ∧
      call.role = .layer l.id := by
  intro call
  have same_id : (f l).id = l.id := congrArg (·.id) (skel l)
  have same_visible : (f l).visible = l.visible :=
    congrArg (·.visible) (skel l)
  have shown : f l ∈ (s.edited l.id f).layers.filter (·.visible) :=
    List.mem_filter.mpr
      ⟨h.mem_edited skel mem, same_visible.trans visible⟩
  have distinct := (h.edited skel l.id).distinct
  have shows : (Program.ofLayers catalog s.config.defaultGenerator
      (s.edited l.id f).layers).Shows l.id call :=
    (Program.shows_ofLayers_iff catalog _ distinct).mpr
      ⟨f l, shown, .inl ⟨same_id, rfl⟩⟩
  refine ⟨shows.mem_issued, ?_⟩
  rw [← same_id]
  exact Program.role_ownCall catalog _ _ (f l)

/-- Setting an opacity pushes what synthesis would write. -/
theorem BoundTo.followsOpacity {l : Layer} (mem : l ∈ s.layers)
    (opacity : Float) : s.FollowsOpacity g l opacity := by
  let f : Layer → Layer := fun l => { l with opacity := clampOpacity opacity }
  have skel : ∀ l, (f l).skeleton = l.skeleton := fun _ => rfl
  let next := s.edited l.id f
  have bound : next.BoundTo g := h.edited skel l.id
  have mem' : f l ∈ next.layers := h.mem_edited skel mem
  have run : s.updateOpacity l.id opacity =
      followOpacity l.id opacity next := by
    have touched : s.touch (Composition.setOpacity l.id opacity) =
        (.ok (), next) := h.touch_editLayer mem f
    rw [updateOpacity_eq, updating, touched]
  have layers : (s.updateOpacity l.id opacity).2.layers = next.layers := by
    rw [run]
    exact layers_followOpacity l.id opacity next
  constructor
  case stored => exact layers.trans (h.layers_edited skel l.id)
  case hidden =>
    intro hidden
    have unbaked : next.solidBaseAlpha? l.id = none :=
      (solidBaseAlpha?_of_hidden bound.distinct mem' hidden :)
    have unmapped : next.blendStep? l.id = none :=
      (h.step?_of_hidden mem hidden).2
    rw [run, followOpacity_of_none (by rw [opacityPatch, unbaked, unmapped])]
    exact ⟨rfl, rfl⟩
  case flat =>
    intro visible flat catalog
    have flat := (isFlatBase_edited_iff s skel l).mpr flat
    have baked : next.solidBaseAlpha? l.id = some (f l).bakedAlpha :=
      (solidBaseAlpha?_of_layer bound.distinct
        (List.mem_filter.mpr ⟨mem', visible⟩)).trans (if_pos flat)
    obtain ⟨issued, role⟩ := h.ownCall_mem_issued skel mem visible catalog
    have gives := Program.get?_ownCall catalog s.config.defaultGenerator
      (next.layers.filter (·.visible)) (f l) "a"
    rw [if_pos flat, if_pos rfl] at gives
    have single : (Params.empty.insertFloat "a" (f l).bakedAlpha).entries =
        [("a", .ofFloat (f l).bakedAlpha)] := rfl
    rw [← role]
    refine h.pushesAsIssued skel issued (congrArg Role.slot? role) gives
      single fun step mapped => ?_
    have mapped : next.step? l.id = some step := mapped
    rw [run]
    exact followOpacity_of_some (by rw [opacityPatch, baked, mapped])
  case blended =>
    intro visible unflat catalog
    have unflat := mt (isFlatBase_edited_iff s skel l).mp unflat
    have shown : f l ∈ next.layers.filter (·.visible) :=
      List.mem_filter.mpr ⟨mem', visible⟩
    have unbaked : next.solidBaseAlpha? l.id = none :=
      (solidBaseAlpha?_of_layer bound.distinct shown).trans (if_neg unflat)
    have blended : f l ∈ Program.blendedLayers s.config.defaultGenerator
        (next.layers.filter (·.visible)) := by
      refine (StepMap.mem_blendedLayers_iff bound.distinct).mpr
        ⟨mem', visible, ?_⟩
      rintro ⟨base, solid⟩
      exact unflat ⟨congrArg (Option.map (·.id)) base, solid⟩
    have issued := Program.mix_mem_issued catalog blended
    let weight := Params.empty.insertFloat "amount" (blendWeight opacity)
    have same : (Program.mixOf (f l)).params = weight :=
      congrArg (Params.empty.insertFloat "amount")
        (blendWeight_clampOpacity opacity)
    have gives : (Program.mixOf (f l)).params.get? "amount" =
        some (.ofFloat (blendWeight opacity)) := by
      rw [same, Params.get?_insertFloat, if_pos rfl]
    have single : weight.entries =
        [("amount", .ofFloat (blendWeight opacity))] := rfl
    refine h.pushesAsIssued skel issued rfl gives single
      fun step mapped => ?_
    have mapped : next.blendStep? l.id = some step := mapped
    rw [run]
    exact followOpacity_of_some (by rw [opacityPatch, unbaked, mapped])
  case invocations =>
    intro catalog
    rw [layers]
    exact invocations_edited s skel l.id catalog _
  case spelled => exact fun catalog => Program.spells_ofLayers catalog _ _

/-- Setting the offset of a layer that is not locked pushes what synthesis
would write. -/
theorem BoundTo.followsOffset {l : Layer} (mem : l ∈ s.layers)
    (unlocked : l.locked = false) (offset : Offset) :
    s.FollowsOffset g l offset := by
  let f : Layer → Layer := fun l => { l with offset := offset }
  have skel : ∀ l, (f l).skeleton = l.skeleton := fun _ => rfl
  let next := s.edited l.id f
  have bound : next.BoundTo g := h.edited skel l.id
  have mem' : f l ∈ next.layers := h.mem_edited skel mem
  have run : s.updateOffset l.id offset = followOffset l.id offset next := by
    have touched : s.touch (Composition.setOffset l.id offset) =
        (.ok (), next) := by
      have found : s.composition.stack.get? l.id = some l :=
        h.coherent.get?_of_mem_toList mem
      rw [← h.touch_editLayer mem f]
      simp only [touch, Composition.setOffset, found, unlocked,
        Bool.false_eq_true, if_false]
      rfl
    rw [updateOffset_eq, updating, touched]
  have layers : (s.updateOffset l.id offset).2.layers = next.layers := by
    rw [run]
    exact layers_followOffset l.id offset next
  have follows : next.followsOffset l.id =
      (s.catalog.classify
        (l.effectOr s.config.defaultGenerator)).hasOffset := by
    have found : next.stack.get? l.id = some (f l) :=
      (bound.coherent.get?_of_mem_toList mem' :)
    rw [Session.followsOffset, found]
    rfl
  constructor
  case stored => exact layers.trans (h.layers_edited skel l.id)
  case unmoved =>
    intro unmoved
    have unmapped : next.followsOffset l.id = true →
        next.step? l.id = none := by
      intro hasOffset
      rw [follows] at hasOffset
      have hidden : l.visible = false := by
        cases visible : l.visible with
        | false => rfl
        | true => exact absurd ⟨visible, hasOffset⟩ unmoved
      exact (h.step?_of_hidden mem hidden).1
    rw [run, followOffset_of_none unmapped]
    exact ⟨rfl, rfl⟩
  case moved =>
    intro visible hasOffset
    obtain ⟨issued, role⟩ :=
      h.ownCall_mem_issued skel mem visible s.catalog
    have unflat : ¬ Program.IsFlatBase s.config.defaultGenerator
        (next.layers.filter (·.visible)) (f l) := by
      intro flat
      have solid : s.catalog.classify
          (l.effectOr s.config.defaultGenerator) = .solid :=
        (Program.classify_eq_solid_iff s.catalog _).mpr flat.2
      rw [solid] at hasOffset
      cases hasOffset
    have gives := Program.get?_ownCall s.catalog s.config.defaultGenerator
      (next.layers.filter (·.visible)) (f l) "offset"
    rw [if_neg unflat, if_pos ⟨hasOffset, rfl⟩] at gives
    have single :
        (Params.empty.insertPair "offset" offset.x offset.y).entries =
          [("offset", .arr [.ofFloat offset.x, .ofFloat offset.y])] := rfl
    rw [← role]
    refine h.pushesAsIssued skel issued (congrArg Role.slot? role) gives
      single fun step mapped => ?_
    have mapped : next.step? l.id = some step := mapped
    rw [run]
    exact followOffset_of_some (follows.trans hasOffset) mapped
  case invocations =>
    intro catalog
    rw [layers]
    exact invocations_edited s skel l.id catalog _
  case spelled => exact fun catalog => Program.spells_ofLayers catalog _ _

end

/-! ## Sessions in step -/

section

variable [EffectEngine σ] {s s' : Session σ ρ}

/-- Unless it is stale, the session is in step with a commit whose program
invokes what that of the layers does. -/
def Invokes (s : Session σ ρ) : Prop :=
  s.stale = false → ∃ made, s.InStep made ∧ ∀ catalog,
    made.program.invocations =
      (Program.ofLayers catalog s.config.defaultGenerator
        s.layers).invocations

/-- Every move keeps it so. -/
theorem Invokes.move (h : s.Invokes) (move : s.Move s') : s'.Invokes := by
  intro fresh
  cases move with
  | ask events engine quiet same =>
    obtain ⟨made, inStep, invokes⟩ := h fresh
    exact ⟨made, inStep.of_idle rfl (Event.acceptedTexts_of_quiet quiet)
      (Event.commits_of_quiet quiet) rfl rfl same rfl, invokes⟩
  | feed s' current fed =>
    obtain ⟨made, inStep, invokes⟩ := h (stale_of_isSome_stepMap? current)
    refine ⟨made, inStep.fed fed, ?_⟩
    cases fed
    exact invokes
  | trial => cases fresh
  | commit events engine quiet same =>
    refine ⟨_, .adopted s events same, fun catalog => ?_⟩
    exact (Program.invocations_ofLayers _ _ _).trans
      (Program.invocations_ofLayers _ _ _).symm
  | touch composition retains =>
    obtain ⟨made, inStep, invokes⟩ := h fresh
    refine ⟨made, inStep.of_idle (List.append_nil _).symm rfl rfl rfl
      retains.skeleton (.refl _) rfl, fun catalog => ?_⟩
    exact (invokes catalog).trans
      (Program.invocations_of_skeleton_eq catalog _ retains.skeleton).symm
  | edit => cases fresh

theorem Moves.invokes (moves : s.Moves s') (h : s.Invokes) : s'.Invokes := by
  induction moves with
  | refl => exact h
  | tail _ move ih => exact ih.move move

/-- A session in step with a commit that was laid out in order is bound to
its graph. -/
theorem Invokes.boundTo (h : s.Invokes) (fresh : s.stale = false)
    (sound : s.composition.Sound) {made : Commit} {g : PipelineGraph}
    (last : s.lastCommit? = some made) (graph : made.graph? = some g)
    (laidOut : StepMap.LaidOut made.program g) : s.BoundTo g := by
  obtain ⟨made', inStep, invokes⟩ := h fresh
  obtain rfl := Option.some.inj (last.symm.trans inStep.lastCommit)
  refine ⟨sound.stack.coherent, sound.stack.stackable.distinct,
    fun catalog => ⟨?_, laidOut.steps⟩, fun catalog => ?_⟩
  · exact laidOut.effects.trans
      (congrArg (List.map (·.effect)) (invokes catalog))
  · rw [stepMap?, fresh, inStep.compiled, Commit.stepMap, graph]
    exact congrArg some (StepMap.build_congr (invokes catalog) g)

end

end Session

namespace Workspace

variable {σ ρ : Type} [EffectEngine σ] [TextRasterizer ρ]

theorem Reachable.invokes {w : Workspace σ ρ} (h : w.Reachable) :
    w.session.Invokes := by
  obtain ⟨_, _, _, _, s, made, moves⟩ := h.exists_moves
  obtain ⟨_, _, _, _, stale, _⟩ := ofLayers_eq_ok made
  refine moves.invokes fun fresh => ?_
  rw [stale] at fresh
  cases fresh

/-- In a workspace whose last commit was laid out in order, setting the
opacity of a layer, or the offset of one that is not locked, pushes what
synthesis would write. -/
theorem Reachable.follows_opacity_and_offset {w : Workspace σ ρ}
    (h : w.Reachable) (stock : w.InStock) (fresh : w.session.stale = false)
    {made : Commit} {g : PipelineGraph}
    (last : w.session.lastCommit? = some made)
    (graph : made.graph? = some g)
    (laidOut : StepMap.LaidOut made.program g) :
    ∀ l ∈ w.session.layers,
      (∀ opacity, w.session.FollowsOpacity g l opacity) ∧
        (l.locked = false →
          ∀ offset, w.session.FollowsOffset g l offset) := by
  have bound := h.invokes.boundTo fresh (h.sound stock) last graph laidOut
  exact fun l mem => ⟨bound.followsOpacity mem, bound.followsOffset mem⟩

/-- An image over a transparent backdrop has a step of its own and one for
its blend. -/
theorem follows_opacity_and_offset_of_media :
    let w := ((simulated {} sizedLayers).run [.session (.rebuild false)]).2
    w.Reachable ∧ w.InStock ∧ w.session.stale = false ∧
      (∃ made, w.session.lastCommit? = some made ∧
        made.graph? = some blendedGraph ∧
        StepMap.LaidOut made.program blendedGraph) ∧
      (w.session.layers.map fun l => (l.id, l.visible, l.locked)) =
        [(.ofNat 1, true, false)] ∧
      ∀ l ∈ w.session.layers,
        (∀ opacity, w.session.FollowsOpacity blendedGraph l opacity) ∧
          (l.locked = false →
            ∀ offset, w.session.FollowsOffset blendedGraph l offset) := by
  intro w
  have reachable : w.Reachable :=
    (reachable_simulated {} stackable_sizedLayers).run _
  have state : w.InStock ∧ w.session.stale = false ∧
      (w.session.lastCommit?.map fun made =>
          (made.graph?, made.program.invocations.map (·.effect))) =
        some (some blendedGraph, blendedGraph.passes.map (·.effect)) ∧
      (w.session.layers.map fun l => (l.id, l.visible, l.locked)) =
        [(.ofNat 1, true, false)] := by
    decide +kernel
  obtain ⟨stock, fresh, committed, shown⟩ := state
  obtain ⟨made, last, graph, laidOut⟩ := exists_laidOut (by decide) committed
  exact ⟨reachable, stock, fresh, ⟨made, last, graph, laidOut⟩, shown,
    reachable.follows_opacity_and_offset stock fresh last graph laidOut⟩

end Workspace

end Compositing
