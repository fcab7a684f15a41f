/-
Compositing.Proofs.Program.Arguments — which parameters a program gives
to the steps that run it.

Every invocation of a program comes with parameters (`issued`), and over a
graph that was laid out in order the step of a layer or child effect is
given those of the call by which it is shown (`LaidOut.given?_eq`). What a
program `Gives` as one parameter hangs on little: a change of the layers
elsewhere does not change it, and only the offset of media and texts
depends on what the engine publishes (`gives_of_map`).
-/
import Compositing.Proofs.Layer.Skeleton
import Compositing.Proofs.Pipeline.Positional
import Compositing.Proofs.Program.Shown

namespace Compositing

namespace Program

/-! ## Parameters by position -/

/-- The parameters of a blend. Of its arguments only the weight is a value;
the mode is a word and the content a picture. -/
def Mix.params (mix : Mix) : Params :=
  Params.empty.insertFloat "amount" mix.weight

/-- What a statement invokes, with the parameters that it gives. -/
def Statement.issued : Statement → List (Invocation × Params)
  | .produce _ call _ => [(call.invocation, call.params)]
  | .blend _ mix content _ =>
    ({ effect := EffectId.blend, role := .blend mix.layer }, mix.params) ::
      content.calls.map fun call => (call.invocation, call.params)

/-- What the program invokes, with the parameters that it gives, in the
order of its text. -/
def issued (p : Program) : List (Invocation × Params) :=
  p.statements.flatMap Statement.issued

theorem map_fst_issued (p : Program) :
    p.issued.map Prod.fst = p.invocations := by
  rw [issued, List.map_flatMap]
  refine List.flatMap_congr fun s _ => ?_
  cases s with
  | produce => rfl
  | blend backdrop mix content target =>
    rw [Statement.issued, List.map_cons, List.map_map]
    rfl

/-- The call by which something is shown is issued with its
parameters. -/
theorem Shows.mem_issued {p : Program} {id : LayerId} {call : Call}
    (h : p.Shows id call) : (call.invocation, call.params) ∈ p.issued := by
  obtain ⟨s, mem, here⟩ := List.mem_flatMap.mp h.1
  refine List.mem_flatMap.mpr ⟨s, mem, ?_⟩
  cases s with
  | produce input call' target =>
    rw [List.mem_singleton.mp here]
    exact List.mem_singleton_self _
  | blend backdrop mix content target =>
    exact List.mem_cons_of_mem _ (List.mem_map_of_mem here)

section

variable (catalog : Catalog) {fallback : EffectId} {l : Layer}

theorem mix_mem_issued_upperStatements {layers : List Layer}
    (mem : l ∈ layers) :
    ∀ below : Buffer, (blendInvocation l, (mixOf l).params) ∈
      (upperStatements catalog fallback below layers).flatMap
        Statement.issued := by
  induction layers with
  | nil => cases mem
  | cons first rest ih =>
    intro below
    rw [upperStatements, List.flatMap_append, List.mem_append]
    rcases List.mem_cons.mp mem with rfl | mem
    · refine .inl ?_
      rw [layerStatements, List.flatMap_cons, List.flatMap_append]
      exact List.mem_append_right _
        (List.mem_append_right _ List.mem_cons_self)
    · exact .inr (ih mem _)

/-- Every blended layer's blend is issued with its weight. -/
theorem mix_mem_issued {visible : List Layer}
    (mem : l ∈ blendedLayers fallback visible) :
    (blendInvocation l, (mixOf l).params) ∈
      (stackStatements catalog fallback visible).flatMap
        Statement.issued := by
  cases visible with
  | nil => cases mem
  | cons base rest =>
    rw [stackStatements, List.flatMap_append, List.mem_append]
    by_cases flat : IsFlat fallback base
    · rw [blendedLayers, if_pos flat] at mem
      exact .inr (mix_mem_issued_upperStatements catalog mem _)
    · rw [blendedLayers, if_neg flat] at mem
      rcases List.mem_cons.mp mem with rfl | mem
      · refine .inl ?_
        unfold baseStatements
        rw [if_neg (mt (classify_eq_solid_iff catalog _).mp flat)]
        exact List.mem_append_right _
          (List.mem_append_left _ List.mem_cons_self)
      · exact .inr (mix_mem_issued_upperStatements catalog mem _)

end

end Program

/-- The parameters that a program gives to a step, if its invocations and
the passes belong together by position. -/
def PipelineGraph.given? (g : PipelineGraph) (p : Program) (step : Nat) :
    Option Params :=
  Assoc.get? step
    ((g.passes.map (·.step)).zip (p.issued.map Prod.snd))

/-- The step of what is shown is given the parameters of its call. -/
theorem StepMap.LaidOut.given?_eq {p : Program} {g : PipelineGraph}
    (h : LaidOut p g)
    (nodup : (p.invocations.filterMap (·.role.shown?)).Nodup)
    {id : LayerId} {step : Nat} (mapped : (build p g).step? id = some step)
    {call : Program.Call} (shows : p.Shows id call) :
    g.given? p step = some call.params := by
  obtain ⟨k, at_k⟩ := List.mem_iff_getElem?.mp shows.mem_issued
  have at_inv : p.invocations[k]? = some call.invocation := by
    rw [← p.map_fst_issued, List.getElem?_map, at_k]
    rfl
  have at_params : (p.issued.map Prod.snd)[k]? = some call.params := by
    rw [List.getElem?_map, at_k]
    rfl
  obtain ⟨pass, at_pass⟩ := h.exists_pass at_inv
  -- The position of the call is the one to which the step belongs.
  have own : (build p g).step? id = some pass.step := by
    rw [h.step?_eq]
    exact (h.get?_bound_iff nodup at_inv at_pass id).mpr shows.2
  obtain rfl := Option.some.inj (mapped.symm.trans own)
  have at_step : (g.passes.map (·.step))[k]? = some pass.step := by
    rw [List.getElem?_map, at_pass]
    rfl
  have lengths : (g.passes.map (·.step)).length ≤
      (p.issued.map Prod.snd).length := by
    rw [List.length_map, List.length_map, h.length_eq, ← p.map_fst_issued]
    exact Nat.le_of_eq (List.length_map _)
  refine Assoc.get?_of_mem ?_ (List.mem_iff_getElem?.mpr ⟨k, ?_⟩)
  · rw [List.map_fst_zip lengths]
    exact h.steps
  · exact List.getElem?_zip_eq_some.mpr ⟨at_step, at_params⟩

namespace Program

/-! ## The value of one parameter -/

/-- The program gives a layer or child effect this value of a
parameter. -/
def Gives (p : Program) (id : LayerId) (key : String) (value : Json.Value) :
    Prop :=
  ∃ call, p.Shows id call ∧ call.params.get? key = some value

variable {fallback : EffectId}

/-- What matters for a parameter in the call of a layer's own effect: of
the layer the parameter itself, for the alpha of a flat base the opacity,
and for the offset of media and texts the layer's offset. -/
theorem get?_ownCall_congr {catalog catalog' : Catalog}
    {visible visible' : List Layer} {l l' : Layer} {key : String}
    (base : visible'.head?.map (·.id) = visible.head?.map (·.id))
    (id : l'.id = l.id) (source : l'.source = l.source)
    (params : l'.params.get? key = l.params.get? key)
    (alpha : key = "a" → IsFlatBase fallback visible l →
      l'.opacity = l.opacity)
    (offset : key = "offset" → catalog' = catalog ∧
      ((catalog.classify (l.effectOr fallback)).hasOffset = true →
        l'.offset = l.offset)) :
    (ownCall catalog' fallback visible' l').params.get? key =
      (ownCall catalog fallback visible l).params.get? key := by
  have effect : l'.effectOr fallback = l.effectOr fallback := by
    rw [Layer.effectOr, Layer.effectOr, source]
  have flat : IsFlatBase fallback visible' l' ↔
      IsFlatBase fallback visible l := by
    rw [IsFlatBase, IsFlatBase, IsFlat, IsFlat, base, id, effect]
  rw [get?_ownCall, get?_ownCall, effect]
  simp only [flat]
  split
  · rename_i isFlat
    split
    · rename_i isAlpha
      subst isAlpha
      rw [Layer.bakedAlpha, Layer.bakedAlpha, params, alpha rfl isFlat]
    · exact params
  · by_cases isOffset : key = "offset"
    · obtain ⟨rfl, moved⟩ := offset isOffset
      split
      · rename_i both
        rw [moved both.1]
      · exact params
    · rw [if_neg fun both => isOffset both.2,
        if_neg fun both => isOffset both.2]
      exact params

/-- What the program of changed layers gives as a parameter, that of the
layers before gives too, if nothing that matters for it has changed. -/
theorem gives_of_map {catalog catalog' : Catalog} {layers : List Layer}
    {g : Layer → Layer} (distinct : (layers.flatMap Layer.ids).Nodup)
    (distinct' : ((layers.map g).flatMap Layer.ids).Nodup)
    (skeleton : ∀ l, (g l).skeleton = l.skeleton)
    {id : LayerId} {key : String} {value : Json.Value}
    (own : ∀ l ∈ layers.filter (·.visible), l.id = id →
      (g l).params.get? key = l.params.get? key ∧
        (key = "a" →
          IsFlatBase fallback (layers.filter (·.visible)) l →
            (g l).opacity = l.opacity) ∧
        (key = "offset" → catalog' = catalog ∧
          ((catalog.classify (l.effectOr fallback)).hasOffset = true →
            (g l).offset = l.offset)))
    (child : ∀ l ∈ layers, ∀ c' ∈ (g l).children, c'.id = id →
      ∃ c ∈ l.children, c.skeleton = c'.skeleton ∧
        c'.params.get? key = c.params.get? key)
    (gives : (ofLayers catalog' fallback (layers.map g)).Gives id key value) :
    (ofLayers catalog fallback layers).Gives id key value := by
  have visible : (layers.map g).filter (·.visible) =
      (layers.filter (·.visible)).map g := by
    rw [List.filter_map]
    refine congrArg (List.map g) (List.filter_congr fun l _ => ?_)
    exact congrArg (·.visible) (skeleton l)
  have base : ((layers.filter (·.visible)).map g).head?.map (·.id) =
      (layers.filter (·.visible)).head?.map (·.id) := by
    rw [List.head?_map, Option.map_map]
    refine congrArg (Option.map · _) (funext fun l => ?_)
    exact congrArg (·.id) (skeleton l)
  obtain ⟨call, shows, given⟩ := gives
  rw [shows_ofLayers_iff catalog' fallback distinct', visible] at shows
  unfold Gives
  simp only [shows_ofLayers_iff catalog fallback distinct]
  obtain ⟨_, changed, shown⟩ := shows
  obtain ⟨l, mem, rfl⟩ := List.mem_map.mp changed
  have same_id : (g l).id = l.id := congrArg (·.id) (skeleton l)
  rcases shown with ⟨same, rfl⟩ | ⟨c', mem', same, rfl⟩
  · obtain ⟨params, alpha, offset⟩ :=
      own l mem (same_id.symm.trans same)
    refine ⟨_, ⟨l, mem, .inl ⟨same_id.symm.trans same, rfl⟩⟩, ?_⟩
    rw [← given]
    exact (get?_ownCall_congr base same_id
      (congrArg (·.source) (skeleton l)) params alpha offset).symm
  · obtain ⟨mem', shown⟩ := List.mem_filter.mp mem'
    obtain ⟨c, mem_c, skel, params⟩ :=
      child l (List.mem_of_mem_filter mem) c' mem' same
    have shown : c.visible = true :=
      (congrArg (·.visible) skel).trans shown
    have same : c.id = id := (congrArg (·.id) skel).trans same
    refine ⟨_, ⟨l, mem, .inr ⟨c, List.mem_filter.mpr ⟨mem_c, shown⟩, same,
      rfl⟩⟩, ?_⟩
    exact params.symm.trans given

end Program

end Compositing
