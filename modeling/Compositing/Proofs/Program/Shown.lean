/-
Compositing.Proofs.Program.Shown — by which call a layer or child effect
is shown.

Every visible layer and every visible child effect of one has one call in
the program, with its own parameters. Only two things are written over
them: a flat base gets its opacity in the alpha, and media and texts get
the offset of their layer (`shows_ofLayers_iff`, `get?_ownCall`).
-/
import Compositing.Proofs.Layer.Stackable
import Compositing.Proofs.Program.Calls
import Compositing.Proofs.Program.Invocations

namespace Compositing

/-! ## Parameters -/

namespace Params

theorem get?_insert (p : Params) (name : String) (value : Json.Value)
    (h : value.Ordered) (key : String) :
    (p.insert name value h).get? key =
      if key = name then some value else p.get? key := by
  simp only [get?, insert, Assoc.get?_insert, Assoc.compare_eq_iff]

theorem get?_insertFloat (p : Params) (name : String) (x : Float)
    (key : String) :
    (p.insertFloat name x).get? key =
      if key = name then some (.ofFloat x) else p.get? key :=
  p.get?_insert name _ _ key

theorem get?_insertPair (p : Params) (name : String) (x y : Float)
    (key : String) :
    (p.insertPair name x y).get? key =
      if key = name then some (.arr [.ofFloat x, .ofFloat y])
      else p.get? key :=
  p.get?_insert name _ _ key

/-- A patch wins over what was there. -/
theorem get?_extend (p patch : Params) (key : String) :
    (p.extend patch).get? key = (patch.get? key).or (p.get? key) :=
  Assoc.get?_insertAll key patch.entries p.entries
    (Assoc.Ascending.nodup_keys patch.ordered.1)

end Params

namespace Program

/-- The program shows a layer or child effect by this call. -/
def Shows (p : Program) (id : LayerId) (call : Call) : Prop :=
  call ∈ p.statements.flatMap Statement.calls ∧ call.role.shown? = some id

section

variable (catalog : Catalog) (fallback : EffectId)

/-! ## The calls of a stack -/

/-- The call of a flat base. -/
def bakedCall (l : Layer) : Call :=
  { effect := l.effectOr fallback
    params := bakedParams l
    role := .layer l.id }

/-- The layer is a flat base of the visible layers. -/
def IsFlatBase (visible : List Layer) (l : Layer) : Prop :=
  visible.head?.map (·.id) = some l.id ∧ IsFlat fallback l

instance (visible : List Layer) (l : Layer) :
    Decidable (IsFlatBase fallback visible l) :=
  inferInstanceAs (Decidable (_ ∧ _))

/-- The call of a layer's own effect among visible layers. -/
def ownCall (visible : List Layer) (l : Layer) : Call :=
  if IsFlatBase fallback visible l then bakedCall fallback l
  else layerCall catalog fallback l

/-- The calls by which a layer and its child effects are shown. -/
def shownCalls (visible : List Layer) (l : Layer) : List Call :=
  ownCall catalog fallback visible l :: l.visibleChildren.map (childCall l)

theorem calls_filterChain (l : Layer) (children : List ChildEffect) :
    ∀ b : Buffer, (filterChain l b children).flatMap Statement.calls =
      children.map (childCall l) := by
  induction children with
  | nil => intro b; rfl
  | cons c rest ih =>
    intro b
    rw [filterChain, List.flatMap_cons, ih]
    rfl

theorem calls_layerStatements (below : Buffer) (l : Layer) :
    (layerStatements catalog fallback below l).flatMap Statement.calls =
      layerCall catalog fallback l ::
        l.visibleChildren.map (childCall l) := by
  simp [layerStatements, Statement.calls, Content.calls, calls_filterChain]

theorem calls_upperStatements (layers : List Layer) :
    ∀ below : Buffer,
      (upperStatements catalog fallback below layers).flatMap
          Statement.calls =
        layers.flatMap fun l =>
          layerCall catalog fallback l ::
            l.visibleChildren.map (childCall l) := by
  induction layers with
  | nil => intro below; rfl
  | cons l rest ih =>
    intro below
    rw [upperStatements, List.flatMap_append, List.flatMap_cons,
      calls_layerStatements, ih]

theorem calls_baseStatements (l : Layer) :
    (baseStatements catalog fallback l).flatMap Statement.calls =
      if IsFlat fallback l then
        bakedCall fallback l :: l.visibleChildren.map (childCall l)
      else
        transparentCall .backdrop :: layerCall catalog fallback l ::
          l.visibleChildren.map (childCall l) := by
  unfold baseStatements
  by_cases flat : IsFlat fallback l
  · simp [flat, (classify_eq_solid_iff catalog _).mpr flat, Statement.calls,
      calls_filterChain, bakedCall]
  · simp [flat, mt (classify_eq_solid_iff catalog _).mp flat,
      Statement.calls, Content.calls]

/-- Among distinct identities only the lowest layer is the base. -/
theorem shownCalls_of_mem_rest {base l : Layer} {rest : List Layer}
    (nodup : ((base :: rest).map (·.id)).Nodup) (mem : l ∈ rest) :
    shownCalls catalog fallback (base :: rest) l =
      layerCall catalog fallback l ::
        l.visibleChildren.map (childCall l) := by
  have other : ¬ IsFlatBase fallback (base :: rest) l := by
    rintro ⟨same, -⟩
    refine (List.nodup_cons.mp nodup).1 ?_
    rw [Option.some.inj same]
    exact List.mem_map_of_mem mem
  rw [shownCalls, ownCall, if_neg other]

theorem calls_stackStatements {base : Layer} {rest : List Layer}
    (nodup : ((base :: rest).map (·.id)).Nodup) :
    (stackStatements catalog fallback (base :: rest)).flatMap
        Statement.calls =
      (if IsFlat fallback base then []
        else [transparentCall .backdrop]) ++
        (base :: rest).flatMap
          (shownCalls catalog fallback (base :: rest)) := by
  have above : rest.flatMap (shownCalls catalog fallback (base :: rest)) =
      rest.flatMap fun l =>
        layerCall catalog fallback l ::
          l.visibleChildren.map (childCall l) :=
    List.flatMap_congr fun l mem =>
      shownCalls_of_mem_rest catalog fallback nodup mem
  rw [stackStatements, List.flatMap_append, calls_baseStatements,
    calls_upperStatements, List.flatMap_cons, above]
  by_cases flat : IsFlat fallback base
  · simp [flat, shownCalls, ownCall, IsFlatBase]
  · simp [flat, shownCalls, ownCall, IsFlatBase]

theorem role_ownCall (visible : List Layer) (l : Layer) :
    (ownCall catalog fallback visible l).role = .layer l.id := by
  unfold ownCall
  split <;> rfl

/-- Which of a layer's calls shows what. -/
theorem mem_shownCalls_iff {visible : List Layer} {l : Layer} {id : LayerId}
    {call : Call} :
    call ∈ shownCalls catalog fallback visible l ∧
        call.role.shown? = some id ↔
      l.id = id ∧ call = ownCall catalog fallback visible l ∨
        ∃ c ∈ l.visibleChildren, c.id = id ∧ call = childCall l c := by
  constructor
  · rintro ⟨mem, shown⟩
    rcases List.mem_cons.mp mem with rfl | mem
    · rw [role_ownCall] at shown
      exact .inl ⟨Option.some.inj shown, rfl⟩
    · obtain ⟨c, own, rfl⟩ := List.mem_map.mp mem
      exact .inr ⟨c, own, Option.some.inj shown, rfl⟩
  · rintro (⟨rfl, rfl⟩ | ⟨c, mem, rfl, rfl⟩)
    · exact ⟨List.mem_cons_self, by rw [role_ownCall]; rfl⟩
    · exact ⟨List.mem_cons_of_mem _ (List.mem_map_of_mem mem), rfl⟩

/-- What shows a layer or child effect in the program of a stack. -/
theorem shows_ofLayers_iff {layers : List Layer}
    (distinct : (layers.flatMap Layer.ids).Nodup) {id : LayerId}
    {call : Call} :
    (ofLayers catalog fallback layers).Shows id call ↔
      ∃ l ∈ layers.filter (·.visible),
        l.id = id ∧ call = ownCall catalog fallback
            (layers.filter (·.visible)) l ∨
          ∃ c ∈ l.visibleChildren, c.id = id ∧ call = childCall l c := by
  have nodup : ((layers.filter (·.visible)).map (·.id)).Nodup :=
    (distinct.sublist (map_id_sublist_ids layers)).sublist
      (List.filter_sublist.map _)
  simp only [← mem_shownCalls_iff]
  unfold Shows ofLayers
  dsimp only
  cases visible : layers.filter (·.visible) with
  | nil =>
    have blank : ∀ call ∈ (stackStatements catalog fallback []).flatMap
        Statement.calls, call.role.shown? ≠ some id := by
      intro call mem
      obtain rfl := List.mem_singleton.mp mem
      exact nofun
    simpa using blank call
  | cons base rest =>
    rw [visible] at nodup
    rw [calls_stackStatements catalog fallback nodup, List.mem_append,
      List.mem_flatMap]
    constructor
    · rintro ⟨backdrop | ⟨l, mem, here⟩, shown⟩
      · split at backdrop
        · cases backdrop
        · rw [List.mem_singleton.mp backdrop] at shown
          cases shown
      · exact ⟨l, mem, here, shown⟩
    · rintro ⟨l, mem, here, shown⟩
      exact ⟨.inr ⟨l, mem, here⟩, shown⟩

/-- What the call of a layer's own effect says of a parameter. -/
theorem get?_ownCall (visible : List Layer) (l : Layer) (key : String) :
    (ownCall catalog fallback visible l).params.get? key =
      if IsFlatBase fallback visible l then
        if key = "a" then some (.ofFloat l.bakedAlpha) else l.params.get? key
      else if (catalog.classify (l.effectOr fallback)).hasOffset ∧
          key = "offset" then
        some (.arr [.ofFloat l.offset.x, .ofFloat l.offset.y])
      else l.params.get? key := by
  unfold ownCall
  by_cases flat : IsFlatBase fallback visible l
  · rw [if_pos flat, if_pos flat]
    exact l.params.get?_insertFloat "a" l.bakedAlpha key
  · rw [if_neg flat, if_neg flat, layerCall]
    unfold layerParams
    by_cases moved : (catalog.classify (l.effectOr fallback)).hasOffset = true
    · simp only [moved, if_true, true_and]
      exact l.params.get?_insertPair "offset" _ _ key
    · rw [if_neg moved, if_neg (mt And.left moved)]

end

end Program

end Compositing
