/-
Compositing.Proofs.Session.Patches — what is pushed for a patch, and what
synthesis writes for it.

A patch of a layer or child effect with a step is applied to its
parameters and pushed. The program of the layers afterwards says the same
of every pushed parameter, with one exception: as the offset of media and
texts it has the offset of their layer, whatever was pushed
(`Agrees`). That exception is a patch which a rebuild undoes.
-/
import Compositing.Proofs.Layer.Refusals
import Compositing.Proofs.Program.Shown
import Compositing.Proofs.Session.Mapped
import Compositing.Proofs.Session.Updates
import Compositing.Proofs.Workspace.Simulated

namespace Compositing

/-! ## Patched parameters -/

/-- The layer or child effect of this identity has these parameters. -/
def HasParams (layers : List Layer) (id : LayerId) (params : Params) :
    Prop :=
  (∃ l ∈ layers, l.id = id ∧ l.params = params) ∨
    ∃ l ∈ layers, ∃ c ∈ l.children, c.id = id ∧ c.params = params

namespace HasParams

variable {layers : List Layer} {id : LayerId} {params : Params}

/-- No child effect has the identity of a layer. -/
theorem of_layer (distinct : (layers.flatMap Layer.ids).Nodup)
    (h : HasParams layers id params) {l : Layer} (mem : l ∈ layers)
    (own : l.id = id) : l.params = params := by
  subst own
  rcases h with ⟨l', mem', same, rfl⟩ | ⟨l', mem', c, child, same, rfl⟩
  · rw [eq_of_mem_ids distinct mem mem' (id_mem_ids l)
      (same ▸ id_mem_ids l')]
  · obtain rfl := eq_of_mem_ids distinct mem mem' (id_mem_ids l)
      (same ▸ child_id_mem_ids child)
    exact absurd same.symm (id_ne_child_id distinct mem child)

/-- No layer has the identity of a child effect. -/
theorem of_child (distinct : (layers.flatMap Layer.ids).Nodup)
    (h : HasParams layers id params) {l : Layer} (mem : l ∈ layers)
    {c : ChildEffect} (child : c ∈ l.children) (own : c.id = id) :
    c.params = params := by
  subst own
  rcases h with ⟨l', mem', same, rfl⟩ | ⟨l', mem', c', child', same, rfl⟩
  · obtain rfl := eq_of_mem_ids distinct mem mem' (child_id_mem_ids child)
      (same ▸ id_mem_ids l')
    exact absurd same (id_ne_child_id distinct mem child)
  · obtain rfl := eq_of_mem_ids distinct mem mem' (child_id_mem_ids child)
      (same ▸ child_id_mem_ids child')
    rw [eq_of_child_id_eq distinct mem child child' same.symm]

end HasParams

/-- An edited layer is among the layers afterwards. -/
theorem LayerStack.Coherent.mem_toList_modify {s : LayerStack}
    (h : s.Coherent) {id : LayerId} {l : Layer} (found : s.get? id = some l)
    (f : Layer → Layer) (keeps : ∀ l, (f l).id = l.id) :
    f l ∈ (s.modify id f).toList ∧ (f l).id = id := by
  refine (h.modify keeps).get?_eq_some_iff.mp ?_
  rw [LayerStack.get?_modify, if_pos rfl, found]
  rfl

namespace Composition

/-- A patch uses up no identities. -/
theorem ids_patchParams (id : LayerId) (patch : Params) (c : Composition) :
    (patchParams id patch c).2.ids = c.ids := by
  unfold patchParams editLayer editChild
  repeat' split
  all_goals rfl

/-- An accepted patch is set over the parameters that there were. -/
theorem hasParams_patchParams {c : Composition} (h : c.stack.Coherent)
    {id : LayerId} {patch : Params}
    (accepted : (patchParams id patch c).1 = .ok ()) :
    ∃ old : Params, HasParams (patchParams id patch c).2.layers id
      (old.extend patch) := by
  unfold patchParams at accepted ⊢
  cases found : c.stack.get? id with
  | some l =>
    simp only [editLayer, found]
    let f : Layer → Layer := fun l =>
      { l with params := l.params.extend patch }
    obtain ⟨mem, own⟩ := h.mem_toList_modify found f fun _ => rfl
    exact ⟨l.params, .inl ⟨f l, mem, own, rfl⟩⟩
  | none =>
    cases place : c.stack.findChild id with
    | none =>
      rw [found, place] at accepted
      cases accepted
    | some owned =>
      obtain ⟨owner, i⟩ := owned
      simp only [editChild, place]
      obtain ⟨l, mem, rfl, at_i⟩ := findChild_eq_some place
      obtain ⟨lt, same, -⟩ := List.findIdx?_eq_some_iff_getElem.mp at_i
      let f : ChildEffect → ChildEffect := fun child =>
        { child with params := child.params.extend patch }
      let g : Layer → Layer := fun l =>
        { l with children := l.children.modify i f }
      obtain ⟨owner, -⟩ :=
        h.mem_toList_modify (h.get?_of_mem_toList mem) g fun _ => rfl
      have child : f l.children[i] ∈ (g l).children := by
        refine List.mem_iff_getElem?.mpr ⟨i, ?_⟩
        simp [g, lt]
      exact ⟨l.children[i].params, .inr ⟨g l, owner, _, child,
        of_decide_eq_true same, rfl⟩⟩

end Composition

namespace Session

variable {σ ρ : Type} {s : Session σ ρ}

/-! ## The alpha of a flat base -/

theorem solidBaseAlpha?_of_layer
    (distinct : (s.layers.flatMap Layer.ids).Nodup) {l : Layer}
    (mem : l ∈ s.layers.filter (·.visible)) :
    s.solidBaseAlpha? l.id =
      if Program.IsFlatBase s.config.defaultGenerator
          (s.layers.filter (·.visible)) l then
        some l.bakedAlpha
      else none := by
  unfold solidBaseAlpha?
  rw [← List.head?_filter]
  cases visible : s.layers.filter (·.visible) with
  | nil =>
    rw [visible] at mem
    cases mem
  | cons base rest =>
    have below : base ∈ s.layers.filter (·.visible) := by simp [visible]
    simp only [List.head?_cons, Program.IsFlatBase, Option.map_some,
      Option.some.injEq]
    by_cases same : base.id = l.id
    · obtain rfl := eq_of_mem_ids distinct (List.mem_of_mem_filter below)
        (List.mem_of_mem_filter mem) (id_mem_ids base)
        (same ▸ id_mem_ids l)
      rfl
    · rw [if_neg fun both => same both.1, if_neg fun both => same both.1]

theorem solidBaseAlpha?_of_child
    (distinct : (s.layers.flatMap Layer.ids).Nodup) {l : Layer}
    (mem : l ∈ s.layers) {c : ChildEffect} (child : c ∈ l.children) :
    s.solidBaseAlpha? c.id = none := by
  unfold solidBaseAlpha?
  split
  · rename_i base found
    rw [if_neg]
    rintro ⟨same, -⟩
    have mem' := List.mem_of_find?_eq_some found
    obtain rfl := eq_of_mem_ids distinct mem mem' (child_id_mem_ids child)
      (same ▸ id_mem_ids base)
    exact id_ne_child_id distinct mem child same
  · rfl

/-- What is pushed for a parameter of a patch. -/
theorem get?_bakePatch (id : LayerId) (patch : Params) (key : String) :
    (s.bakePatch id patch).get? key =
      (patch.get? key).map fun value =>
        if key = "a" then ((s.solidBaseAlpha? id).map .ofFloat).getD value
        else value := by
  unfold bakePatch
  split
  · rename_i value alpha declared baked
    rw [patch.get?_insertFloat]
    by_cases alphaKey : key = "a"
    · simp [alphaKey, declared, baked]
    · simp [alphaKey]
  · rename_i unbaked
    cases given : patch.get? key with
    | none => rfl
    | some value =>
      by_cases alphaKey : key = "a"
      · subst alphaKey
        cases alpha : s.solidBaseAlpha? id with
        | none => rfl
        | some alpha' => exact (unbaked _ _ given alpha).elim
      · simp [alphaKey]

/-! ## What synthesis writes -/

end Session

namespace Program

/-- The call is of a layer that is moved by its offset. -/
def Call.IsMoved (catalog : Catalog) (call : Call) : Prop :=
  (∃ id, call.role = .layer id) ∧
    (catalog.classify call.effect).hasOffset = true

/-- A call in the program of layers says of all parameters that are pushed
what is pushed. Only the offset of a moved layer is the layer's own. -/
structure Agrees (catalog : Catalog) (layers : List Layer) (call : Call)
    (pushed : Params) : Prop where
  same : ∀ key value, pushed.get? key = some value →
    (key = "offset" → ¬ call.IsMoved catalog) →
      call.params.get? key = some value
  offset : call.IsMoved catalog →
    ∃ l ∈ layers, call.role = .layer l.id ∧
      call.params.get? "offset" =
        some (.arr [.ofFloat l.offset.x, .ofFloat l.offset.y])

variable (catalog : Catalog) (fallback : EffectId)

/-- A flat base is not moved. -/
theorem isMoved_ownCall_iff (visible : List Layer) (l : Layer) :
    (ownCall catalog fallback visible l).IsMoved catalog ↔
      ¬ IsFlatBase fallback visible l ∧
        (catalog.classify (l.effectOr fallback)).hasOffset = true := by
  have effect : (ownCall catalog fallback visible l).effect =
      l.effectOr fallback := by
    unfold ownCall
    split <;> rfl
  unfold Call.IsMoved
  rw [effect, role_ownCall]
  refine and_congr_left fun moved => ⟨fun _ flat => ?_, fun _ => ⟨_, rfl⟩⟩
  rw [(classify_eq_solid_iff catalog _).mpr flat.2] at moved
  cases moved

end Program

namespace Session

variable {σ ρ : Type} {s : Session σ ρ}

/-- What is pushed for a visible layer agrees with the call of its own
effect. -/
theorem agrees_ownCall (distinct : (s.layers.flatMap Layer.ids).Nodup)
    {l : Layer} (mem : l ∈ s.layers.filter (·.visible)) {old patch : Params}
    (params : l.params = old.extend patch) (catalog : Catalog) :
    Program.Agrees catalog s.layers
      (Program.ownCall catalog s.config.defaultGenerator
        (s.layers.filter (·.visible)) l)
      (s.bakePatch l.id patch) := by
  constructor
  case same =>
    intro key value pushed unmoved
    rw [get?_bakePatch, solidBaseAlpha?_of_layer distinct mem] at pushed
    obtain ⟨given, patched, rfl⟩ := Option.map_eq_some_iff.mp pushed
    rw [Program.isMoved_ownCall_iff] at unmoved
    rw [Program.get?_ownCall, params, Params.get?_extend, patched]
    by_cases flat : Program.IsFlatBase s.config.defaultGenerator
        (s.layers.filter (·.visible)) l
    -- The alpha is baked on both sides; nothing else is written over.
    · rw [if_pos flat, if_pos flat]
      split <;> rfl
    · have own : ¬ ((catalog.classify
          (l.effectOr s.config.defaultGenerator)).hasOffset = true ∧
          key = "offset") := fun both => unmoved both.2 ⟨flat, both.1⟩
      rw [if_neg flat, if_neg flat, if_neg own]
      split <;> rfl
  case offset =>
    intro moved
    obtain ⟨flat, hasOffset⟩ :=
      (Program.isMoved_ownCall_iff catalog _ _ l).mp moved
    refine ⟨l, List.mem_of_mem_filter mem, ?_, ?_⟩
    · exact Program.role_ownCall catalog _ _ l
    · rw [Program.get?_ownCall, if_neg flat, if_pos ⟨hasOffset, rfl⟩]

/-- What is pushed for a child effect agrees with its call. -/
theorem agrees_childCall (distinct : (s.layers.flatMap Layer.ids).Nodup)
    {l : Layer} (mem : l ∈ s.layers) {c : ChildEffect}
    (child : c ∈ l.children) {old patch : Params}
    (params : c.params = old.extend patch) (catalog : Catalog) :
    Program.Agrees catalog s.layers (Program.childCall l c)
      (s.bakePatch c.id patch) := by
  constructor
  case same =>
    intro key value pushed _
    rw [get?_bakePatch, solidBaseAlpha?_of_child distinct mem child]
      at pushed
    obtain ⟨given, patched, rfl⟩ := Option.map_eq_some_iff.mp pushed
    show c.params.get? key = _
    rw [params, Params.get?_extend, patched]
    simp
  case offset =>
    rintro ⟨⟨id, role⟩, -⟩
    cases role

/-- What is pushed for a patch agrees with the program of the patched
layers. -/
theorem agrees_bakePatch (distinct : (s.layers.flatMap Layer.ids).Nodup)
    {id : LayerId} {old patch : Params}
    (has : HasParams s.layers id (old.extend patch)) (catalog : Catalog)
    {call : Program.Call}
    (shows : (Program.ofLayers catalog s.config.defaultGenerator
      s.layers).Shows id call) :
    Program.Agrees catalog s.layers call (s.bakePatch id patch) := by
  obtain ⟨l, mem, ⟨rfl, rfl⟩ | ⟨c, child, rfl, rfl⟩⟩ :=
    (Program.shows_ofLayers_iff catalog _ distinct).mp shows
  · have params := has.of_layer distinct (List.mem_of_mem_filter mem) rfl
    exact agrees_ownCall distinct mem params catalog
  · have mem := List.mem_of_mem_filter mem
    have child : c ∈ l.children := List.mem_of_mem_filter child
    have params := has.of_child distinct mem child rfl
    exact agrees_childCall distinct mem child params catalog

/-! ## Updates -/

/-- What is visible is there to be patched. -/
theorem accepted_patchParams {c : Composition} (h : c.stack.Coherent)
    {id : LayerId} (visible : id ∈ visibleIds c.layers) (patch : Params) :
    (Composition.patchParams id patch c).1 = .ok () := by
  have answers := Composition.answers_patchParams h id patch
  obtain ⟨l, mem, own⟩ := List.mem_flatMap.mp visible
  have mem := List.mem_of_mem_filter mem
  have known : (if HasChild c.layers id then none
      else missingLayer? c.layers id) = none := by
    rcases List.mem_cons.mp own with rfl | child
    · have here : HasLayer c.layers l.id := ⟨l, mem, rfl⟩
      rw [missingLayer?, if_pos here, ite_self]
    · obtain ⟨c', mem', same⟩ := List.mem_map.mp child
      exact if_pos ⟨l, mem, c', List.mem_of_mem_filter mem', same⟩
  rw [known] at answers
  exact answers.choose_spec

variable [EffectEngine σ] [TextRasterizer ρ]

/-- A patch of something with a step is pushed first, and the layers are
then the patched ones. -/
theorem journal_updateParams {id : LayerId} {step : Nat} {patch : Params}
    (mapped : s.step? id = some step)
    (accepted : (Composition.patchParams id patch s.composition).1 = .ok ()) :
    ∃ taken more,
      (s.updateParams id patch).2.journal =
          s.journal ++ .push [(step,
            (s.touch (Composition.patchParams id patch)).2.bakePatch id
              patch)] taken :: more ∧
        (s.updateParams id patch).2.composition =
          (Composition.patchParams id patch s.composition).2 := by
  let patched := (s.touch (Composition.patchParams id patch)).2
  have touched : s.touch (Composition.patchParams id patch) =
      (.ok (), patched) := Prod.ext accepted rfl
  have mapped : patched.step? id = some step := mapped
  have followed : (s.updateParams id patch).2 =
      (patched.push step (patched.bakePatch id patch)).2.refreshText id
        step := by
    rw [updateParams_eq, updating, touched]
    simp only [followParams, mapped]
  have fed := fed_refreshText id step
    (patched.push step (patched.bakePatch id patch)).2
  rw [followed]
  generalize (patched.push step (patched.bakePatch id patch)).2.refreshText
    id step = final at fed ⊢
  obtain ⟨events, engine, rasterizer, -, -⟩ := fed
  refine ⟨(patched.push step (patched.bakePatch id patch)).1, events, ?_,
    rfl⟩
  exact List.append_assoc s.journal [_] events

/-- What an update of `s` to `next` pushed for a patch, key by key, is what
the program of the layers in `next` says of the patched layer or child
effect, whatever the engine publishes. -/
def PushedAsSynthesized (s next : Session σ ρ) (id : LayerId) (step : Nat)
    (patch : Params) : Prop :=
  ∃ pushed taken more,
    next.journal = s.journal ++ .push [(step, pushed)] taken :: more ∧
      (∀ key, (pushed.get? key).isSome = (patch.get? key).isSome) ∧
      ∀ catalog,
        let program := Program.ofLayers catalog s.config.defaultGenerator
          next.layers
        (∃ call, program.Shows id call) ∧
          ∀ call, program.Shows id call →
            Program.Agrees catalog next.layers call pushed

end Session

namespace Program

/-- What is visible is shown by some call. -/
theorem exists_shows (catalog : Catalog) (fallback : EffectId)
    {layers : List Layer} (distinct : (layers.flatMap Layer.ids).Nodup)
    {id : LayerId} (visible : id ∈ visibleIds layers) :
    ∃ call, (ofLayers catalog fallback layers).Shows id call := by
  obtain ⟨l, mem, own⟩ := List.mem_flatMap.mp visible
  simp only [shows_ofLayers_iff catalog fallback distinct]
  rcases List.mem_cons.mp own with rfl | child
  · exact ⟨_, l, mem, .inl ⟨rfl, rfl⟩⟩
  · obtain ⟨c, mem', rfl⟩ := List.mem_map.mp child
    exact ⟨_, l, mem, .inr ⟨c, mem', rfl, rfl⟩⟩

end Program

namespace Workspace

variable {σ ρ : Type} [EffectEngine σ] [TextRasterizer ρ]

/-- What has a step is visible. -/
theorem Reachable.mapsVisible {w : Workspace σ ρ} (h : w.Reachable) :
    w.session.MapsVisible := by
  obtain ⟨_, _, _, _, s, made, moves⟩ := h.exists_moves
  obtain ⟨_, _, _, _, stale, _⟩ := ofLayers_eq_ok made
  refine moves.mapsVisible fun id step mapped => ?_
  rw [Session.step?, Session.stepMap?, stale] at mapped
  cases mapped

/-- A patch of something that has a step is pushed as synthesis writes it;
only as the offset of media and texts it writes the offset of their
layer. -/
theorem Reachable.pushedAsSynthesized_updateParams {w : Workspace σ ρ}
    (h : w.Reachable) (stock : w.InStock) {id : LayerId} {step : Nat}
    (mapped : w.session.step? id = some step) (patch : Params) :
    w.session.PushedAsSynthesized (w.session.updateParams id patch).2 id step
      patch := by
  have sound := h.sound stock
  have visible := h.mapsVisible id step mapped
  have accepted := Session.accepted_patchParams sound.stack.coherent visible
    patch
  obtain ⟨taken, more, journal, composition⟩ :=
    Session.journal_updateParams mapped accepted
  have retains := Composition.neutral_patchParams id patch
    w.session.composition
  have ids := Composition.ids_patchParams id patch w.session.composition
  let patched := (w.session.touch (Composition.patchParams id patch)).2
  have layers : (w.session.updateParams id patch).2.layers =
      patched.layers :=
    congrArg Composition.layers composition
  have distinct : (patched.layers.flatMap Layer.ids).Nodup :=
    (retains.sound sound (ids ▸ stock)).stack.stackable.distinct
  have visible : id ∈ visibleIds patched.layers := by
    have same : visibleIds patched.layers = visibleIds w.session.layers :=
      visibleIds_of_skeleton_eq retains.skeleton
    rwa [same]
  obtain ⟨old, has⟩ := Composition.hasParams_patchParams sound.stack.coherent
    accepted
  refine ⟨_, taken, more, journal, fun key => ?_, fun catalog => ?_⟩
  · rw [Session.get?_bakePatch, Option.isSome_map]
  · dsimp only
    rw [layers]
    exact ⟨Program.exists_shows catalog _ distinct visible,
      fun call shows => Session.agrees_bakePatch distinct has catalog shows⟩

/-- Media above a flat base of half opacity. -/
def pictureLayers : List Layer :=
  [{ id := .ofNat 1
     source := .effect (some EffectId.solid)
     opacity := 50.0 },
    { id := .ofNat 2, source := .media "a.png" .image }]

theorem stackable_pictureLayers : Stackable pictureLayers := by
  decide +kernel

/-- The workspace in which these layers have been compiled. -/
def pictured : Workspace Simulated.Engine Simulated.Rasterizer :=
  ((simulated {} pictureLayers).run [.session (.rebuild false)]).2

theorem reachable_pictured : pictured.Reachable :=
  (reachable_simulated _ stackable_pictureLayers).run _

/-- Both layers have a step. -/
theorem steps_pictured :
    pictured.InStock ∧ pictured.session.step? (.ofNat 1) = some 0 ∧
      pictured.session.step? (.ofNat 2) = some 1 := by
  decide +kernel

/-- The alpha of the flat base is pushed as it is baked. -/
theorem pushedAsSynthesized_of_flat_base :
    let patch := Params.empty.insert "a" (.int 1) trivial
    pictured.Reachable ∧ pictured.InStock ∧
      pictured.session.step? (.ofNat 1) = some 0 ∧
      pictured.session.PushedAsSynthesized
        (pictured.session.updateParams (.ofNat 1) patch).2 (.ofNat 1) 0
        patch := by
  intro patch
  obtain ⟨stock, mapped, -⟩ := steps_pictured
  exact ⟨reachable_pictured, stock, mapped,
    reachable_pictured.pushedAsSynthesized_updateParams stock mapped patch⟩

/-- Not every pushed parameter is what synthesis writes: an offset among
the parameters of media is pushed, and the program has the offset of the
layer in its place. -/
theorem offset_pushed_but_not_synthesized :
    ¬ ∀ (w : Workspace Simulated.Engine Simulated.Rasterizer) (id : LayerId)
        (step : Nat) (patch : Params),
      w.Reachable → w.InStock → w.session.step? id = some step →
        let next := (w.session.updateParams id patch).2
        ∀ pushed taken more,
          next.journal =
            w.session.journal ++ .push [(step, pushed)] taken :: more →
          ∀ call, (next.programOf next.layers).Shows id call →
            ∀ key value, pushed.get? key = some value →
              call.params.get? key = some value := by
  intro all
  let patch := Params.empty.insert "offset" (.arr [.int 5, .int 5])
    ⟨trivial, trivial, trivial⟩
  let next := (pictured.session.updateParams (.ofNat 2) patch).2
  obtain ⟨stock, -, mapped⟩ := steps_pictured
  have accepted := Session.accepted_patchParams
    (reachable_pictured.sound stock).stack.coherent
    (reachable_pictured.mapsVisible _ _ mapped) patch
  obtain ⟨taken, more, journal, -⟩ :=
    Session.journal_updateParams mapped accepted
  -- The call of the media is known by the text of its offset.
  have offsets : ((next.programOf next.layers).statements.flatMap
      Program.Statement.calls).any (fun call =>
        call.role = .layer (.ofNat 2) ∧
          (call.params.get? "offset").map Program.literal =
            some ['[', '0', ',', ' ', '0', ']']) = true := by
    decide +kernel
  obtain ⟨call, mem, both⟩ := List.any_eq_true.mp offsets
  obtain ⟨role, offset⟩ := of_decide_eq_true both
  have shows : (next.programOf next.layers).Shows (.ofNat 2) call :=
    ⟨mem, by rw [role]; rfl⟩
  have pushed : ((pictured.session.touch
      (Composition.patchParams (.ofNat 2) patch)).2.bakePatch (.ofNat 2)
        patch).get? "offset" = some (.arr [.int 5, .int 5]) := by
    have given : patch.get? "offset" = some (.arr [.int 5, .int 5]) := rfl
    rw [Session.get?_bakePatch, given]
    rfl
  rw [all pictured _ 1 patch reachable_pictured stock mapped _ _ _ journal
    call shows _ _ pushed] at offset
  revert offset
  decide +kernel

end Workspace

end Compositing
