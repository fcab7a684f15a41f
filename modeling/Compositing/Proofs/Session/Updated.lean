/-
Compositing.Proofs.Session.Updated — what an update changes in the
program.

An update changes one layer or child effect, and so the program gives
other values at most to parameters of that one, and of those only to what
was set: the parameters of a patch (`gives_of_patchParams`), the alpha of
a flat base under a new opacity (`gives_of_setOpacity`), the offset of
media and texts (`gives_of_setOffset`).
-/
import Compositing.Proofs.Program.Arguments
import Compositing.Proofs.Session.Patches

namespace Compositing

open Json (Value)

namespace Composition

variable {c : Composition} {catalog : Catalog} {fallback : EffectId}
  {id id' : LayerId} {key : String} {value : Value}

/-- A change of one layer leaves what the program gives to others, and to
the layer itself what does not hang on the change. -/
theorem gives_of_editLayer (sound : c.Sound) {f : Layer → Layer}
    (sound' : (editLayer id f c).2.Sound)
    (skel : ∀ l, (f l).skeleton = l.skeleton)
    (children : ∀ l, (f l).children = l.children)
    (own : id = id' → ∀ l ∈ c.layers.filter (·.visible), l.id = id →
      (f l).params.get? key = l.params.get? key ∧
        (key = "a" →
          Program.IsFlatBase fallback (c.layers.filter (·.visible)) l →
            (f l).opacity = l.opacity) ∧
        (key = "offset" →
          (catalog.classify (l.effectOr fallback)).hasOffset = true →
            (f l).offset = l.offset))
    (gives : (Program.ofLayers catalog fallback
      (editLayer id f c).2.layers).Gives id' key value) :
    (Program.ofLayers catalog fallback c.layers).Gives id' key value := by
  have distinct' := sound'.stack.stackable.distinct
  unfold editLayer at gives distinct'
  split at gives
  · have same_id : ∀ l, (f l).id = l.id := fun l =>
      congrArg (·.id) (skel l)
    have changed : (c.stack.modify id f).toList =
        c.layers.map fun l => if l.id = id then f l else l :=
      LayerStack.toList_modify sound.stack.coherent same_id
    rename_i known
    rw [known] at distinct'
    dsimp only [layers] at distinct' gives
    rw [changed] at distinct' gives
    refine Program.gives_of_map sound.stack.stackable.distinct distinct' ?_
      ?_ ?_ gives
    · intro l
      split
      · exact skel l
      · rfl
    · intro l mem here
      split
      · rename_i edited
        obtain ⟨params, alpha, offset⟩ :=
          own (edited.symm.trans here) l mem edited
        exact ⟨params, alpha, fun isOffset => ⟨rfl, offset isOffset⟩⟩
      · exact ⟨rfl, fun _ _ => rfl, fun _ => ⟨rfl, fun _ => rfl⟩⟩
    · intro l mem child mem' _
      refine ⟨child, ?_, rfl, rfl⟩
      split at mem'
      · rwa [children] at mem'
      · exact mem'
  · exact gives

/-- A change of one child effect leaves what the program gives to
others, and to the child effect itself what does not hang on the
change. -/
theorem gives_of_editChild (sound : c.Sound)
    {f : ChildEffect → ChildEffect}
    (sound' : (editChild id f c).2.Sound)
    (skel : ∀ child, (f child).skeleton = child.skeleton)
    (own : id = id' → ∀ child,
      (f child).params.get? key = child.params.get? key)
    (gives : (Program.ofLayers catalog fallback
      (editChild id f c).2.layers).Gives id' key value) :
    (Program.ofLayers catalog fallback c.layers).Gives id' key value := by
  have distinct := sound.stack.stackable.distinct
  have distinct' := sound'.stack.stackable.distinct
  unfold editChild at gives distinct'
  split at gives
  · rename_i owner i place
    let g : Layer → Layer := fun l =>
      { l with children := l.children.modify i f }
    have changed : (c.stack.modifyChild owner i f).toList =
        c.layers.map fun l => if l.id = owner then g l else l :=
      LayerStack.toList_modify sound.stack.coherent fun _ => rfl
    rw [place] at distinct'
    dsimp only [layers] at distinct' gives
    rw [changed] at distinct' gives
    obtain ⟨l₀, mem₀, rfl, at_i⟩ := findChild_eq_some place
    obtain ⟨lt, same, -⟩ := List.findIdx?_eq_some_iff_getElem.mp at_i
    have same : l₀.children[i].id = id := of_decide_eq_true same
    refine Program.gives_of_map distinct distinct' ?_ ?_ ?_ gives
    · intro l
      split
      · exact skeleton_modify_children l i skel
      · rfl
    · intro l mem here
      split
      · exact ⟨rfl, fun _ _ => rfl, fun _ => ⟨rfl, fun _ => rfl⟩⟩
      · exact ⟨rfl, fun _ _ => rfl, fun _ => ⟨rfl, fun _ => rfl⟩⟩
    · intro l mem child mem' here
      split at mem'
      · rename_i owns
        obtain rfl := eq_of_mem_ids distinct mem mem₀ (id_mem_ids l)
          (owns ▸ id_mem_ids l₀)
        obtain ⟨j, lt', rfl⟩ := List.mem_iff_getElem.mp mem'
        have lt' : j < l.children.length := by
          rwa [List.length_modify] at lt'
        rw [List.getElem_modify] at here ⊢
        refine ⟨l.children[j], List.getElem_mem lt', ?_⟩
        split at here
        · -- The edited child effect is the one that was found.
          rename_i edited
          subst edited
          have kept : (f l.children[i]).id = l.children[i].id :=
            congrArg (·.id) (skel l.children[i])
          rw [if_pos rfl]
          exact ⟨(skel _).symm, own (same.symm.trans (kept.symm.trans here)) _⟩
        · rename_i other
          rw [if_neg other]
          exact ⟨rfl, rfl⟩
      · exact ⟨child, mem', rfl, rfl⟩
  · exact gives

/-- A patch leaves what the program gives to others, and all parameters
that are not in it. -/
theorem gives_of_patchParams (sound : c.Sound) {patch : Params}
    (sound' : (patchParams id patch c).2.Sound)
    (unset : id = id' → patch.get? key = none)
    (gives : (Program.ofLayers catalog fallback
      (patchParams id patch c).2.layers).Gives id' key value) :
    (Program.ofLayers catalog fallback c.layers).Gives id' key value := by
  have kept : id = id' → ∀ params : Params,
      (params.extend patch).get? key = params.get? key := by
    intro same params
    rw [Params.get?_extend, unset same, Option.none_or]
  unfold patchParams at gives sound'
  cases known : c.stack.get? id with
  | some l =>
    rw [known] at gives sound'
    exact gives_of_editLayer sound sound' (fun _ => rfl) (fun _ => rfl)
      (fun same l _ _ => ⟨kept same _, fun _ _ => rfl, fun _ _ => rfl⟩) gives
  | none =>
    cases place : c.stack.findChild id with
    | some owned =>
      rw [known, place] at gives sound'
      exact gives_of_editChild sound sound' (fun _ => rfl)
        (fun same child => kept same child.params) gives
    | none =>
      rw [known, place] at gives
      exact gives

/-- A new opacity changes nothing but the alpha of a flat base. -/
theorem gives_of_setOpacity (sound : c.Sound) {opacity : Float}
    (sound' : (setOpacity id opacity c).2.Sound)
    (unset : id = id' → key = "a" → ∀ l ∈ c.layers.filter (·.visible),
      l.id = id →
        ¬ Program.IsFlatBase fallback (c.layers.filter (·.visible)) l)
    (gives : (Program.ofLayers catalog fallback
      (setOpacity id opacity c).2.layers).Gives id' key value) :
    (Program.ofLayers catalog fallback c.layers).Gives id' key value :=
  gives_of_editLayer sound sound' (fun _ => rfl) (fun _ => rfl)
    (fun same l mem own =>
      ⟨rfl, fun isAlpha flat => absurd flat (unset same isAlpha l mem own),
        fun _ _ => rfl⟩) gives

/-- A new offset changes nothing but the offset of media and texts. -/
theorem gives_of_setOffset (sound : c.Sound) {offset : Offset}
    (sound' : (setOffset id offset c).2.Sound)
    (unset : id = id' → key = "offset" → ∀ l ∈ c.layers, l.id = id →
      (catalog.classify (l.effectOr fallback)).hasOffset = false)
    (gives : (Program.ofLayers catalog fallback
      (setOffset id offset c).2.layers).Gives id' key value) :
    (Program.ofLayers catalog fallback c.layers).Gives id' key value := by
  unfold setOffset at gives sound'
  split at gives
  · rename_i l known
    rw [known] at sound'
    dsimp only at sound'
    split at gives
    · exact gives
    · rename_i unlocked
      rw [if_neg unlocked] at sound'
      refine gives_of_editLayer sound sound' (fun _ => rfl) (fun _ => rfl)
        (fun same l mem own => ⟨rfl, fun _ _ => rfl, fun isOffset moved => ?_⟩)
        gives
      have still := unset same isOffset l (List.mem_of_mem_filter mem) own
      rw [still] at moved
      cases moved
  · exact gives

/-- Layers keep their effects, and an offset among the own parameters of a
layer does not go away. -/
def Grows (c c' : Composition) : Prop :=
  ∀ l ∈ c.layers, ∃ l' ∈ c'.layers, l'.id = l.id ∧ l'.source = l.source ∧
    (l'.params.get? "offset" = none → l.params.get? "offset" = none)

theorem Grows.of_layers_eq {c c' : Composition} (h : c'.layers = c.layers) :
    c.Grows c' :=
  fun l mem => ⟨l, h ▸ mem, rfl, rfl, fun unset => unset⟩

/-- What does not change the sources or take parameters away. -/
theorem grows_modify (sound : c.Sound) {f : Layer → Layer}
    (skel : ∀ l, (f l).skeleton = l.skeleton)
    (params : ∀ l, (f l).params.get? "offset" = none →
      l.params.get? "offset" = none) :
    c.Grows { c with stack := c.stack.modify id f } := by
  intro l mem
  have same_id : ∀ l, (f l).id = l.id := fun l => congrArg (·.id) (skel l)
  have changed : (c.stack.modify id f).toList =
      c.layers.map fun l => if l.id = id then f l else l :=
    LayerStack.toList_modify sound.stack.coherent same_id
  refine ⟨if l.id = id then f l else l, ?_, ?_⟩
  · show _ ∈ (c.stack.modify id f).toList
    rw [changed]
    exact List.mem_map_of_mem mem
  · split
    · exact ⟨same_id l, congrArg (·.source) (skel l), params l⟩
    · exact ⟨rfl, rfl, fun unset => unset⟩

theorem grows_editLayer (sound : c.Sound) {f : Layer → Layer}
    (skel : ∀ l, (f l).skeleton = l.skeleton)
    (params : ∀ l, (f l).params.get? "offset" = none →
      l.params.get? "offset" = none) :
    c.Grows (editLayer id f c).2 := by
  unfold editLayer
  split
  · exact grows_modify sound skel params
  · exact .of_layers_eq rfl

theorem grows_setOpacity (sound : c.Sound) (id : LayerId)
    (opacity : Float) : c.Grows (setOpacity id opacity c).2 :=
  grows_editLayer sound (fun _ => rfl) fun _ unset => unset

theorem grows_setOffset (sound : c.Sound) (id : LayerId) (offset : Offset) :
    c.Grows (setOffset id offset c).2 := by
  unfold setOffset
  split
  · split
    · exact .of_layers_eq rfl
    · exact grows_editLayer sound (fun _ => rfl) fun _ unset => unset
  · exact .of_layers_eq rfl

theorem grows_patchParams (sound : c.Sound) (id : LayerId)
    (patch : Params) : c.Grows (patchParams id patch c).2 := by
  unfold patchParams
  split
  · refine grows_editLayer sound (fun _ => rfl) fun l unset => ?_
    rw [Params.get?_extend, Option.or_eq_none_iff] at unset
    exact unset.2
  · unfold editChild
    split
    · exact grows_modify sound
        (fun l => skeleton_modify_children l _ fun _ => rfl)
        fun _ unset => unset
    · exact .of_layers_eq rfl
  · exact .of_layers_eq rfl

/-! ## What was set -/

theorem eq_of_refused_setOffset {offset : Offset} {c' : Composition}
    {e : Error} (refused : setOffset id offset c = (.error e, c')) :
    c' = c := by
  unfold setOffset at refused
  split at refused
  · split at refused
    · exact (Prod.mk.inj refused).2.symm
    · exact stack_of_refused_editLayer refused
  · exact (Prod.mk.inj refused).2.symm

theorem eq_of_refused_patchParams {patch : Params} {c' : Composition}
    {e : Error} (refused : patchParams id patch c = (.error e, c')) :
    c' = c := by
  unfold patchParams at refused
  split at refused
  · exact stack_of_refused_editLayer refused
  · unfold editChild at refused
    split at refused
    · cases refused
    · exact (Prod.mk.inj refused).2.symm
  · exact (Prod.mk.inj refused).2.symm

/-- An accepted offset is that of the layer. -/
theorem offset_of_setOffset {offset : Offset} {l : Layer}
    (accepted : (setOffset id offset c).1 = .ok ())
    (found : (setOffset id offset c).2.stack.get? id = some l) :
    l.offset = offset := by
  unfold setOffset at accepted found
  cases known : c.stack.get? id with
  | none =>
    rw [known] at accepted
    cases accepted
  | some before =>
    rw [known] at accepted found
    dsimp only at accepted found
    split at accepted
    · cases accepted
    · rename_i unlocked
      rw [if_neg unlocked, editLayer, known] at found
      dsimp only at found
      rw [LayerStack.get?_modify, if_pos rfl, known] at found
      rw [← Option.some.inj found]

end Composition

namespace Session

variable {σ ρ : Type} {s s' : Session σ ρ} {catalog : Catalog}
  {id : LayerId} {value : Value}

/-- The program gives a flat base the alpha that is pushed for it. -/
theorem eq_alpha_of_gives (distinct : (s.layers.flatMap Layer.ids).Nodup)
    {alpha : Float} (baked : s.solidBaseAlpha? id = some alpha)
    (gives : (Program.ofLayers catalog s.config.defaultGenerator
      s.layers).Gives id "a" value) : value = .ofFloat alpha := by
  obtain ⟨call, shows, given⟩ := gives
  obtain ⟨l, mem, ⟨rfl, rfl⟩ | ⟨child, mem', rfl, rfl⟩⟩ :=
    (Program.shows_ofLayers_iff catalog _ distinct).mp shows
  · rw [solidBaseAlpha?_of_layer distinct mem] at baked
    split at baked
    · rename_i flat
      rw [Program.get?_ownCall, if_pos flat, if_pos rfl] at given
      rw [← Option.some.inj given, Option.some.inj baked]
    · cases baked
  · rw [solidBaseAlpha?_of_child distinct (List.mem_of_mem_filter mem)
      (List.mem_of_mem_filter mem')] at baked
    cases baked

/-- Whether a layer is a flat base is a matter of the skeleton. -/
theorem isSome_solidBaseAlpha?_of_skeleton_eq
    (config : s'.config = s.config)
    (skel : skeleton s'.layers = skeleton s.layers) (id : LayerId) :
    (s'.solidBaseAlpha? id).isSome = (s.solidBaseAlpha? id).isSome := by
  have view : ∀ s : Session σ ρ, (s.solidBaseAlpha? id).isSome =
      ((skeleton s.layers).find? (·.visible)).any fun base =>
        base.id = id ∧
          Layer.effectOr { id := base.id, source := base.source }
            s.config.defaultGenerator = EffectId.solid := by
    intro s
    have base : (skeleton s.layers).find? (·.visible) =
        (s.layers.find? (·.visible)).map Layer.skeleton := by
      rw [skeleton, List.find?_map]
      rfl
    rw [base, solidBaseAlpha?]
    cases s.layers.find? (·.visible) with
    | none => rfl
    | some base =>
      dsimp only
      rw [Option.map_some, Option.any_some]
      split
      · rename_i flat
        exact (decide_eq_true flat).symm
      · rename_i other
        exact (decide_eq_false other).symm
  rw [view, view, skel, config]

/-- What has no alpha to be pushed is no flat base. -/
theorem not_isFlatBase (distinct : (s.layers.flatMap Layer.ids).Nodup)
    {l : Layer} (mem : l ∈ s.layers.filter (·.visible))
    (none : s.solidBaseAlpha? l.id = none) :
    ¬ Program.IsFlatBase s.config.defaultGenerator
      (s.layers.filter (·.visible)) l := by
  intro flat
  rw [solidBaseAlpha?_of_layer distinct mem, if_pos flat] at none
  cases none

/-- The program gives media and texts the offset of their layer. -/
theorem eq_offset_of_gives (distinct : (s.layers.flatMap Layer.ids).Nodup)
    {l : Layer} (mem : l ∈ s.layers)
    (moved : (catalog.classify
      (l.effectOr s.config.defaultGenerator)).hasOffset = true)
    (gives : (Program.ofLayers catalog s.config.defaultGenerator
      s.layers).Gives l.id "offset" value) :
    value = .arr [.ofFloat l.offset.x, .ofFloat l.offset.y] := by
  obtain ⟨call, shows, given⟩ := gives
  obtain ⟨l', mem', ⟨same, rfl⟩ | ⟨child, mem_c, same, rfl⟩⟩ :=
    (Program.shows_ofLayers_iff catalog _ distinct).mp shows
  · obtain rfl := eq_of_mem_ids distinct (List.mem_of_mem_filter mem') mem
      (id_mem_ids l') (same ▸ id_mem_ids l)
    have unflat : ¬ Program.IsFlatBase s.config.defaultGenerator
        (s.layers.filter (·.visible)) l' := by
      intro flat
      rw [(Program.classify_eq_solid_iff catalog _).mpr flat.2] at moved
      cases moved
    rw [Program.get?_ownCall, if_neg unflat, if_pos ⟨moved, rfl⟩] at given
    exact (Option.some.inj given).symm
  · have mem_c := List.mem_of_mem_filter mem_c
    have mem' := List.mem_of_mem_filter mem'
    obtain rfl := eq_of_mem_ids distinct mem' mem (child_id_mem_ids mem_c)
      (same ▸ id_mem_ids l)
    exact absurd same.symm (id_ne_child_id distinct mem' mem_c)

end Session

end Compositing
