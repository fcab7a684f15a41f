/-
Compositing.Proofs.Layer.Edits — what every edit keeps.

A composition is `Sound` when its stack is sound and its source of
identities is past every identity in the stack. Every edit, accepted or
refused, leads from a sound composition to a sound one, as long as the
identities do not run out (`Lawful`), and a refused edit leaves the
stack. An edit is `Neutral` when it keeps the skeleton of the stack as
well; renaming, locking and changes of opacity, offset and parameters
are.
-/
import Compositing.Layer.Composition
import Compositing.Proofs.Layer.Identity
import Compositing.Proofs.Layer.Skeleton
import Compositing.Proofs.Layer.Stackable

namespace Compositing

namespace Composition

/-- The stack is sound, and no identity in it will be handed out. -/
structure Sound (c : Composition) : Prop where
  stack : c.stack.Sound
  covers : ∀ id ∈ c.layers.flatMap Layer.ids, c.ids.Covers id

/-- What becomes of a composition by edits: identities are used up, and
it stays sound until they have run out. -/
structure Evolves (c c' : Composition) : Prop where
  next_le : c.ids.next ≤ c'.ids.next
  sound : c.Sound → c'.ids.next < LayerId.bound → c'.Sound

/-- What becomes of a composition by edits that are not structural. -/
structure Retains (c c' : Composition) : Prop extends Evolves c c' where
  skeleton : skeleton c'.layers = skeleton c.layers

namespace Evolves

theorem refl (c : Composition) : c.Evolves c where
  next_le := Nat.le_refl _
  sound h _ := h

theorem trans {a b c : Composition} (h : a.Evolves b) (h' : b.Evolves c) :
    a.Evolves c where
  next_le := Nat.le_trans h.next_le h'.next_le
  sound sound bound :=
    h'.sound (h.sound sound (Nat.lt_of_le_of_lt h'.next_le bound)) bound

/-- A composition with the same stack whose source has moved on. -/
theorem of_stack_eq {c c' : Composition} (stack : c'.stack = c.stack)
    (next_le : c.ids.next ≤ c'.ids.next) : c.Evolves c' where
  next_le := next_le
  sound h _ :=
    { stack := stack ▸ h.stack
      covers := fun id mem => by
        unfold layers at mem
        rw [stack] at mem
        exact (h.covers id mem).mono next_le }

end Evolves

/-- A composition with the same stack whose source has moved on keeps
its skeleton. -/
theorem Retains.of_stack_eq {c c' : Composition} (stack : c'.stack = c.stack)
    (next_le : c.ids.next ≤ c'.ids.next) : c.Retains c' where
  toEvolves := .of_stack_eq stack next_le
  skeleton := by
    unfold layers
    rw [stack]

theorem Retains.refl (c : Composition) : c.Retains c :=
  .of_stack_eq rfl (Nat.le_refl _)

end Composition

/-- The edit keeps compositions sound, and leaves the stack when it is
refused. -/
structure Edit.Lawful {α : Type} (change : Edit α) : Prop where
  evolves : ∀ c : Composition, c.Evolves (change c).2
  refused : ∀ {c e c'}, change c = (.error e, c') → c'.stack = c.stack

/-- The edit keeps compositions sound and their skeleton. -/
def Edit.Neutral {α : Type} (change : Edit α) : Prop :=
  ∀ c : Composition, c.Retains (change c).2

/-- A refused edit changes nothing structural. -/
theorem Edit.Lawful.retains_of_refused {α : Type} {change : Edit α}
    (h : Edit.Lawful change) {c c' : Composition} {e : Error}
    (refused : change c = (.error e, c')) : c.Retains c' := by
  refine .of_stack_eq (h.refused refused) ?_
  have := (h.evolves c).next_le
  rwa [refused] at this

namespace Composition

variable {c : Composition}

/-! ## Changing one layer -/

/-- Changing one layer so that it takes no identity that is not its own
or new keeps a composition sound. -/
theorem sound_modify {ids : IdSource} (h : c.Sound) {l : Layer}
    (mem : l ∈ c.layers) {f : Layer → Layer} (hf : ∀ l, (f l).id = l.id)
    (finite : (f l).opacity.isFinite = true) (nodup : (f l).ids.Nodup)
    (own : ∀ id ∈ (f l).ids,
      id ∈ l.ids ∨ id ∉ c.layers.flatMap Layer.ids ∧ ids.Covers id)
    (next_le : c.ids.next ≤ ids.next) :
    Sound { stack := c.stack.modify l.id f, ids := ids } := by
  have toList : (c.stack.modify l.id f).toList = _ :=
    LayerStack.toList_modify h.stack.coherent hf
  obtain ⟨below, above, eq, eq'⟩ :=
    exists_map_update h.stack.stackable.nodup_map_id mem f
  have eq : c.layers = below ++ l :: above := eq
  rw [eq] at own
  have stackable : Stackable (below ++ l :: above) :=
    eq ▸ h.stack.stackable
  refine ⟨⟨h.stack.coherent.modify hf, ?_⟩, fun id mem => ?_⟩
  · rw [toList, eq']
    exact stackable.replace finite nodup fun id mem =>
      (own id mem).imp_right And.left
  · rw [layers, toList, eq'] at mem
    have covers := h.covers id
    rw [eq] at covers
    simp only [List.flatMap_append, List.flatMap_cons, List.mem_append]
      at mem covers
    rcases mem with mem | mem | mem
    · exact (covers (.inl mem)).mono next_le
    · rcases own id mem with mine | ⟨-, new⟩
      · exact (covers (.inr (.inl mine))).mono next_le
      · exact new
    · exact (covers (.inr (.inr mem))).mono next_le

/-- Changing one layer so that it keeps its identities keeps a
composition sound. -/
theorem sound_modify_of_ids (h : c.Sound) {l : Layer} (mem : l ∈ c.layers)
    {f : Layer → Layer} (ids : ∀ l, (f l).ids = l.ids)
    (finite : (f l).opacity.isFinite = true) :
    Sound { c with stack := c.stack.modify l.id f } := by
  have hf : ∀ l, (f l).id = l.id := fun l => (List.cons.inj (ids l)).1
  refine sound_modify h mem hf finite ?_ (fun id own => .inl (ids l ▸ own))
    (Nat.le_refl _)
  rw [ids]
  exact nodup_ids h.stack.stackable.distinct mem

/-- A change of one layer that keeps its identities, and keeps a finite
opacity finite, keeps compositions sound. -/
theorem evolves_editLayer (id : LayerId) {f : Layer → Layer}
    (ids : ∀ l, (f l).ids = l.ids)
    (finite : ∀ l, l.opacity.isFinite = true →
      (f l).opacity.isFinite = true) (c : Composition) :
    c.Evolves (editLayer id f c).2 := by
  unfold editLayer
  split
  · rename_i l found
    refine ⟨Nat.le_refl _, fun h _ => ?_⟩
    have mem := h.stack.coherent.mem_toList_of_get? found
    obtain rfl := h.stack.coherent.id_of_get? found
    exact sound_modify_of_ids h mem ids
      (finite l (h.stack.stackable.finite l mem))
  · exact .refl c

theorem stack_of_refused_editLayer {id : LayerId} {f : Layer → Layer}
    {c c' : Composition} {e : Error}
    (refused : editLayer id f c = (.error e, c')) : c' = c := by
  unfold editLayer at refused
  split at refused
  · cases refused
  · exact (Prod.mk.inj refused).2.symm

/-- Edits of one layer that keep its identities and its opacity are
lawful. -/
theorem lawful_editLayer (id : LayerId) {f : Layer → Layer}
    (ids : ∀ l, (f l).ids = l.ids) (opacity : ∀ l, (f l).opacity = l.opacity) :
    Edit.Lawful (editLayer id f) where
  evolves := evolves_editLayer id ids fun l h => (opacity l).symm ▸ h
  refused refused := by rw [stack_of_refused_editLayer refused]

/-- Edits of one layer that keep its skeleton are neutral. -/
theorem neutral_editLayer (id : LayerId) {f : Layer → Layer}
    (ids : ∀ l, (f l).ids = l.ids)
    (finite : ∀ l, l.opacity.isFinite = true →
      (f l).opacity.isFinite = true)
    (skel : ∀ l, (f l).skeleton = l.skeleton) :
    Edit.Neutral (editLayer id f) := by
  intro c
  refine ⟨evolves_editLayer id ids finite c, ?_⟩
  unfold editLayer
  split
  · exact skeleton_toList_modify c.stack id skel
  · rfl

theorem lawful_setVisible (id : LayerId) (visible : Bool) :
    Edit.Lawful (setVisible id visible) :=
  lawful_editLayer id (fun _ => rfl) fun _ => rfl

theorem lawful_setBlendMode (id : LayerId) (mode : BlendMode) :
    Edit.Lawful (setBlendMode id mode) :=
  lawful_editLayer id (fun _ => rfl) fun _ => rfl

theorem lawful_setEffect (id : LayerId) (effect : EffectId) :
    Edit.Lawful (setEffect id effect) := by
  have edit : Edit.Lawful (editLayer id fun l =>
      { l with source := .effect (some effect), params := Params.empty }) :=
    lawful_editLayer id (fun _ => rfl) fun _ => rfl
  constructor
  · intro c
    unfold setEffect
    split
    · split
      · exact .refl c
      · exact edit.evolves c
    · exact .refl c
  · intro c e c' refused
    unfold setEffect at refused
    split at refused
    · split at refused
      · rw [(Prod.mk.inj refused).2]
      · exact edit.refused refused
    · rw [(Prod.mk.inj refused).2]

theorem neutral_rename (id : LayerId) (name : String) :
    Edit.Neutral (rename id name) :=
  neutral_editLayer id (fun _ => rfl) (fun _ h => h) fun _ => rfl

theorem neutral_setLocked (id : LayerId) (locked : Bool) :
    Edit.Neutral (setLocked id locked) :=
  neutral_editLayer id (fun _ => rfl) (fun _ h => h) fun _ => rfl

/-- A clamped opacity is a finite number, whatever was given. -/
theorem isFinite_clampOpacity (opacity : Float) :
    (clampOpacity opacity).isFinite = true := by
  unfold clampOpacity
  split
  · rename_i finite
    split
    · decide +kernel
    · split
      · decide +kernel
      · exact finite
  · decide +kernel

theorem neutral_setOpacity (id : LayerId) (opacity : Float) :
    Edit.Neutral (setOpacity id opacity) :=
  neutral_editLayer id (fun _ => rfl)
    (fun _ _ => isFinite_clampOpacity opacity) fun _ => rfl

theorem neutral_setOffset (id : LayerId) (offset : Offset) :
    Edit.Neutral (setOffset id offset) := by
  have edit : Edit.Neutral (editLayer id fun l =>
      { l with offset := offset }) :=
    neutral_editLayer id (fun _ => rfl) (fun _ h => h) fun _ => rfl
  intro c
  unfold setOffset
  split
  · split
    · exact .refl c
    · exact edit c
  · exact .refl c

/-! ## Changing one child effect -/

/-- A change of one child effect that keeps its identity keeps those of
its layer. -/
theorem ids_modify_children (l : Layer) (i : Nat)
    {f : ChildEffect → ChildEffect} (hf : ∀ c, (f c).id = c.id) :
    ({ l with children := l.children.modify i f } : Layer).ids = l.ids := by
  simp only [Layer.ids, map_modify_of_eq hf]

/-- Where a child effect is found there is a layer that owns it. -/
theorem findChild_eq_some {s : LayerStack} {child owner : LayerId} {i : Nat}
    (found : s.findChild child = some (owner, i)) :
    ∃ l ∈ s.toList, l.id = owner ∧
      l.children.findIdx? (·.id = child) = some i := by
  obtain ⟨l, mem, here⟩ := List.exists_of_findSome?_eq_some found
  obtain ⟨j, at_j, eq⟩ := Option.map_eq_some_iff.mp here
  obtain ⟨rfl, rfl⟩ := Prod.mk.inj eq
  exact ⟨l, mem, rfl, at_j⟩

/-- A change of one child effect that keeps its identity keeps
compositions sound. -/
theorem lawful_editChild (child : LayerId) {f : ChildEffect → ChildEffect}
    (hf : ∀ c, (f c).id = c.id) : Edit.Lawful (editChild child f) := by
  constructor
  · intro c
    unfold editChild
    split
    · rename_i owner i found
      refine ⟨Nat.le_refl _, fun h _ => ?_⟩
      obtain ⟨l, mem, rfl, -⟩ := findChild_eq_some found
      exact sound_modify_of_ids h mem (fun l => ids_modify_children l i hf)
        (h.stack.stackable.finite l mem)
    · exact .refl c
  · intro c e c' refused
    unfold editChild at refused
    split at refused
    · cases (Prod.mk.inj refused).1
    · rw [(Prod.mk.inj refused).2]

theorem lawful_setChildVisible (child : LayerId) (visible : Bool) :
    Edit.Lawful (setChildVisible child visible) :=
  lawful_editChild child fun _ => rfl

/-- A change of one child effect that keeps its skeleton is neutral. -/
theorem neutral_editChild (child : LayerId) {f : ChildEffect → ChildEffect}
    (hf : ∀ c, (f c).skeleton = c.skeleton) :
    Edit.Neutral (editChild child f) := by
  have id_eq : ∀ c, (f c).id = c.id := fun c =>
    congrArg ChildSkeleton.id (hf c)
  intro c
  refine ⟨(lawful_editChild child id_eq).evolves c, ?_⟩
  unfold editChild
  split
  · rename_i owner i found
    exact skeleton_toList_modify c.stack owner fun l =>
      skeleton_modify_children l i hf
  · rfl

theorem neutral_patchParams (id : LayerId) (patch : Params) :
    Edit.Neutral (patchParams id patch) := by
  have layer : Edit.Neutral (editLayer id fun l =>
      { l with params := l.params.extend patch }) :=
    neutral_editLayer id (fun _ => rfl) (fun _ h => h) fun _ => rfl
  have child : Edit.Neutral (editChild id fun child =>
      { child with params := child.params.extend patch }) :=
    neutral_editChild id fun _ => rfl
  intro c
  unfold patchParams
  split
  · exact layer c
  · exact child c
  · exact .refl c

/-! ## Putting layers in -/

/-- Consecutive numbers from the next one on are no identities of a
sound composition, and a source behind them covers them. -/
theorem fresh_of_mem_range' (h : c.Sound) {count : Nat} {ids : IdSource}
    (next : ids.next = c.ids.next + count)
    (bound : ids.next < LayerId.bound) {id : LayerId}
    (mem : id ∈ (List.range' c.ids.next count).map LayerId.ofNat) :
    id ∉ c.layers.flatMap Layer.ids ∧ ids.Covers id := by
  obtain ⟨n, range, rfl⟩ := List.mem_map.mp mem
  have range := List.mem_range'_1.mp range
  refine ⟨fun old => ?_, IdSource.covers_ofNat (by omega) (by omega)⟩
  exact IdSource.ne_ofNat_of_covers (h.covers _ old) range.1 (by omega) rfl

/-- Putting in a layer whose identities are handed out for it keeps
compositions sound. -/
theorem evolves_insert {l : Layer} {count : Nat} {ids : IdSource} (i : Nat)
    (finite : c.Sound → l.opacity.isFinite = true)
    (own : l.ids = (List.range' c.ids.next count).map LayerId.ofNat)
    (next : ids.next = c.ids.next + count) :
    c.Evolves { stack := c.stack.insert i l, ids := ids } := by
  refine ⟨next ▸ Nat.le_add_right _ _, fun h bound => ?_⟩
  have fresh : ∀ id ∈ l.ids,
      id ∉ c.layers.flatMap Layer.ids ∧ ids.Covers id :=
    fun id mem => fresh_of_mem_range' h next bound (own ▸ mem)
  have nodup : l.ids.Nodup := by
    rw [own]
    exact IdSource.nodup_map_ofNat (next ▸ bound)
  have notMem : l.id ∉ c.stack.order := by
    rw [← h.stack.coherent.map_id_toList]
    intro mem
    exact (fresh l.id List.mem_cons_self).1
      ((map_id_sublist_ids _).subset mem)
  have toList := LayerStack.toList_insert h.stack.coherent notMem i
  have len : c.layers.length = c.stack.order.length := by
    rw [← h.stack.coherent.map_id_toList, List.length_map]
    rfl
  have le : min i c.stack.order.length ≤ c.layers.length :=
    len ▸ Nat.min_le_right _ _
  refine ⟨⟨h.stack.coherent.insert notMem i, ?_⟩, fun id mem => ?_⟩
  · rw [toList]
    exact h.stack.stackable.insertIdx (finite h) nodup
      (fun id mem => (fresh id mem).1) le
  · rw [layers, toList] at mem
    obtain ⟨l', mem', own'⟩ := List.mem_flatMap.mp mem
    rcases (List.mem_insertIdx le).mp mem' with rfl | mem'
    · exact (fresh id own').2
    · exact (h.covers id (List.mem_flatMap.mpr ⟨l', mem', own'⟩)).mono
        (next ▸ Nat.le_add_right _ _)

/-- A new layer is fully opaque, which is finite. -/
theorem isFinite_full : (100.0 : Float).isFinite = true := by
  decide +kernel

theorem lawful_addLayer (name : String) (source : LayerSource)
    (params : Params) : Edit.Lawful (addLayer name source params) where
  evolves _ := evolves_insert _ (fun _ => isFinite_full) rfl rfl
  refused refused := nomatch (Prod.mk.inj refused).1

/-- The source behind a copy has handed out one identity for the layer
and one for each child effect. -/
theorem next_copyOf (l : Layer) (c : Composition) :
    (copyOf l c).2.ids.next = c.ids.next + (l.children.length + 1) := by
  simp only [copyOf, IdSource.mintEach_eq, IdSource.mint]
  omega

/-- The identities of a copy are those that were handed out for it. -/
theorem ids_copyOf (l : Layer) (c : Composition) :
    (copyOf l c).1.ids =
      (List.range' c.ids.next (l.children.length + 1)).map
        LayerId.ofNat := by
  have children := IdSource.map_mintEach
    (fun (id : LayerId) (child : ChildEffect) =>
      (rfl : ({ child with id := id } : ChildEffect).id = id))
    l.children { next := c.ids.next + 1 }
  rw [List.range'_succ, List.map_cons, ← children]
  rfl

theorem lawful_duplicateLayer (id : LayerId) :
    Edit.Lawful (duplicateLayer id) := by
  constructor
  · intro c
    unfold duplicateLayer
    split
    · rename_i index l hindex found
      refine evolves_insert _ (fun h => ?_) (ids_copyOf l c) (next_copyOf l c)
      exact h.stack.stackable.finite l
        (h.stack.coherent.mem_toList_of_get? found)
    · exact .refl c
  · intro c e c' refused
    unfold duplicateLayer at refused
    split at refused
    · cases (Prod.mk.inj refused).1
    · rw [(Prod.mk.inj refused).2]

/-! ## Taking layers out -/

theorem lawful_removeLayer (id : LayerId) :
    Edit.Lawful (removeLayer id) := by
  constructor
  · intro c
    unfold removeLayer
    split
    · exact .refl c
    · rename_i notBase
      split
      · rename_i l stack removed
        refine ⟨Nat.le_refl _, fun h _ => ?_⟩
        obtain ⟨i, hi, toList⟩ :=
          LayerStack.toList_remove h.stack.coherent removed
        have sub : stack.toList.Sublist c.layers :=
          toList ▸ List.eraseIdx_sublist _ _
        have nonempty : stack.toList ≠ [] := by
          have at_i := LayerStack.getElem?_position? hi
          have ne : i ≠ 0 := by
            rintro rfl
            exact notBase (List.head?_eq_getElem?.trans at_i)
          have lt : i < c.layers.length := by
            have := (List.getElem?_eq_some_iff.mp at_i).1
            rw [← h.stack.coherent.map_id_toList, List.length_map] at this
            exact this
          rw [toList, List.eraseIdx_ne_nil_iff]
          exact .inl (by unfold layers at lt; omega)
        refine ⟨⟨h.stack.coherent.remove removed,
          h.stack.stackable.sublist sub nonempty⟩, fun id mem => ?_⟩
        exact h.covers id ((sub.flatMap Layer.ids).subset mem)
      · exact .refl c
  · intro c e c' refused
    unfold removeLayer at refused
    split at refused
    · rw [(Prod.mk.inj refused).2]
    · split at refused
      · cases (Prod.mk.inj refused).1
      · rw [(Prod.mk.inj refused).2]

/-! ## Chains of child effects -/

theorem ids_addChild (l : Layer) (c : ChildEffect) :
    ({ l with children := l.children ++ [c] } : Layer).ids =
      l.ids ++ [c.id] := by
  simp [Layer.ids]

theorem lawful_addChild (id : LayerId) (effect : EffectId)
    (params : Params) : Edit.Lawful (addChild id effect params) := by
  constructor
  · intro c
    unfold addChild editLayer
    simp only [mint, IdSource.mint]
    cases found : c.stack.get? id with
    | none => exact .of_stack_eq rfl (Nat.le_succ _)
    | some l =>
      refine ⟨Nat.le_succ _, fun h bound => ?_⟩
      have mem := h.stack.coherent.mem_toList_of_get? found
      obtain rfl := h.stack.coherent.id_of_get? found
      have fresh := fresh_of_mem_range' h rfl bound
        (List.mem_map.mpr ⟨_, List.mem_singleton.mpr rfl, rfl⟩)
      have ids := ids_addChild l
        { id := .ofNat c.ids.next, effect := effect, params := params }
      refine sound_modify h mem (fun _ => rfl)
        (h.stack.stackable.finite l mem) ?_ ?_ (Nat.le_succ _)
      · rw [ids]
        refine List.nodup_append.mpr ⟨?_, List.nodup_singleton _, ?_⟩
        · exact nodup_ids h.stack.stackable.distinct mem
        · rintro a ha b hb rfl
          obtain rfl := List.mem_singleton.mp hb
          exact fresh.1 (List.mem_flatMap.mpr ⟨l, mem, ha⟩)
      · intro id own
        rw [ids] at own
        rcases List.mem_append.mp own with old | new
        · exact .inl old
        · obtain rfl := List.mem_singleton.mp new
          exact .inr fresh
  · intro c e c' refused
    unfold addChild editLayer at refused
    simp only [mint] at refused
    split at refused
    · rename_i accepted
      split at accepted
      · cases (Prod.mk.inj refused).1
      · cases (Prod.mk.inj accepted).1
    · rename_i accepted
      split at accepted
      · cases (Prod.mk.inj accepted).1
      · rw [← (Prod.mk.inj refused).2, ← (Prod.mk.inj accepted).2]

/-- A child effect that is located stands at the place where it is
found. -/
theorem locate_eq_some {child owner : LayerId} {i : Nat}
    {found : ChildEffect}
    (located : c.locate child = some (owner, i, found)) :
    c.stack.findChild child = some (owner, i) ∧
      ∃ l, c.stack.get? owner = some l ∧ l.children[i]? = some found := by
  unfold locate at located
  obtain ⟨⟨owner', i'⟩, place, rest⟩ := Option.bind_eq_some_iff.mp located
  obtain ⟨l, hl, rest⟩ := Option.bind_eq_some_iff.mp rest
  obtain ⟨found', at_i, same⟩ := Option.bind_eq_some_iff.mp rest
  obtain ⟨rfl, rfl, rfl⟩ : owner' = owner ∧ i' = i ∧ found' = found := by
    simpa using same
  exact ⟨place, l, hl, at_i⟩

/-- Taking a child effect out keeps compositions sound. -/
theorem evolves_dropChild {child : LayerId} {owner : LayerId} {i : Nat}
    {found : ChildEffect} (located : c.locate child = some (owner, i, found)) :
    c.Evolves (c.dropChild owner i) := by
  refine ⟨Nat.le_refl _, fun h _ => ?_⟩
  obtain ⟨place, -⟩ := locate_eq_some located
  obtain ⟨l, mem, rfl, -⟩ := findChild_eq_some place
  have sub : ({ l with children := l.children.eraseIdx i } :
      Layer).ids.Sublist l.ids :=
    ((List.eraseIdx_sublist _ _).map _).cons_cons _
  exact sound_modify h mem (fun _ => rfl) (h.stack.stackable.finite l mem)
    ((nodup_ids h.stack.stackable.distinct mem).sublist sub)
    (fun id own => .inl (sub.subset own)) (Nat.le_refl _)

theorem lawful_removeChild (child : LayerId) :
    Edit.Lawful (removeChild child) := by
  constructor
  · intro c
    unfold removeChild
    split
    · rename_i owner i found located
      exact evolves_dropChild located
    · exact .refl c
  · intro c e c' refused
    unfold removeChild at refused
    split at refused
    · cases (Prod.mk.inj refused).1
    · rw [(Prod.mk.inj refused).2]

theorem lawful_extractChild (child : LayerId) :
    Edit.Lawful (extractChild child) := by
  constructor
  · intro c
    unfold extractChild
    split
    · rename_i owner i found located
      exact (evolves_dropChild located).trans
        (evolves_insert _ (fun _ => isFinite_full) rfl rfl)
    · exact .refl c
  · intro c e c' refused
    unfold extractChild at refused
    split at refused
    · cases (Prod.mk.inj refused).1
    · rw [(Prod.mk.inj refused).2]

end Composition

end Compositing
