/-
Compositing.Proofs.Layer.Inverses — edits that take other edits back.

What an edit has added can be taken out again by its identity, and what it
has shown or hidden can be set back. The layers are then exactly those
from before (`Edit.Restores`): a new identity is one that no other layer or
child effect has, so the second edit finds just what the first one made.
-/
import Compositing.Proofs.Layer.Lossless

namespace Compositing

/-- The edit is accepted and leaves these layers. -/
def Edit.Restores {α : Type} (undo : Edit α) (c : Composition)
    (layers : List Layer) : Prop :=
  ∃ value c', undo c = (.ok value, c') ∧ c'.layers = layers

/-- A change of the item at a place is taken back by one that takes it back
there. -/
theorem modify_modify_of_getElem? {α : Type} {xs : List α} {i : Nat} {a : α}
    (place : xs[i]? = some a) {f g : α → α} (back : g (f a) = a) :
    (xs.modify i f).modify i g = xs := by
  rw [List.modify_modify_eq]
  refine List.ext_getElem? fun j => ?_
  rw [List.getElem?_modify]
  by_cases here : i = j
  · subst here
    simp [place, back]
  · simp [here]

/-- A layer with one more child effect at the end of its chain. -/
def Layer.lengthened (added : ChildEffect) (l : Layer) : Layer :=
  { l with children := l.children ++ [added] }

namespace LayerStack

variable {s : LayerStack}

/-! ## Looking up what was added or changed -/

/-- A child effect of a sound stack is found with its owner. -/
theorem Sound.exists_findChild (h : s.Sound) {l : Layer} (mem : l ∈ s.toList)
    {child : ChildEffect} (own : child ∈ l.children) :
    ∃ i, s.findChild child.id = some (l.id, i) ∧
      l.children[i]? = some child := by
  obtain ⟨i, place⟩ := List.mem_iff_getElem?.mp own
  refine ⟨i, ?_, place⟩
  refine (h.coherent.represents.findChild_eq_some_iff
    h.stackable.distinct).mpr ⟨l, mem, rfl, ?_⟩
  rw [place, Option.map_some]

/-- Where the identities of child effects are the same, they are found at
the same places. -/
theorem findIdx?_child_congr {a b : List ChildEffect}
    (ids : a.map (·.id) = b.map (·.id)) (child : LayerId) :
    a.findIdx? (·.id = child) = b.findIdx? (·.id = child) := by
  have place (children : List ChildEffect) :
      children.findIdx? (·.id = child) =
        (children.map (·.id)).findIdx? (· = child) := by
    rw [List.findIdx?_map]
    rfl
  rw [place, place, ids]

/-- A change of a child effect that keeps its identity keeps all child
effects in their places. -/
theorem findChild_modifyChild (h : s.Coherent) (owner : LayerId) (i : Nat)
    {f : ChildEffect → ChildEffect} (keeps : ∀ c, (f c).id = c.id)
    (child : LayerId) :
    (s.modifyChild owner i f).findChild child = s.findChild child := by
  have changed : (s.modifyChild owner i f).toList = _ :=
    toList_modify h fun _ => rfl
  rw [findChild, changed, List.findSome?_map, findChild]
  refine congrArg (List.findSome? · s.toList) (funext fun l => ?_)
  by_cases own : l.id = owner
  · have ids : (l.children.modify i f).map (·.id) =
        l.children.map (·.id) := map_modify_of_eq keeps _ _
    simp only [Function.comp_apply, if_pos own, findIdx?_child_congr ids]
  · simp only [Function.comp_apply, if_neg own]

/-- Two changes of one layer, the second of which takes the first back
there, leave the list. -/
theorem Sound.toList_modify_modify (h : s.Sound) {l : Layer}
    (mem : l ∈ s.toList) {f g : Layer → Layer} (back : g (f l) = l)
    (keeps : ∀ l, (f l).id = l.id) (keeps' : ∀ l, (g l).id = l.id) :
    ((s.modify l.id f).modify l.id g).toList = s.toList := by
  rw [toList_modify (h.coherent.modify keeps) keeps',
    toList_modify h.coherent keeps, List.map_map]
  refine (List.map_congr_left fun l' mem' => ?_).trans (List.map_id _)
  by_cases own : l'.id = l.id
  · obtain rfl : l' = l :=
      List.inj_on_of_nodup_map h.stackable.nodup_map_id mem' mem own
    simp only [Function.comp_apply, if_pos, keeps, back, id_eq]
  · simp only [Function.comp_apply, if_neg own, id_eq]

/-- The place of a layer that was put in. -/
theorem position?_insert (h : s.Coherent) {l : Layer}
    (new : l.id ∉ s.toList.map (·.id)) (i : Nat) :
    (s.insert i l).position? l.id = some (min i s.toList.length) := by
  have inserted := h.represents.insert new i
  have nodup : ((s.toList.insertIdx (min i s.toList.length) l).map
      (·.id)).Nodup := inserted.map_id_eq ▸ inserted.coherent.nodup
  rw [inserted.position?_eq, findIdx?_eq_some_iff_of_nodup nodup,
    List.getElem?_insertIdx_self, if_pos (Nat.min_le_right _ _),
    Option.map_some]

end LayerStack

namespace Composition

variable {c c' : Composition}

/-! ## Layers -/

/-- A layer that was put in above the base can be taken out again. -/
theorem restores_removeLayer (sound : c.stack.Sound) {l : Layer}
    (new : l.id ∉ c.layers.map (·.id)) (i : Nat) (ids : IdSource) :
    (removeLayer l.id).Restores
      { stack := c.stack.insert (i + 1) l, ids := ids } c.layers := by
  have coherent := sound.coherent
  have base : (c.stack.insert (i + 1) l).base? ≠ some l.id := by
    rw [LayerStack.base?_insert_succ sound.wellFormed.nonempty]
    intro lowest
    refine new ?_
    rw [layers, coherent.map_id_toList]
    exact List.mem_of_mem_head? lowest
  have inserted := coherent.represents.insert new (i + 1)
  have known : l.id ∈ (c.stack.toList.insertIdx
      (min (i + 1) c.stack.toList.length) l).map (·.id) :=
    List.mem_map_of_mem
      ((List.mem_insertIdx (Nat.min_le_right _ _)).mpr (.inl rfl))
  obtain ⟨⟨out, left⟩, removed⟩ :=
    Option.ne_none_iff_exists'.mp
      (mt inserted.remove_eq_none_iff.mp (not_not.mpr known))
  obtain ⟨j, place, toList⟩ :=
    LayerStack.toList_remove inserted.coherent removed
  rw [LayerStack.position?_insert coherent new] at place
  obtain rfl := Option.some.inj place
  rw [inserted.toList_eq, List.eraseIdx_insertIdx_self] at toList
  refine ⟨out, { stack := left, ids := ids }, ?_, toList⟩
  rw [removeLayer, if_neg base, removed]

/-- Identities that are handed out are new. -/
theorem not_mem_of_handedOut (sound : c.Sound) {l : Layer} {n : Nat}
    {ids : IdSource}
    (own : l.ids = (List.range' c.ids.next n).map LayerId.ofNat)
    (next : ids.next = c.ids.next + n)
    (stock : ids.next < LayerId.bound) : l.id ∉ c.layers.map (·.id) :=
  fun old =>
    (fresh_of_mem_range' sound next stock (own ▸ List.mem_cons_self)).1
      ((map_id_sublist_ids _).subset old)

/-- A new layer can be removed again. -/
theorem restores_addLayer {name : String} {source : LayerSource}
    {params : Params} {made : LayerId} (sound : c.Sound)
    (accepted : addLayer name source params c = (.ok made, c'))
    (stock : c'.ids.next < LayerId.bound) :
    (removeLayer made).Restores c' c.layers := by
  obtain ⟨n, length⟩ := Nat.exists_eq_succ_of_ne_zero
    (mt List.length_eq_zero_iff.mp sound.stack.wellFormed.nonempty)
  unfold addLayer mint at accepted
  dsimp only at accepted
  rw [length] at accepted
  cases accepted
  let l : Layer :=
    { id := c.mint.1, name := name, source := source, params := params }
  exact restores_removeLayer sound.stack (l := l)
    (not_mem_of_handedOut (n := 1) sound rfl rfl stock) n _

/-- A copy can be removed again. -/
theorem restores_duplicateLayer {id made : LayerId} (sound : c.Sound)
    (accepted : duplicateLayer id c = (.ok made, c'))
    (stock : c'.ids.next < LayerId.bound) :
    (removeLayer made).Restores c' c.layers := by
  unfold duplicateLayer at accepted
  split at accepted
  · rename_i index l place found
    cases accepted
    exact restores_removeLayer sound.stack (l := (copyOf l c).1)
      (not_mem_of_handedOut sound (ids_copyOf l c) (next_copyOf l c) stock)
      index _
  · cases accepted

/-- A change of a layer is taken back by one that takes it back there. -/
theorem restores_editLayer {l : Layer} {f g : Layer → Layer}
    (accepted : editLayer l.id f c = (.ok (), c')) (sound : c.Sound)
    (mem : l ∈ c.layers) (back : g (f l) = l)
    (keeps : ∀ l, (f l).id = l.id) (keeps' : ∀ l, (g l).id = l.id) :
    (editLayer l.id g).Restores c' c.layers := by
  have found := sound.stack.coherent.get?_of_mem_toList mem
  rw [editLayer, found] at accepted
  cases accepted
  refine ⟨(), { c with stack := (c.stack.modify l.id f).modify l.id g }, ?_,
    sound.stack.toList_modify_modify mem back keeps keeps'⟩
  rw [editLayer, LayerStack.get?_modify, if_pos rfl, found,
    Option.map_some]

/-- A layer that was shown or hidden can be set back. -/
theorem restores_setVisible {l : Layer} {visible : Bool} (sound : c.Sound)
    (mem : l ∈ c.layers)
    (accepted : setVisible l.id visible c = (.ok (), c')) :
    (setVisible l.id l.visible).Restores c' c.layers :=
  restores_editLayer accepted sound mem rfl (fun _ => rfl) fun _ => rfl

/-! ## Child effects -/

/-- A child effect at the end of a chain is found there. -/
theorem locate_lengthened {l : Layer} {added : ChildEffect} (sound : c.Sound)
    (found : c.stack.get? l.id = some (l.lengthened added)) :
    c.locate added.id = some (l.id, l.children.length, added) := by
  have last : (l.lengthened added).children[l.children.length]? =
      some added := List.getElem?_concat_length
  have place : c.stack.findChild added.id =
      some (l.id, l.children.length) := by
    refine (sound.stack.coherent.represents.findChild_eq_some_iff
      sound.stack.stackable.distinct).mpr ⟨l.lengthened added,
        sound.stack.coherent.mem_toList_of_get? found, rfl, ?_⟩
    rw [last, Option.map_some]
  simp [locate, place, found, last]

/-- A child effect that was put at the end of a chain can be taken out
again. -/
theorem restores_removeChild {l : Layer} {added : ChildEffect}
    {ids : IdSource} (sound : c.Sound) (found : c.stack.get? l.id = some l)
    (sound' : Composition.Sound
      { stack := c.stack.modify l.id (Layer.lengthened added), ids := ids }) :
    (removeChild added.id).Restores
      { stack := c.stack.modify l.id (Layer.lengthened added), ids := ids }
      c.layers := by
  have located := locate_lengthened sound' (l := l) <| by
    rw [LayerStack.get?_modify, if_pos rfl, found, Option.map_some]
  refine ⟨added, _, by rw [removeChild, located], ?_⟩
  refine sound.stack.toList_modify_modify
    (sound.stack.coherent.mem_toList_of_get? found) ?_ (fun _ => rfl)
    fun _ => rfl
  simp [Layer.lengthened, List.eraseIdx_append_of_length_le]

/-- A new child effect can be removed again. -/
theorem restores_addChild {id made : LayerId} {effect : EffectId}
    {params : Params} (sound : c.Sound)
    (accepted : addChild id effect params c = (.ok made, c'))
    (stock : c'.ids.next < LayerId.bound) :
    (removeChild made).Restores c' c.layers := by
  have sound' : c'.Sound := by
    have evolves := (lawful_addChild id effect params).evolves c
    rw [accepted] at evolves
    exact evolves.sound sound stock
  unfold addChild editLayer at accepted
  dsimp only [mint, IdSource.mint] at accepted
  cases found : c.stack.get? id with
  | none =>
    rw [found] at accepted
    cases accepted
  | some l =>
    rw [found] at accepted
    cases accepted
    obtain rfl := sound.stack.coherent.id_of_get? found
    exact restores_removeChild sound found sound'

/-- A change of a child effect is taken back by one that takes it back
there. -/
theorem restores_editChild {l : Layer} {child : ChildEffect}
    {f g : ChildEffect → ChildEffect}
    (accepted : editChild child.id f c = (.ok (), c')) (sound : c.Sound)
    (mem : l ∈ c.layers) (own : child ∈ l.children)
    (back : g (f child) = child)
    (keeps : ∀ child, (f child).id = child.id) :
    (editChild child.id g).Restores c' c.layers := by
  obtain ⟨i, found, place⟩ := sound.stack.exists_findChild mem own
  rw [editChild, found] at accepted
  cases accepted
  let stack := (c.stack.modifyChild l.id i f).modifyChild l.id i g
  refine ⟨(), { c with stack := stack }, ?_,
    sound.stack.toList_modify_modify mem ?_ (fun _ => rfl) fun _ => rfl⟩
  · rw [editChild, LayerStack.findChild_modifyChild sound.stack.coherent _ _
      keeps, found]
  · simp only [modify_modify_of_getElem? place back]

/-- A child effect that was shown or hidden can be set back. -/
theorem restores_setChildVisible {l : Layer} {child : ChildEffect}
    {visible : Bool} (sound : c.Sound) (mem : l ∈ c.layers)
    (own : child ∈ l.children)
    (accepted : setChildVisible child.id visible c = (.ok (), c')) :
    (setChildVisible child.id child.visible).Restores c' c.layers :=
  restores_editChild accepted sound mem own rfl fun _ => rfl

end Composition

end Compositing
