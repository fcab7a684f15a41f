/-
Compositing.Proofs.Layer.Arena — a coherent stack is a list of layers.

A stack keeps its layers in an arena and their order beside it. It is
`Coherent` when the two speak of the same layers: the order names each
layer of the arena once, and every layer stands under its own identity.
For a coherent stack each operation of the arena is an operation of the
list `toList`:

* `toList_modify`, `toList_insert`, `toList_remove`: the change of the
  list;
* `toList_setOrder`: the list in the new order.
-/
import Compositing.Layer.Stack
import Compositing.Proofs.Assoc
import Mathlib.Data.List.InsertIdx
import Mathlib.Data.List.Perm.Basic

namespace Compositing.LayerStack

/-- The order names every layer of the arena once, and every layer
stands under its own identity. -/
structure Coherent (s : LayerStack) : Prop where
  ascending : Assoc.Ascending s.arena
  nodup : s.order.Nodup
  mem_order : ∀ id, id ∈ s.order ↔ (s.get? id).isSome
  id_of_get? : ∀ {id l}, s.get? id = some l → l.id = id

/-! ## The list of a stack -/

/-- Layers that are found under their identities are the layers under
the order of these identities. -/
theorem arranged_map_id {s : LayerStack} :
    ∀ {layers : List Layer}, (∀ l ∈ layers, s.get? l.id = some l) →
      s.arranged (layers.map (·.id)) = layers
  | [], _ => rfl
  | l :: rest, h => by
    have hl := h l List.mem_cons_self
    have hrest := arranged_map_id fun x hx => h x (List.mem_cons_of_mem l hx)
    unfold arranged at hrest ⊢
    rw [List.map_cons, List.filterMap_cons, hl, hrest]

/-- A stack whose order lists the identities of layers that it finds is
the list of these layers. -/
theorem toList_eq {s : LayerStack} {layers : List Layer}
    (order : s.order = layers.map (·.id))
    (found : ∀ l ∈ layers, s.get? l.id = some l) : s.toList = layers := by
  unfold toList
  rw [order]
  exact arranged_map_id found

namespace Coherent

variable {s : LayerStack}

/-- The identities of the layers under an order of known identities are
that order. -/
theorem map_id_arranged (h : s.Coherent) :
    ∀ {order : List LayerId}, (∀ id ∈ order, id ∈ s.order) →
      (s.arranged order).map (·.id) = order
  | [], _ => rfl
  | id :: rest, known => by
    have hid := (h.mem_order id).mp (known id List.mem_cons_self)
    obtain ⟨l, hl⟩ := Option.isSome_iff_exists.mp hid
    have ih := h.map_id_arranged fun x hx =>
      known x (List.mem_cons_of_mem id hx)
    unfold arranged at ih ⊢
    rw [List.filterMap_cons, hl, List.map_cons, ih, h.id_of_get? hl]

theorem map_id_toList (h : s.Coherent) :
    s.toList.map (·.id) = s.order :=
  h.map_id_arranged fun _ => id

/-- The layers under some order are found under their identities. -/
theorem get?_of_mem_arranged (h : s.Coherent) {order : List LayerId}
    {l : Layer} (mem : l ∈ s.arranged order) : s.get? l.id = some l := by
  obtain ⟨id, _, found⟩ := List.mem_filterMap.mp mem
  rw [h.id_of_get? found]
  exact found

theorem get?_of_mem_toList (h : s.Coherent) {l : Layer}
    (mem : l ∈ s.toList) : s.get? l.id = some l :=
  h.get?_of_mem_arranged mem

theorem mem_toList_of_get? (h : s.Coherent) {id : LayerId} {l : Layer}
    (found : s.get? id = some l) : l ∈ s.toList :=
  List.mem_filterMap.mpr
    ⟨id, (h.mem_order id).mpr (by rw [found]; rfl), found⟩

/-- The identities that the arena holds are those of the list. -/
theorem mem_allIds (h : s.Coherent) {id : LayerId} :
    id ∈ s.allIds ↔ id ∈ s.toList.flatMap Layer.ids := by
  simp only [allIds, List.mem_flatMap]
  constructor
  · rintro ⟨⟨key, l⟩, mem, hid⟩
    have found := (Assoc.get?_eq_some_iff_mem h.ascending).mpr mem
    exact ⟨l, h.mem_toList_of_get? found, hid⟩
  · rintro ⟨l, mem, hid⟩
    have found := h.get?_of_mem_toList mem
    exact ⟨(l.id, l), Assoc.mem_of_get?_eq_some found, hid⟩

end Coherent

/-! ## Changing a stack -/

section

variable {s : LayerStack}

/-- What a stack finds after one layer was changed in place. -/
theorem get?_modify (id : LayerId) (f : Layer → Layer) (k : LayerId) :
    (s.modify id f).get? k =
      if k = id then (s.get? k).map f else s.get? k :=
  Assoc.get?_modify id f k s.arena

/-- What a stack finds after a layer was put in. -/
theorem get?_insert (i : Nat) (l : Layer) (k : LayerId) :
    (s.insert i l).get? k = if k = l.id then some l else s.get? k := by
  simp only [get?, insert, Assoc.get?_insert, Assoc.compare_eq_iff]

theorem Coherent.modify (h : s.Coherent) {id : LayerId} {f : Layer → Layer}
    (hf : ∀ l, (f l).id = l.id) : (s.modify id f).Coherent where
  ascending := Assoc.modify_ascending h.ascending
  nodup := h.nodup
  mem_order k := by
    rw [get?_modify]
    split <;> simp [LayerStack.modify, h.mem_order]
  id_of_get? := by
    intro k l found
    rw [get?_modify] at found
    split at found
    · obtain ⟨l', before, rfl⟩ := Option.map_eq_some_iff.mp found
      rw [hf]
      exact h.id_of_get? before
    · exact h.id_of_get? found

/-- Changing a layer in place changes it in the list. -/
theorem toList_modify (h : s.Coherent) {id : LayerId} {f : Layer → Layer}
    (hf : ∀ l, (f l).id = l.id) :
    (s.modify id f).toList =
      s.toList.map fun l => if l.id = id then f l else l := by
  refine toList_eq ?_ fun l mem => ?_
  · rw [List.map_map]
    refine h.map_id_toList.symm.trans (List.map_congr_left fun l _ => ?_)
    simp only [Function.comp]
    split
    · exact (hf l).symm
    · rfl
  · obtain ⟨l', mem', rfl⟩ := List.mem_map.mp mem
    have found := h.get?_of_mem_toList mem'
    rw [get?_modify]
    by_cases eq : l'.id = id
    · simp only [if_pos eq, hf, found, Option.map_some]
    · simp only [if_neg eq, found]

theorem Coherent.insert (h : s.Coherent) {l : Layer}
    (fresh : l.id ∉ s.order) (i : Nat) : (s.insert i l).Coherent where
  ascending := Assoc.insert_ascending h.ascending
  nodup := by
    have perm : (s.insert i l).order.Perm (l.id :: s.order) :=
      List.perm_insertIdx l.id s.order (Nat.min_le_right _ _)
    exact perm.nodup_iff.mpr (List.nodup_cons.mpr ⟨fresh, h.nodup⟩)
  mem_order k := by
    rw [get?_insert]
    simp only [LayerStack.insert,
      List.mem_insertIdx (Nat.min_le_right i s.order.length)]
    by_cases eq : k = l.id <;> simp [eq, h.mem_order]
  id_of_get? := by
    intro k l' found
    rw [get?_insert] at found
    split at found
    · rename_i eq
      obtain rfl := Option.some.inj found
      exact eq.symm
    · exact h.id_of_get? found

/-- Putting a new layer in puts it into the list. -/
theorem toList_insert (h : s.Coherent) {l : Layer}
    (fresh : l.id ∉ s.order) (i : Nat) :
    (s.insert i l).toList =
      s.toList.insertIdx (min i s.order.length) l := by
  have len : s.toList.length = s.order.length := by
    rw [← h.map_id_toList, List.length_map]
  refine toList_eq ?_ fun l' mem => ?_
  · rw [List.map_insertIdx, h.map_id_toList]
    rfl
  · rw [get?_insert]
    have bound : min i s.order.length ≤ s.toList.length := by omega
    rcases (List.mem_insertIdx bound).mp mem with rfl | mem
    · simp
    · have ne : l'.id ≠ l.id := by
        intro eq
        have := h.map_id_toList ▸ List.mem_map.mpr ⟨l', mem, rfl⟩
        exact fresh (eq ▸ this)
      rw [if_neg ne]
      exact h.get?_of_mem_toList mem

/-- What is taken out of a stack, and what is left. -/
theorem remove_eq_some {id : LayerId} {l : Layer} {s' : LayerStack}
    (removed : s.remove id = some (l, s')) :
    ∃ i, s.position? id = some i ∧ s.get? id = some l ∧
      s' = { arena := Assoc.erase id s.arena, order := s.order.eraseIdx i } := by
  unfold remove at removed
  split at removed
  · rename_i i l' hi hl
    obtain ⟨rfl, rfl⟩ := Prod.mk.inj (Option.some.inj removed)
    exact ⟨i, hi, hl, rfl⟩
  · cases removed

/-- The identity at the position of a layer is the layer's. -/
theorem getElem?_position? {id : LayerId} {i : Nat}
    (h : s.position? id = some i) : s.order[i]? = some id := by
  obtain ⟨lt, eq, _⟩ := List.findIdx?_eq_some_iff_getElem.mp h
  rw [List.getElem?_eq_getElem lt]
  exact congrArg some (of_decide_eq_true eq)

/-- Taking the element at a place out of a list without repetitions
leaves the others. -/
theorem mem_eraseIdx_iff_ne {α : Type} {xs : List α} (nodup : xs.Nodup)
    {i : Nat} {a : α} (at_i : xs[i]? = some a) {b : α} :
    b ∈ xs.eraseIdx i ↔ b ∈ xs ∧ b ≠ a := by
  rw [List.mem_eraseIdx_iff_getElem?]
  constructor
  · rintro ⟨j, ne, at_j⟩
    refine ⟨List.mem_of_getElem? at_j, ?_⟩
    rintro rfl
    have lt := (List.getElem?_eq_some_iff.mp at_j).1
    exact ne ((List.getElem?_inj lt nodup).mp (at_j.trans at_i.symm))
  · rintro ⟨mem, ne⟩
    obtain ⟨j, at_j⟩ := List.mem_iff_getElem?.mp mem
    refine ⟨j, ?_, at_j⟩
    rintro rfl
    exact ne (Option.some.inj (at_j.symm.trans at_i))

theorem Coherent.remove (h : s.Coherent) {id : LayerId} {l : Layer}
    {s' : LayerStack} (removed : s.remove id = some (l, s')) :
    s'.Coherent := by
  obtain ⟨i, hi, -, rfl⟩ := remove_eq_some removed
  have get?_erase : ∀ k, get? { s with
      arena := Assoc.erase id s.arena, order := s.order.eraseIdx i } k =
      if k = id then none else s.get? k := by
    intro k
    simp only [get?, Assoc.get?_erase, Assoc.compare_eq_iff]
  refine
    { ascending := Assoc.erase_ascending h.ascending
      nodup := h.nodup.eraseIdx i
      mem_order := fun k => ?_
      id_of_get? := ?_ }
  · rw [get?_erase, mem_eraseIdx_iff_ne h.nodup (getElem?_position? hi),
      h.mem_order]
    by_cases eq : k = id <;> simp [eq]
  · intro k l' found
    rw [get?_erase] at found
    split at found
    · cases found
    · exact h.id_of_get? found

/-- Taking a layer out takes it out of the list. -/
theorem toList_remove (h : s.Coherent) {id : LayerId} {l : Layer}
    {s' : LayerStack} (removed : s.remove id = some (l, s')) :
    ∃ i, s.position? id = some i ∧ s'.toList = s.toList.eraseIdx i := by
  obtain ⟨i, hi, -, rfl⟩ := remove_eq_some removed
  refine ⟨i, hi, toList_eq ?_ fun l' mem => ?_⟩
  · rw [← List.eraseIdx_map, h.map_id_toList]
  · have at_i := getElem?_position? hi
    have mem' : l'.id ∈ s.order.eraseIdx i := by
      rw [← h.map_id_toList, List.eraseIdx_map]
      exact List.mem_map.mpr ⟨l', mem, rfl⟩
    have ne := ((mem_eraseIdx_iff_ne h.nodup at_i).mp mem').2
    have found := h.get?_of_mem_toList (List.mem_of_mem_eraseIdx mem)
    simp only [get?, Assoc.get?_erase, Assoc.compare_eq_iff, if_neg ne]
    exact found

/-! ## Reordering -/

/-- An order of the same layers with the same base is accepted. -/
theorem setOrder_of_perm (h : s.Coherent) {order : List LayerId}
    (perm : order.Perm s.order) (base : order.head? = s.order.head?) :
    s.setOrder order = .ok { s with order := order } := by
  unfold setOrder
  rw [if_neg, if_pos]
  · exact ⟨perm.nodup_iff.mpr h.nodup, fun id mem => perm.mem_iff.mp mem⟩
  · rintro (len | head)
    · exact len perm.length_eq
    · exact head base

/-- What an accepted order is. -/
theorem setOrder_eq_ok {order : List LayerId} {s' : LayerStack}
    (accepted : s.setOrder order = .ok s') :
    s' = { s with order := order } ∧ order.length = s.order.length ∧
      order.head? = s.order.head? ∧ order.Nodup ∧
      ∀ id ∈ order, id ∈ s.order := by
  unfold setOrder at accepted
  split at accepted
  · cases accepted
  · rename_i ne
    obtain ⟨len, head⟩ := not_or.mp ne
    split at accepted
    · rename_i ok
      exact ⟨(Except.ok.inj accepted).symm, not_not.mp len, not_not.mp head,
        ok.1, ok.2⟩
    · cases accepted

/-- An accepted order is one of the same layers. -/
theorem perm_of_setOrder {order : List LayerId} {s' : LayerStack}
    (accepted : s.setOrder order = .ok s') :
    order.Perm s.order := by
  obtain ⟨-, len, -, nodup, known⟩ := setOrder_eq_ok accepted
  exact (List.subperm_of_subset nodup known).perm_of_length_le (Nat.le_of_eq len.symm)

theorem Coherent.setOrder (h : s.Coherent) {order : List LayerId}
    {s' : LayerStack} (accepted : s.setOrder order = .ok s') :
    s'.Coherent := by
  have perm := perm_of_setOrder accepted
  obtain ⟨rfl, -, -, nodup, -⟩ := setOrder_eq_ok accepted
  exact
    { ascending := h.ascending
      nodup := nodup
      mem_order := fun id => perm.mem_iff.trans (h.mem_order id)
      id_of_get? := h.id_of_get? }

/-- Reordering a stack gives the layers under the new order. -/
theorem toList_setOrder {order : List LayerId} {s' : LayerStack}
    (accepted : s.setOrder order = .ok s') :
    s'.toList = s.arranged order := by
  obtain ⟨rfl, -⟩ := setOrder_eq_ok accepted
  rfl

/-- Reordering a stack permutes its layers. -/
theorem perm_toList_setOrder {order : List LayerId}
    {s' : LayerStack} (accepted : s.setOrder order = .ok s') :
    s'.toList.Perm s.toList := by
  rw [toList_setOrder accepted]
  exact (perm_of_setOrder accepted).filterMap s.get?

end

end Compositing.LayerStack
