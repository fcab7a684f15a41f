/-
Compositing.Proofs.Layer.Representation — how a sound stack is kept.

`WellFormed` says of the arena and the order themselves what soundness
says of the list of layers: there are layers, the arena holds exactly
those in the order, each under its own identity, no identity of a layer
or child effect comes twice, and every opacity is a finite number.
Beside it stands what edits do to the base: none moves it, takes it away
or puts anything beneath it (`KeepsBase`).
-/
import Compositing.Layer.Composition
import Compositing.Proofs.Layer.Edits

namespace Compositing

namespace LayerStack

/-- The arena and the order fit together and are fit for a pipeline. -/
structure WellFormed (s : LayerStack) : Prop where
  nonempty : s.order ≠ []
  nodup : s.order.Nodup
  keys : (s.arena.map Prod.fst).Perm s.order
  own : ∀ id l, (id, l) ∈ s.arena → l.id = id
  distinct : s.allIds.Nodup
  finite : ∀ id l, (id, l) ∈ s.arena → l.opacity.isFinite = true

variable {s : LayerStack}

theorem Coherent.perm_keys (h : s.Coherent) :
    (s.arena.map Prod.fst).Perm s.order := by
  refine (List.perm_ext_iff_of_nodup h.ascending.nodup_keys h.nodup).mpr
    fun id => ?_
  rw [h.mem_order, Option.isSome_iff_ne_none, get?, ne_eq,
    Assoc.get?_eq_none_iff, not_not]

/-- The arena holds the layers of the list. -/
theorem Coherent.perm_values (h : s.Coherent) :
    (s.arena.map Prod.snd).Perm s.toList := by
  have values : (s.arena.map Prod.fst).filterMap s.get? =
      s.arena.map Prod.snd := by
    rw [List.filterMap_map, ← List.filterMap_eq_map]
    refine List.filterMap_congr fun e mem => ?_
    exact (Assoc.get?_eq_some_iff_mem h.ascending).mpr mem
  rw [← values]
  exact h.perm_keys.filterMap s.get?

/-- The identities that the arena holds are those of the list. -/
theorem Coherent.perm_allIds (h : s.Coherent) :
    s.allIds.Perm (s.toList.flatMap Layer.ids) := by
  have ids : s.allIds = (s.arena.map Prod.snd).flatMap Layer.ids := by
    rw [List.flatMap_map]
    rfl
  rw [ids]
  exact h.perm_values.flatMap_right Layer.ids

/-- A sound stack is well-formed. -/
theorem Sound.wellFormed (h : s.Sound) : s.WellFormed where
  nonempty := by
    rw [← h.coherent.map_id_toList, ne_eq, List.map_eq_nil_iff]
    exact h.stackable.nonempty
  nodup := h.coherent.nodup
  keys := h.coherent.perm_keys
  own id l mem :=
    h.coherent.id_of_get?
      ((Assoc.get?_eq_some_iff_mem h.coherent.ascending).mpr mem)
  distinct := h.coherent.perm_allIds.nodup_iff.mpr h.stackable.distinct
  finite id l mem :=
    h.stackable.finite l
      (h.coherent.perm_values.mem_iff.mp (List.mem_map_of_mem mem))

/-! ## The base -/

/-- Nothing is put beneath the base. -/
theorem base?_insert_succ (nonempty : s.order ≠ []) (i : Nat) (l : Layer) :
    (s.insert (i + 1) l).base? = s.base? := by
  unfold base? insert
  cases order : s.order with
  | nil => exact absurd order nonempty
  | cons base rest =>
    rw [List.length_cons, Nat.add_min_add_right, List.insertIdx_succ_cons,
      List.head?_cons, List.head?_cons]

/-- Taking another layer out leaves the base. -/
theorem base?_remove {id : LayerId} {l : Layer} {s' : LayerStack}
    (other : s.base? ≠ some id) (removed : s.remove id = some (l, s')) :
    s'.base? = s.base? := by
  obtain ⟨i, place, -, rfl⟩ := remove_eq_some removed
  have at_i := getElem?_position? place
  unfold base? at other ⊢
  cases order : s.order with
  | nil => rw [List.eraseIdx_nil]
  | cons base rest =>
    cases i with
    | zero => exact absurd (List.head?_eq_getElem?.trans at_i) other
    | succ i => rfl

/-- A new order has the same base. -/
theorem base?_setOrder {order : List LayerId} {s' : LayerStack}
    (accepted : s.setOrder order = .ok s') : s'.base? = s.base? := by
  obtain ⟨rfl, -, head, -⟩ := setOrder_eq_ok accepted
  exact head

end LayerStack

/-- The edit leaves the base where it is. -/
def Edit.KeepsBase {α : Type} (change : Edit α) : Prop :=
  ∀ c : Composition, c.stack.order ≠ [] →
    (change c).2.stack.base? = c.stack.base?

namespace Composition

theorem keepsBase_editLayer (id : LayerId) (f : Layer → Layer) :
    Edit.KeepsBase (editLayer id f) := by
  intro c nonempty
  unfold editLayer
  split <;> rfl

theorem keepsBase_editChild (child : LayerId)
    (f : ChildEffect → ChildEffect) :
    Edit.KeepsBase (editChild child f) := by
  intro c nonempty
  unfold editChild
  split <;> rfl

theorem keepsBase_setEffect (id : LayerId) (effect : EffectId) :
    Edit.KeepsBase (setEffect id effect) := by
  intro c nonempty
  unfold setEffect
  split
  · split
    · rfl
    · exact keepsBase_editLayer id _ c nonempty
  · rfl

theorem keepsBase_setOffset (id : LayerId) (offset : Offset) :
    Edit.KeepsBase (setOffset id offset) := by
  intro c nonempty
  unfold setOffset
  split
  · split
    · rfl
    · exact keepsBase_editLayer id _ c nonempty
  · rfl

theorem keepsBase_patchParams (id : LayerId) (patch : Params) :
    Edit.KeepsBase (patchParams id patch) := by
  intro c nonempty
  unfold patchParams
  split
  · exact keepsBase_editLayer id _ c nonempty
  · exact keepsBase_editChild id _ c nonempty
  · rfl

theorem keepsBase_addLayer (name : String) (source : LayerSource)
    (params : Params) : Edit.KeepsBase (addLayer name source params) := by
  intro c nonempty
  obtain ⟨n, length⟩ := Nat.exists_eq_succ_of_ne_zero
    (mt List.length_eq_zero_iff.mp nonempty)
  unfold addLayer mint
  dsimp only
  rw [length]
  exact LayerStack.base?_insert_succ nonempty n _

theorem keepsBase_removeLayer (id : LayerId) :
    Edit.KeepsBase (removeLayer id) := by
  intro c nonempty
  unfold removeLayer
  split
  · rfl
  · rename_i other
    split
    · rename_i l stack removed
      exact LayerStack.base?_remove other removed
    · rfl

theorem keepsBase_duplicateLayer (id : LayerId) :
    Edit.KeepsBase (duplicateLayer id) := by
  intro c nonempty
  unfold duplicateLayer
  split
  · rename_i i l place found
    exact LayerStack.base?_insert_succ nonempty i _
  · rfl

theorem keepsBase_addChild (id : LayerId) (effect : EffectId)
    (params : Params) : Edit.KeepsBase (addChild id effect params) := by
  intro c nonempty
  unfold addChild editLayer
  simp only [mint]
  cases c.stack.get? id <;> rfl

theorem keepsBase_removeChild (child : LayerId) :
    Edit.KeepsBase (removeChild child) := by
  intro c nonempty
  unfold removeChild
  split <;> rfl

theorem keepsBase_extractChild (child : LayerId) :
    Edit.KeepsBase (extractChild child) := by
  intro c nonempty
  unfold extractChild
  split
  · exact LayerStack.base?_insert_succ nonempty _ _
  · rfl

end Composition

end Compositing
