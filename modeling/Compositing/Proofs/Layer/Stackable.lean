/-
Compositing.Proofs.Layer.Stackable — which lists of layers make a stack.

A list is `Stackable` when it has a layer, every opacity is a finite
number and no identity of a layer or child effect comes twice.
`ofLayers_eq_ok_iff`: exactly these lists make a stack, and the stack is
the list. A stack is `Sound` when it is coherent and its list is
stackable; this is what every stack of a session is.
-/
import Compositing.Proofs.Layer.Arena
import Mathlib.Data.List.Flatten
import Mathlib.Data.List.Pairwise

namespace Compositing

/-- A list of layers that can be a stack. -/
structure Stackable (layers : List Layer) : Prop where
  nonempty : layers ≠ []
  finite : ∀ l ∈ layers, l.opacity.isFinite = true
  distinct : (layers.flatMap Layer.ids).Nodup

/-- The identities of the layers are among all identities, in order. -/
theorem map_id_sublist_ids :
    ∀ layers : List Layer,
      (layers.map (·.id)).Sublist (layers.flatMap Layer.ids)
  | [] => List.Sublist.slnil
  | l :: rest => by
    rw [List.map_cons, List.flatMap_cons, Layer.ids, List.cons_append]
    exact ((map_id_sublist_ids rest).trans
      (List.sublist_append_right _ _)).cons_cons _

theorem Stackable.nodup_map_id {layers : List Layer} (h : Stackable layers) :
    (layers.map (·.id)).Nodup :=
  h.distinct.sublist (map_id_sublist_ids layers)

theorem id_mem_ids (l : Layer) : l.id ∈ l.ids :=
  List.mem_cons_self

theorem child_id_mem_ids {l : Layer} {c : ChildEffect}
    (mem : c ∈ l.children) : c.id ∈ l.ids :=
  List.mem_cons_of_mem _ (List.mem_map_of_mem mem)

theorem nodup_ids {layers : List Layer}
    (distinct : (layers.flatMap Layer.ids).Nodup) {l : Layer}
    (mem : l ∈ layers) : l.ids.Nodup :=
  (List.nodup_flatMap.mp distinct).1 l mem

/-- Among distinct identities, an identity has one owner. -/
theorem eq_of_mem_ids {layers : List Layer}
    (distinct : (layers.flatMap Layer.ids).Nodup) {l l' : Layer}
    (mem : l ∈ layers) (mem' : l' ∈ layers) {id : LayerId}
    (own : id ∈ l.ids) (own' : id ∈ l'.ids) : l = l' := by
  have pairwise := (List.nodup_flatMap.mp distinct).2
  have : Std.Symm (Function.onFun List.Disjoint Layer.ids) :=
    ⟨fun _ _ disjoint => List.disjoint_symm disjoint⟩
  by_contra ne
  exact pairwise.forall mem mem' ne own own'

/-- Child effects of one identity are one child effect. -/
theorem eq_of_child_id_eq {layers : List Layer}
    (distinct : (layers.flatMap Layer.ids).Nodup) {l : Layer}
    (mem : l ∈ layers) {c c' : ChildEffect} (mem_c : c ∈ l.children)
    (mem_c' : c' ∈ l.children) (eq : c.id = c'.id) : c = c' := by
  have nodup := nodup_ids distinct mem
  exact List.inj_on_of_nodup_map (List.nodup_cons.mp nodup).2 mem_c mem_c' eq

/-- A layer's own identity is none of its child effects'. -/
theorem id_ne_child_id {layers : List Layer}
    (distinct : (layers.flatMap Layer.ids).Nodup) {l : Layer}
    (mem : l ∈ layers) {c : ChildEffect} (mem_c : c ∈ l.children) :
    l.id ≠ c.id := by
  have nodup := nodup_ids distinct mem
  intro eq
  exact (List.nodup_cons.mp nodup).1 (eq ▸ List.mem_map_of_mem mem_c)

/-! ## Changing a stackable list -/

theorem Stackable.perm {layers layers' : List Layer} (h : Stackable layers)
    (perm : layers'.Perm layers) : Stackable layers' where
  nonempty := by
    rintro rfl
    exact h.nonempty (List.nil_perm.mp perm)
  finite l mem := h.finite l (perm.mem_iff.mp mem)
  distinct := (perm.flatMap_right Layer.ids).nodup_iff.mpr h.distinct

theorem Stackable.sublist {layers layers' : List Layer}
    (h : Stackable layers) (sub : layers'.Sublist layers)
    (nonempty : layers' ≠ []) : Stackable layers' where
  nonempty := nonempty
  finite l mem := h.finite l (sub.subset mem)
  distinct := h.distinct.sublist (sub.flatMap Layer.ids)

/-- A layer of new identities can be put in anywhere. -/
theorem Stackable.insertIdx {layers : List Layer} (h : Stackable layers)
    {l : Layer} (finite : l.opacity.isFinite = true) (nodup : l.ids.Nodup)
    (fresh : ∀ id ∈ l.ids, id ∉ layers.flatMap Layer.ids) {i : Nat}
    (hi : i ≤ layers.length) : Stackable (layers.insertIdx i l) := by
  have cons : Stackable (l :: layers) :=
    { nonempty := List.cons_ne_nil _ _
      finite := List.forall_mem_cons.mpr ⟨finite, h.finite⟩
      distinct := by
        rw [List.flatMap_cons, List.nodup_append]
        refine ⟨nodup, h.distinct, ?_⟩
        rintro a ha b hb rfl
        exact fresh a ha hb }
  exact cons.perm (List.perm_insertIdx l layers hi)

/-- A layer can give place to another one whose identities are its own
or new. -/
theorem Stackable.replace {below above : List Layer} {l l' : Layer}
    (h : Stackable (below ++ l :: above))
    (finite : l'.opacity.isFinite = true) (nodup : l'.ids.Nodup)
    (own : ∀ id ∈ l'.ids,
      id ∈ l.ids ∨ id ∉ (below ++ l :: above).flatMap Layer.ids) :
    Stackable (below ++ l' :: above) where
  nonempty := by simp
  finite := by
    intro x mem
    rcases List.mem_append.mp mem with mem | mem
    · exact h.finite x (List.mem_append_left _ mem)
    · rcases List.mem_cons.mp mem with rfl | mem
      · exact finite
      · exact h.finite x
          (List.mem_append_right _ (List.mem_cons_of_mem _ mem))
  distinct := by
    have distinct := h.distinct
    simp only [List.flatMap_append, List.flatMap_cons, List.nodup_append,
      List.mem_append] at distinct own ⊢
    obtain ⟨nodupBelow, ⟨-, nodupAbove, apartAbove⟩, apartBelow⟩ := distinct
    refine ⟨nodupBelow, ⟨nodup, nodupAbove, ?_⟩, ?_⟩
    · rintro a ha b hb rfl
      rcases own a ha with mine | new
      · exact apartAbove a mine a hb rfl
      · exact new (.inr (.inr hb))
    · rintro a ha b (hb | hb) rfl
      · rcases own a hb with mine | new
        · exact apartBelow a ha a (.inl mine) rfl
        · exact new (.inl ha)
      · exact apartBelow a ha a (.inr hb) rfl

/-- Changing the layer of one identity changes it in its place. -/
theorem exists_map_update {layers : List Layer}
    (nodup : (layers.map (·.id)).Nodup) {l : Layer} (mem : l ∈ layers)
    (f : Layer → Layer) :
    ∃ below above, layers = below ++ l :: above ∧
      (layers.map fun x => if x.id = l.id then f x else x) =
        below ++ f l :: above := by
  obtain ⟨below, above, rfl⟩ := List.append_of_mem mem
  refine ⟨below, above, rfl, ?_⟩
  have others : ∀ xs : List Layer, l.id ∉ xs.map (·.id) →
      (xs.map fun x => if x.id = l.id then f x else x) = xs := by
    intro xs notMem
    refine (List.map_congr_left fun x hx => ?_).trans (List.map_id xs)
    have ne : x.id ≠ l.id := fun eq =>
      notMem (List.mem_map.mpr ⟨x, hx, eq⟩)
    rw [if_neg ne, id]
  rw [List.map_append, List.map_cons, List.nodup_append] at nodup
  obtain ⟨-, nodupAbove, apart⟩ := nodup
  have notAbove := (List.nodup_cons.mp nodupAbove).1
  have notBelow : l.id ∉ below.map (·.id) := fun hb =>
    apart l.id hb l.id List.mem_cons_self rfl
  rw [List.map_append, List.map_cons, others below notBelow,
    others above notAbove, if_pos rfl]

namespace LayerStack

/-! ## The checks -/

/-- Identities pass when none was seen and none comes twice. -/
theorem checkIds_eq_ok_iff :
    ∀ {ids seen seen' : List LayerId}, checkIds seen ids = .ok seen' ↔
      ids.Nodup ∧ (∀ id ∈ ids, id ∉ seen) ∧ seen' = ids.reverse ++ seen
  | [], seen, seen' => by
    simp [checkIds, eq_comm]
  | id :: rest, seen, seen' => by
    unfold checkIds
    split
    · rename_i mem
      simp [mem]
    · rename_i new
      rw [checkIds_eq_ok_iff]
      constructor
      · rintro ⟨nodup, fresh, rfl⟩
        have notMem : id ∉ rest := fun mem => fresh id mem List.mem_cons_self
        refine ⟨List.nodup_cons.mpr ⟨notMem, nodup⟩, ?_, by simp⟩
        intro x mem
        rcases List.mem_cons.mp mem with rfl | mem
        · exact new
        · exact fun seen => fresh x mem (List.mem_cons_of_mem _ seen)
      · rintro ⟨nodup, fresh, rfl⟩
        obtain ⟨notMem, nodup⟩ := List.nodup_cons.mp nodup
        refine ⟨nodup, ?_, by simp⟩
        intro x mem seen
        rcases List.mem_cons.mp seen with rfl | seen
        · exact notMem mem
        · exact fresh x (List.mem_cons_of_mem _ mem) seen

/-- Layers pass when all opacities are finite and all identities are new
and distinct. -/
theorem checkLayers_eq_ok_iff :
    ∀ {layers : List Layer} {seen : List LayerId},
      checkLayers seen layers = .ok () ↔
        (∀ l ∈ layers, l.opacity.isFinite = true) ∧
        (layers.flatMap Layer.ids).Nodup ∧
        ∀ id ∈ layers.flatMap Layer.ids, id ∉ seen
  | [], seen => by simp [checkLayers]
  | l :: rest, seen => by
    unfold checkLayers
    by_cases finite : l.opacity.isFinite = true
    · rw [if_pos finite]
      cases ids : checkIds seen l.ids with
      | error e =>
        simp only [reduceCtorEq, false_iff]
        rintro ⟨-, nodup, fresh⟩
        rw [List.flatMap_cons] at nodup fresh
        have pass := checkIds_eq_ok_iff.mpr
          ⟨(List.nodup_append.mp nodup).1,
            fun id mem => fresh id (List.mem_append_left _ mem), rfl⟩
        rw [ids] at pass
        cases pass
      | ok seen' =>
        obtain ⟨nodup, fresh, rfl⟩ := checkIds_eq_ok_iff.mp ids
        have ih : checkLayers (l.ids.reverse ++ seen) rest = .ok () ↔ _ :=
          checkLayers_eq_ok_iff
        simp only [ih, List.mem_append, List.mem_reverse, not_or,
          List.flatMap_cons, List.nodup_append, List.forall_mem_cons]
        constructor
        · rintro ⟨fin, nodup', fresh'⟩
          refine ⟨⟨finite, fin⟩, ⟨nodup, nodup', ?_⟩, ?_⟩
          · rintro a ha b hb rfl
            exact (fresh' a hb).1 ha
          · rintro id (mem | mem)
            · exact fresh id mem
            · exact (fresh' id mem).2
        · rintro ⟨⟨-, fin⟩, ⟨-, nodup', apart⟩, fresh'⟩
          refine ⟨fin, nodup', fun id mem => ⟨?_, fresh' id (.inr mem)⟩⟩
          exact fun own => apart id own id mem rfl
    · rw [if_neg finite]
      simp [finite]

/-- The stack that a stackable list makes. -/
def ofStackable (layers : List Layer) : LayerStack :=
  { arena := Assoc.ofList (layers.map fun l => (l.id, l))
    order := layers.map (·.id) }

/-- Exactly the stackable lists make a stack. -/
theorem ofLayers_eq_ok_iff {layers : List Layer} {s : LayerStack} :
    ofLayers layers = .ok s ↔ Stackable layers ∧ s = ofStackable layers := by
  cases layers with
  | nil =>
    simp only [ofLayers, reduceCtorEq, false_iff]
    exact fun h => h.1.nonempty rfl
  | cons l rest =>
    unfold ofLayers
    cases check : checkLayers [] (l :: rest) with
    | ok u =>
      have h := checkLayers_eq_ok_iff.mp check
      simp only [Except.ok.injEq]
      constructor
      · rintro rfl
        exact ⟨⟨List.cons_ne_nil _ _, h.1, h.2.1⟩, rfl⟩
      · exact fun h => h.2.symm
    | error e =>
      simp only [reduceCtorEq, false_iff]
      rintro ⟨h, -⟩
      have pass := checkLayers_eq_ok_iff.mpr
        ⟨h.finite, h.distinct, fun _ _ => List.not_mem_nil⟩
      rw [check] at pass
      cases pass

/-! ## The stack of a list -/

/-- The stack of a list of distinct identities finds its layers. -/
theorem get?_ofStackable {layers : List Layer}
    (nodup : (layers.map (·.id)).Nodup) {id : LayerId} {l : Layer} :
    (ofStackable layers).get? id = some l ↔ l ∈ layers ∧ l.id = id := by
  have keys : ((layers.map fun l => (l.id, l)).map Prod.fst).Nodup := by
    rw [List.map_map]
    exact nodup
  unfold get? ofStackable
  rw [Assoc.get?_ofList id keys]
  constructor
  · intro found
    obtain ⟨l', mem, eq⟩ := List.mem_map.mp (Assoc.mem_of_get?_eq_some found)
    obtain ⟨rfl, rfl⟩ := Prod.mk.inj eq
    exact ⟨mem, rfl⟩
  · rintro ⟨mem, rfl⟩
    exact Assoc.get?_of_mem keys (List.mem_map.mpr ⟨l, mem, rfl⟩)

/-- The stack of a list is the list. -/
theorem toList_ofStackable {layers : List Layer}
    (nodup : (layers.map (·.id)).Nodup) :
    (ofStackable layers).toList = layers :=
  toList_eq rfl fun _ mem => (get?_ofStackable nodup).mpr ⟨mem, rfl⟩

theorem coherent_ofStackable {layers : List Layer}
    (nodup : (layers.map (·.id)).Nodup) : (ofStackable layers).Coherent where
  ascending := Assoc.ofList_ascending _
  nodup := nodup
  mem_order id := by
    rw [Option.isSome_iff_exists]
    simp only [get?_ofStackable nodup]
    exact List.mem_map
  id_of_get? found := ((get?_ofStackable nodup).mp found).2

/-! ## Sound stacks -/

/-- The stack is coherent and its layers can be a stack. -/
structure Sound (s : LayerStack) : Prop where
  coherent : s.Coherent
  stackable : Stackable s.toList

theorem sound_ofStackable {layers : List Layer} (h : Stackable layers) :
    (ofStackable layers).Sound where
  coherent := coherent_ofStackable h.nodup_map_id
  stackable := by
    rw [toList_ofStackable h.nodup_map_id]
    exact h

/-- A stack that was made of a list is sound. -/
theorem sound_of_ofLayers {layers : List Layer} {s : LayerStack}
    (made : ofLayers layers = .ok s) : s.Sound := by
  obtain ⟨h, rfl⟩ := ofLayers_eq_ok_iff.mp made
  exact sound_ofStackable h

/-- A stack that was made of a list is the list. -/
theorem toList_of_ofLayers {layers : List Layer} {s : LayerStack}
    (made : ofLayers layers = .ok s) : s.toList = layers := by
  obtain ⟨h, rfl⟩ := ofLayers_eq_ok_iff.mp made
  exact toList_ofStackable h.nodup_map_id

/-- A stackable list makes a stack. -/
theorem exists_ofLayers {layers : List Layer} (h : Stackable layers) :
    ∃ s, ofLayers layers = .ok s :=
  ⟨_, ofLayers_eq_ok_iff.mpr ⟨h, rfl⟩⟩

end LayerStack

end Compositing
