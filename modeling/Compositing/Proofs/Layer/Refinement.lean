/-
Compositing.Proofs.Layer.Refinement — a stack behaves as the list of its
layers.

A coherent stack `Represents` the list of its layers. Each question to
the stack is answered as the list answers it, and each change of the stack
is the same change of the list (`Coherent.refines`). So whatever changes
follow one another, the arena and the order never come apart
(`Represents.run`): no layer is lost for want of an entry.
-/
import Compositing.Proofs.Layer.Refusals
import Compositing.Proofs.Layer.Representation

namespace Compositing

namespace LayerStack

/-- The arena and the order fit together, and the layers in this order are
the list. -/
structure Represents (s : LayerStack) (layers : List Layer) : Prop where
  coherent : s.Coherent
  toList_eq : s.toList = layers

theorem Coherent.represents {s : LayerStack} (h : s.Coherent) :
    s.Represents s.toList :=
  ⟨h, rfl⟩

/-- Among distinct identities, the list without the first layer of an
identity is the list of the others. -/
theorem eraseIdx_eq_filter {id : LayerId} :
    ∀ {layers : List Layer} {i : Nat}, (layers.map (·.id)).Nodup →
      (layers.findIdx? fun l => l.id = id) = some i →
        layers.eraseIdx i = layers.filter fun l => l.id ≠ id
  | [], _, _, place => by cases place
  | l :: rest, i, distinct, place => by
    obtain ⟨new, distinct⟩ := List.nodup_cons.mp distinct
    rw [List.findIdx?_cons] at place
    by_cases own : l.id = id
    · rw [if_pos (decide_eq_true own)] at place
      obtain rfl := Option.some.inj place
      have others : ∀ l' ∈ rest, decide (l'.id ≠ id) = true := by
        intro l' mem
        refine decide_eq_true fun own' => new ?_
        exact List.mem_map.mpr ⟨l', mem, own'.trans own.symm⟩
      rw [List.eraseIdx_cons_zero, List.filter_cons_of_neg (by simp [own]),
        List.filter_eq_self.mpr others]
    · rw [if_neg (by simp [own])] at place
      obtain ⟨j, above, rfl⟩ := Option.map_eq_some_iff.mp place
      rw [List.eraseIdx_cons_succ, eraseIdx_eq_filter distinct above,
        List.filter_cons_of_pos (by simpa using own)]

/-! ## Questions -/

namespace Represents

variable {s : LayerStack} {layers : List Layer} (h : s.Represents layers)

include h

theorem map_id_eq : layers.map (·.id) = s.order := by
  rw [← h.toList_eq]
  exact h.coherent.map_id_toList

theorem get?_eq (id : LayerId) :
    s.get? id = layers.find? fun l => l.id = id := by
  obtain ⟨coherent, rfl⟩ := h
  cases found : s.get? id with
  | none =>
    refine (List.find?_eq_none.mpr fun l mem own => ?_).symm
    rw [coherent.get?_eq_some_iff.mpr ⟨mem, of_decide_eq_true own⟩] at found
    cases found
  | some l =>
    obtain ⟨mem, own⟩ := coherent.get?_eq_some_iff.mp found
    have some : (s.toList.find? fun l => l.id = id).isSome = true :=
      List.find?_isSome.mpr ⟨l, mem, decide_eq_true own⟩
    obtain ⟨l', first⟩ := Option.isSome_iff_exists.mp some
    have own' : l'.id = id := of_decide_eq_true
      (List.find?_some (p := fun l : Layer => decide (l.id = id)) first)
    rw [first, ← found]
    exact coherent.get?_eq_some_iff.mpr
      ⟨List.mem_of_find?_eq_some first, own'⟩

theorem position?_eq (id : LayerId) :
    s.position? id = layers.findIdx? fun l => l.id = id := by
  rw [position?, ← h.map_id_eq, List.findIdx?_map]
  rfl

theorem base?_eq : s.base? = layers.head?.map (·.id) := by
  rw [base?, ← h.map_id_eq, List.head?_map]

theorem size_eq : s.size = layers.length := by
  rw [size, ← h.map_id_eq, List.length_map]

theorem isEmpty_eq : s.isEmpty = layers.isEmpty := by
  rw [isEmpty, ← h.map_id_eq, List.isEmpty_map]

theorem findChild_eq (child : LayerId) :
    s.findChild child = layers.findSome? fun l =>
      (l.children.findIdx? (·.id = child)).map fun i => (l.id, i) := by
  rw [findChild, h.toList_eq]

theorem perm_allIds : s.allIds.Perm (layers.flatMap Layer.ids) := by
  rw [← h.toList_eq]
  exact h.coherent.perm_allIds

theorem arranged_eq (order : List LayerId) :
    s.arranged order =
      order.filterMap fun id => layers.find? fun l => l.id = id :=
  List.filterMap_congr fun id _ => h.get?_eq id

/-! ## Changes -/

theorem insert {l : Layer} (fresh : l.id ∉ layers.map (·.id)) (i : Nat) :
    (s.insert i l).Represents
      (layers.insertIdx (min i layers.length) l) := by
  rw [h.map_id_eq] at fresh
  refine ⟨h.coherent.insert fresh i, ?_⟩
  rw [toList_insert h.coherent fresh, h.toList_eq, ← h.size_eq, size]

end Represents

/-- What is taken out of a stack is what its list has under the identity,
and the others are left. -/
theorem Represents.remove {s s' : LayerStack} {layers : List Layer}
    (h : s.Represents layers) {id : LayerId} {l : Layer}
    (removed : s.remove id = some (l, s')) :
    (layers.find? fun l => l.id = id) = some l ∧
      s'.Represents (layers.filter fun l => l.id ≠ id) := by
  obtain ⟨i, place, found, -⟩ := remove_eq_some removed
  obtain ⟨i', place', left⟩ := toList_remove h.coherent removed
  obtain rfl := Option.some.inj (place.symm.trans place')
  refine ⟨(h.get?_eq id).symm.trans found, h.coherent.remove removed, ?_⟩
  have distinct : (layers.map (·.id)).Nodup := by
    rw [h.map_id_eq]
    exact h.coherent.nodup
  rw [h.position?_eq] at place
  rw [left, h.toList_eq, eraseIdx_eq_filter distinct place]

theorem Represents.remove_eq_none_iff {s : LayerStack} {layers : List Layer}
    (h : s.Represents layers) {id : LayerId} :
    s.remove id = none ↔ id ∉ layers.map (·.id) := by
  rw [h.map_id_eq, h.coherent.mem_order]
  constructor
  · intro kept found
    obtain ⟨l, found⟩ := Option.isSome_iff_exists.mp found
    obtain ⟨i, place⟩ := h.coherent.exists_position? found
    rw [LayerStack.remove, place, found] at kept
    cases kept
  · intro missing
    have found : s.get? id = none := Option.not_isSome_iff_eq_none.mp missing
    unfold LayerStack.remove
    rw [found]
    split
    · rename_i absent
      cases absent
    · rfl

/-- Functions that agree on the layer that is found change the stack
alike. -/
theorem modify_congr {s : LayerStack} (h : s.Coherent) {id : LayerId}
    {f g : Layer → Layer}
    (agree : ∀ l, s.get? id = some l → f l = g l) :
    s.modify id f = s.modify id g := by
  unfold LayerStack.modify Assoc.modify
  congr 1
  refine List.map_congr_left ?_
  rintro ⟨key, l⟩ mem
  dsimp only
  split
  · rename_i eq
    obtain rfl := Assoc.compare_eq_iff.mp eq
    rw [agree l ((Assoc.get?_eq_some_iff_mem h.ascending).mpr mem)]
  · rfl

/-- Changing one layer, but not its identity, changes it in the list. -/
theorem Represents.modify {s : LayerStack} {layers : List Layer}
    (h : s.Represents layers) {id : LayerId} {f : Layer → Layer}
    (keeps : ∀ l ∈ layers, l.id = id → (f l).id = id) :
    (s.modify id f).Represents
      (layers.map fun l => if l.id = id then f l else l) := by
  -- What `f` does to the identities of other layers does not matter.
  obtain ⟨g, neutral, agree⟩ : ∃ g : Layer → Layer,
      (∀ l, (g l).id = l.id) ∧ ∀ l ∈ layers, l.id = id → f l = g l := by
    refine ⟨fun l => { f l with id := l.id }, fun _ => rfl, ?_⟩
    intro l mem own
    show f l = { f l with id := l.id }
    rw [own, ← keeps l mem own]
  have same : s.modify id f = s.modify id g := by
    refine modify_congr h.coherent fun l found => ?_
    obtain ⟨mem, own⟩ := h.coherent.get?_eq_some_iff.mp found
    exact agree l (h.toList_eq ▸ mem) own
  rw [same]
  refine ⟨h.coherent.modify neutral, ?_⟩
  rw [toList_modify h.coherent neutral, h.toList_eq]
  refine List.map_congr_left fun l mem => ?_
  by_cases own : l.id = id
  · rw [if_pos own, if_pos own, agree l mem own]
  · rw [if_neg own, if_neg own]

/-- An order is accepted if it is one of the same layers with the same
base. -/
theorem Represents.exists_setOrder_iff {s : LayerStack} {layers : List Layer}
    (h : s.Represents layers) {order : List LayerId} :
    (∃ s', s.setOrder order = .ok s') ↔
      order.Perm (layers.map (·.id)) ∧
        order.head? = layers.head?.map (·.id) := by
  rw [← h.base?_eq, h.map_id_eq]
  constructor
  · rintro ⟨s', accepted⟩
    exact ⟨perm_of_setOrder accepted, (setOrder_eq_ok accepted).2.2.1⟩
  · rintro ⟨perm, base⟩
    exact ⟨_, setOrder_of_perm h.coherent perm base⟩

/-- Reordering gives the layers under the new order. -/
theorem Represents.setOrder {s s' : LayerStack} {layers : List Layer}
    (h : s.Represents layers) {order : List LayerId}
    (accepted : s.setOrder order = .ok s') :
    s'.Represents (s.arranged order) :=
  ⟨h.coherent.setOrder accepted, toList_setOrder accepted⟩

/-- Under a permutation of their identities the layers are permuted. -/
theorem Represents.perm_arranged {s : LayerStack} {layers : List Layer}
    (h : s.Represents layers) {order : List LayerId}
    (perm : order.Perm (layers.map (·.id))) :
    (s.arranged order).Perm layers ∧
      (s.arranged order).map (·.id) = order := by
  rw [h.map_id_eq] at perm
  refine ⟨?_, h.coherent.map_id_arranged fun id => perm.mem_iff.mp⟩
  rw [← h.toList_eq]
  exact perm.filterMap s.get?

/-- What the stack is asked the list answers, and what is done to the stack
is done to the list. -/
structure Refines (s : LayerStack) (layers : List Layer) : Prop where
  get : ∀ id, s.get? id = layers.find? fun l => l.id = id
  position : ∀ id, s.position? id = layers.findIdx? fun l => l.id = id
  base : s.base? = layers.head?.map (·.id)
  size : s.size = layers.length
  isEmpty : s.isEmpty = layers.isEmpty
  findChild : ∀ child, s.findChild child = layers.findSome? fun l =>
    (l.children.findIdx? (·.id = child)).map fun i => (l.id, i)
  allIds : s.allIds.Perm (layers.flatMap Layer.ids)
  insert : ∀ (i : Nat) (l : Layer), l.id ∉ layers.map (·.id) →
    (s.insert i l).Represents (layers.insertIdx (min i layers.length) l)
  /-- What is removed is the layer that the list has, and the others are
  left. -/
  remove : ∀ {id : LayerId} {l : Layer} {s' : LayerStack},
    s.remove id = some (l, s') →
      (layers.find? fun l => l.id = id) = some l ∧
        s'.Represents (layers.filter fun l => l.id ≠ id)
  /-- Nothing is removed exactly if no layer has the identity. -/
  remove_none : ∀ id, s.remove id = none ↔ id ∉ layers.map (·.id)
  modify : ∀ (id : LayerId) (f : Layer → Layer),
    (∀ l ∈ layers, l.id = id → (f l).id = id) →
      (s.modify id f).Represents
        (layers.map fun l => if l.id = id then f l else l)
  /-- An accepted order permutes the layers. -/
  setOrder : ∀ {order : List LayerId} {s' : LayerStack},
    s.setOrder order = .ok s' →
      ∃ layers', s'.Represents layers' ∧ layers'.Perm layers ∧
        layers'.map (·.id) = order
  /-- The orders that are accepted are permutations with the same base. -/
  accepted : ∀ order, (∃ s', s.setOrder order = .ok s') ↔
    order.Perm (layers.map (·.id)) ∧ order.head? = layers.head?.map (·.id)
  arranged : ∀ order, s.arranged order =
    order.filterMap fun id => layers.find? fun l => l.id = id
  /-- Under an accepted order stand the layers that reordering gives. -/
  arranged_setOrder : ∀ {order : List LayerId} {s' : LayerStack},
    s.setOrder order = .ok s' → s.arranged order = s'.toList

/-- A coherent stack refines the list of its layers. -/
theorem Coherent.refines {s : LayerStack} (h : s.Coherent) :
    s.Refines s.toList := by
  have stands := h.represents
  exact
    { get := stands.get?_eq
      position := stands.position?_eq
      base := stands.base?_eq
      size := stands.size_eq
      isEmpty := stands.isEmpty_eq
      findChild := stands.findChild_eq
      allIds := stands.perm_allIds
      insert := fun i _ fresh => stands.insert fresh i
      remove := stands.remove
      remove_none := fun _ => stands.remove_eq_none_iff
      modify := fun _ _ => stands.modify
      setOrder := fun accepted =>
        ⟨_, stands.setOrder accepted,
          stands.perm_arranged
            (stands.exists_setOrder_iff.mp ⟨_, accepted⟩).1⟩
      accepted := fun _ => stands.exists_setOrder_iff
      arranged := stands.arranged_eq
      arranged_setOrder := fun accepted => (toList_setOrder accepted).symm }

/-- The arena holds the layers in another order than the stack. -/
theorem refines_of_reordered :
    let layers : List Layer :=
      [{ id := .ofNat 1, source := .effect none },
        { id := .ofNat 2, source := .media "a.png" .image },
        { id := .ofNat 5, source := .effect none
          children := [{ id := .ofNat 4, effect := EffectId.blend }] }]
    let s : LayerStack :=
      { ofStackable layers with
        order := [.ofNat 1, .ofNat 5, .ofNat 2] }
    s.Coherent ∧ s.toList.map (·.id) = [.ofNat 1, .ofNat 5, .ofNat 2] ∧
      s.Refines s.toList := by
  intro layers s
  have coherent : s.Coherent := by
    have listed : (ofStackable layers).Coherent :=
      coherent_ofStackable (by decide +kernel)
    exact listed.setOrder
      (setOrder_of_perm listed (by decide +kernel) (by decide +kernel))
  exact ⟨coherent, by decide +kernel, coherent.refines⟩

/-! ## Changes one after another -/

/-- A change of a stack. -/
inductive Change where
  | insert (index : Nat) (l : Layer)
  | remove (id : LayerId)
  | modify (id : LayerId) (f : Layer → Layer)
  | setOrder (order : List LayerId)

namespace Change

/-- What the change makes of a stack. A change that is not possible leaves
it. -/
def onStack : Change → LayerStack → LayerStack
  | .insert i l, s => s.insert i l
  | .remove id, s => ((s.remove id).map Prod.snd).getD s
  | .modify id f, s => s.modify id f
  | .setOrder order, s => (s.setOrder order).toOption.getD s

/-- What the change makes of a list. -/
def onList : Change → List Layer → List Layer
  | .insert i l, layers => layers.insertIdx (min i layers.length) l
  | .remove id, layers => layers.filter fun l => l.id ≠ id
  | .modify id f, layers => layers.map fun l => if l.id = id then f l else l
  | .setOrder order, layers =>
    if order.Perm (layers.map (·.id)) ∧
        order.head? = layers.head?.map (·.id) then
      order.filterMap fun id => layers.find? fun l => l.id = id
    else layers

/-- The change brings in a new identity and renames no layer. -/
def Fits : Change → List Layer → Prop
  | .insert _ l, layers => l.id ∉ layers.map (·.id)
  | .modify id f, layers => ∀ l ∈ layers, l.id = id → (f l).id = id
  | .remove _, _ | .setOrder _, _ => True

/-- Each of several changes fits what those before it leave. -/
def FitInTurn : List Change → List Layer → Prop
  | [], _ => True
  | change :: rest, layers =>
    change.Fits layers ∧ FitInTurn rest (change.onList layers)

end Change

/-- One change of the stack is that change of the list. -/
theorem Represents.step {s : LayerStack} {layers : List Layer}
    (h : s.Represents layers) {change : Change} (fits : change.Fits layers) :
    (change.onStack s).Represents (change.onList layers) := by
  cases change with
  | insert i l => exact h.insert fits i
  | modify id f => exact h.modify fits
  | remove id =>
    cases removed : s.remove id with
    | some out =>
      rw [Change.onStack, removed]
      exact (h.remove removed).2
    | none =>
      have missing := h.remove_eq_none_iff.mp removed
      have others : (layers.filter fun l => l.id ≠ id) = layers := by
        refine List.filter_eq_self.mpr fun l mem => decide_eq_true ?_
        exact fun own => missing (List.mem_map.mpr ⟨l, mem, own⟩)
      rw [Change.onStack, removed, Change.onList, others]
      exact h
  | setOrder order =>
    rw [Change.onList, ← h.arranged_eq]
    cases result : s.setOrder order with
    | ok s' =>
      rw [Change.onStack, result,
        if_pos (h.exists_setOrder_iff.mp ⟨s', result⟩)]
      exact h.setOrder result
    | error e =>
      rw [Change.onStack, result, if_neg]
      · exact h
      · intro fine
        obtain ⟨s', accepted⟩ := h.exists_setOrder_iff.mpr fine
        rw [result] at accepted
        cases accepted

/-- Any changes of the stack are these changes of the list. -/
theorem Represents.run :
    ∀ {changes : List Change} {s : LayerStack} {layers : List Layer},
      s.Represents layers → Change.FitInTurn changes layers →
        (changes.foldl (fun s change => change.onStack s) s).Represents
          (changes.foldl (fun layers change => change.onList layers) layers)
  | [], _, _, h, _ => h
  | _ :: _, _, _, h, fit => (h.step fit.1).run fit.2

end LayerStack

end Compositing
