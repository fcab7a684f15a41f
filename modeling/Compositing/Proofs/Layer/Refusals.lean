/-
Compositing.Proofs.Layer.Refusals — which edits a list of layers refuses.

Whether an edit is refused, and why, is read off the list of layers:
whether it has a layer or a child effect of some identity, which layer is
the base, which one shows media or is locked. `Answers` says that a result
is refused for exactly that reason and what is then left; there is one
lemma for each edit of a coherent stack.
-/
import Compositing.Layer.Composition
import Compositing.Proofs.Layer.Edits

namespace Compositing

/-! ## Reasons -/

/-- There is a layer of this identity. -/
def HasLayer (layers : List Layer) (id : LayerId) : Prop :=
  ∃ l ∈ layers, l.id = id

/-- There is a child effect of this identity. -/
def HasChild (layers : List Layer) (id : LayerId) : Prop :=
  ∃ l ∈ layers, ∃ child ∈ l.children, child.id = id

/-- The layer of this identity shows media. -/
def ShowsMedia (layers : List Layer) (id : LayerId) : Prop :=
  ∃ l ∈ layers, l.id = id ∧ l.media?.isSome = true

/-- The layer of this identity is locked. -/
def IsLocked (layers : List Layer) (id : LayerId) : Prop :=
  ∃ l ∈ layers, l.id = id ∧ l.locked = true

/-- The lowest layer has this identity. -/
def IsBase (layers : List Layer) (id : LayerId) : Prop :=
  layers.head?.map (·.id) = some id

section

variable (layers : List Layer) (id : LayerId)

instance : Decidable (HasLayer layers id) :=
  inferInstanceAs (Decidable (∃ l ∈ layers, _))

instance : Decidable (HasChild layers id) :=
  inferInstanceAs (Decidable (∃ l ∈ layers, ∃ child ∈ l.children, _))

instance : Decidable (ShowsMedia layers id) :=
  inferInstanceAs (Decidable (∃ l ∈ layers, _ ∧ _))

instance : Decidable (IsLocked layers id) :=
  inferInstanceAs (Decidable (∃ l ∈ layers, _ ∧ _))

instance : Decidable (IsBase layers id) :=
  inferInstanceAs (Decidable (_ = _))

/-- The error for a layer that is not there. -/
def missingLayer? : Option Error :=
  if HasLayer layers id then none else some (.unknownLayer id)

/-- The error for a child effect that is not there. -/
def missingChild? : Option Error :=
  if HasChild layers id then none else some (.unknownChild id)

end

/-- The operation is refused for `reason?` and nothing else, and leaves
`left` when it is. -/
def Answers {α β : Type} (reason? : Option Error) (left : β)
    (result : Except Error α × β) : Prop :=
  match reason? with
  | some e => result = (.error e, left)
  | none => ∃ value, result.1 = .ok value

namespace LayerStack.Coherent

variable {s : LayerStack}

/-! ## Looking into a coherent stack -/

theorem get?_eq_some_iff (h : s.Coherent) {id : LayerId} {l : Layer} :
    s.get? id = some l ↔ l ∈ s.toList ∧ l.id = id := by
  constructor
  · exact fun found => ⟨h.mem_toList_of_get? found, h.id_of_get? found⟩
  · rintro ⟨mem, rfl⟩
    exact h.get?_of_mem_toList mem

theorem missingLayer?_of_get?_eq_none (h : s.Coherent) {id : LayerId}
    (found : s.get? id = none) :
    missingLayer? s.toList id = some (.unknownLayer id) := by
  refine if_neg ?_
  rintro ⟨l, here⟩
  rw [h.get?_eq_some_iff.mpr here] at found
  cases found

theorem missingLayer?_of_get?_eq_some (h : s.Coherent) {id : LayerId}
    {l : Layer} (found : s.get? id = some l) :
    missingLayer? s.toList id = none :=
  if_pos ⟨l, h.get?_eq_some_iff.mp found⟩

/-- What holds of the layer of an identity holds of the one that is
found. -/
theorem exists_layer_iff (h : s.Coherent) {id : LayerId} {l : Layer}
    (found : s.get? id = some l) {p : Layer → Prop} :
    (∃ l ∈ s.toList, l.id = id ∧ p l) ↔ p l := by
  constructor
  · rintro ⟨l', mem, eq, holds⟩
    have found' := h.get?_eq_some_iff.mpr ⟨mem, eq⟩
    rw [found] at found'
    exact Option.some.inj found' ▸ holds
  · intro holds
    obtain ⟨mem, eq⟩ := h.get?_eq_some_iff.mp found
    exact ⟨l, mem, eq, holds⟩

theorem not_exists_layer (h : s.Coherent) {id : LayerId}
    (found : s.get? id = none) {p : Layer → Prop} :
    ¬ ∃ l ∈ s.toList, l.id = id ∧ p l := by
  rintro ⟨l, mem, eq, -⟩
  rw [h.get?_eq_some_iff.mpr ⟨mem, eq⟩] at found
  cases found

theorem exists_position? (h : s.Coherent) {id : LayerId} {l : Layer}
    (found : s.get? id = some l) : ∃ i, s.position? id = some i := by
  have mem : id ∈ s.order := (h.mem_order id).mpr (by rw [found]; rfl)
  have some : (s.order.findIdx? (· = id)).isSome = true := by
    rw [List.findIdx?_isSome, List.any_eq_true]
    exact ⟨id, mem, decide_eq_true rfl⟩
  exact Option.isSome_iff_exists.mp some

theorem base?_eq_some_iff (h : s.Coherent) {id : LayerId} :
    s.base? = some id ↔ IsBase s.toList id := by
  rw [IsBase, ← List.head?_map, h.map_id_toList]
  rfl

end LayerStack.Coherent

theorem LayerStack.hasChild_iff {s : LayerStack} {child : LayerId} :
    HasChild s.toList child ↔ (s.findChild child).isSome = true := by
  rw [findChild, List.findSome?_isSome_iff]
  refine exists_congr fun l => and_congr_right fun _ => ?_
  simp [List.findIdx?_isSome]

theorem LayerStack.missingChild?_eq (s : LayerStack) (child : LayerId) :
    missingChild? s.toList child =
      if (s.findChild child).isSome then none
      else some (.unknownChild child) := by
  simp only [missingChild?, hasChild_iff]

namespace Composition

variable {c : Composition}

/-- A child effect that is found can be located. -/
theorem isSome_locate (h : c.stack.Coherent) (child : LayerId) :
    (c.locate child).isSome = (c.stack.findChild child).isSome := by
  cases place : c.stack.findChild child with
  | none =>
    rw [locate, place]
    rfl
  | some found =>
    obtain ⟨l, mem, owner, at_i⟩ := findChild_eq_some place
    obtain ⟨lt, -⟩ := List.findIdx?_eq_some_iff_getElem.mp at_i
    simp [locate, place, ← owner, h.get?_of_mem_toList mem, lt]

/-! ## Answers of the edits -/

theorem answers_editLayer (h : c.stack.Coherent) (id : LayerId)
    (f : Layer → Layer) :
    Answers (missingLayer? c.layers id) c (editLayer id f c) := by
  unfold layers editLayer
  cases found : c.stack.get? id with
  | none =>
    rw [h.missingLayer?_of_get?_eq_none found]
    rfl
  | some l =>
    rw [h.missingLayer?_of_get?_eq_some found]
    exact ⟨_, rfl⟩

theorem answers_editChild (c : Composition) (child : LayerId)
    (f : ChildEffect → ChildEffect) :
    Answers (missingChild? c.layers child) c (editChild child f c) := by
  unfold layers editChild
  rw [c.stack.missingChild?_eq]
  cases c.stack.findChild child with
  | none => rfl
  | some place => exact ⟨_, rfl⟩

theorem answers_removeLayer (h : c.stack.Coherent) (id : LayerId) :
    Answers
      (if IsBase c.layers id then some .baseRemoval
        else missingLayer? c.layers id)
      c (removeLayer id c) := by
  unfold layers removeLayer
  simp only [h.base?_eq_some_iff]
  split
  · rfl
  · unfold LayerStack.remove
    cases found : c.stack.get? id with
    | none =>
      rw [h.missingLayer?_of_get?_eq_none found]
      cases c.stack.position? id <;> rfl
    | some l =>
      obtain ⟨i, place⟩ := h.exists_position? found
      rw [h.missingLayer?_of_get?_eq_some found, place]
      exact ⟨_, rfl⟩

theorem answers_duplicateLayer (h : c.stack.Coherent) (id : LayerId) :
    Answers (missingLayer? c.layers id) c (duplicateLayer id c) := by
  unfold layers duplicateLayer
  cases found : c.stack.get? id with
  | none =>
    rw [h.missingLayer?_of_get?_eq_none found]
    cases c.stack.position? id <;> rfl
  | some l =>
    obtain ⟨i, place⟩ := h.exists_position? found
    rw [h.missingLayer?_of_get?_eq_some found, place]
    exact ⟨_, rfl⟩

/-- An edit of one layer that some layers do not allow. -/
theorem answers_guarded (h : c.stack.Coherent) (id : LayerId)
    (f : Layer → Layer) (e : Error) {bad : Layer → Prop} [DecidablePred bad]
    {guard : Prop} [Decidable guard]
    (same : guard ↔ ∃ l ∈ c.layers, l.id = id ∧ bad l) :
    Answers (if guard then some e else missingLayer? c.layers id) c
      (match c.stack.get? id with
        | some l => if bad l then (.error e, c) else editLayer id f c
        | none => (.error (.unknownLayer id), c)) := by
  cases found : c.stack.get? id with
  | none =>
    rw [if_neg (mt same.mp (h.not_exists_layer found)), layers,
      h.missingLayer?_of_get?_eq_none found]
    rfl
  | some l =>
    by_cases holds : bad l
    · rw [if_pos (same.mpr ((h.exists_layer_iff found).mpr holds))]
      simp only [if_pos holds]
      rfl
    · rw [if_neg (mt same.mp (mt (h.exists_layer_iff found).mp holds))]
      simp only [if_neg holds]
      exact answers_editLayer h id f

theorem answers_setEffect (h : c.stack.Coherent) (id : LayerId)
    (effect : EffectId) :
    Answers
      (if ShowsMedia c.layers id then some (.mediaLayer id)
        else missingLayer? c.layers id)
      c (setEffect id effect c) :=
  answers_guarded h id _ _ Iff.rfl

theorem answers_setOffset (h : c.stack.Coherent) (id : LayerId)
    (offset : Offset) :
    Answers
      (if IsLocked c.layers id then some (.lockedLayer id)
        else missingLayer? c.layers id)
      c (setOffset id offset c) :=
  answers_guarded h id _ _ Iff.rfl

theorem answers_patchParams (h : c.stack.Coherent) (id : LayerId)
    (patch : Params) :
    Answers
      (if HasChild c.layers id then none else missingLayer? c.layers id)
      c (patchParams id patch c) := by
  unfold patchParams
  simp only [layers, LayerStack.hasChild_iff]
  cases found : c.stack.get? id with
  | none =>
    rw [h.missingLayer?_of_get?_eq_none found]
    cases place : c.stack.findChild id with
    | none => rfl
    | some place' =>
      simp only [editChild, place]
      exact ⟨_, rfl⟩
  | some l =>
    rw [h.missingLayer?_of_get?_eq_some found, ite_self]
    simp only [editLayer, found]
    exact ⟨_, rfl⟩

/-- The identity of a new child effect is handed out even if there is no
layer for it. -/
theorem answers_addChild (h : c.stack.Coherent) (id : LayerId)
    (effect : EffectId) (params : Params) :
    Answers (missingLayer? c.layers id) c.mint.2
      (addChild id effect params c) := by
  unfold layers addChild editLayer
  simp only [mint]
  cases found : c.stack.get? id with
  | none =>
    rw [h.missingLayer?_of_get?_eq_none found]
    rfl
  | some l =>
    rw [h.missingLayer?_of_get?_eq_some found]
    exact ⟨_, rfl⟩

theorem answers_removeChild (h : c.stack.Coherent) (child : LayerId) :
    Answers (missingChild? c.layers child) c (removeChild child c) := by
  unfold layers removeChild
  rw [c.stack.missingChild?_eq, ← isSome_locate h]
  cases c.locate child with
  | none => rfl
  | some place => exact ⟨_, rfl⟩

theorem answers_extractChild (h : c.stack.Coherent) (child : LayerId) :
    Answers (missingChild? c.layers child) c (extractChild child c) := by
  unfold layers extractChild
  rw [c.stack.missingChild?_eq, ← isSome_locate h]
  cases c.locate child with
  | none => rfl
  | some place => exact ⟨_, rfl⟩

end Composition

end Compositing
