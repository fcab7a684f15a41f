/-
Compositing.Proofs.Layer.Orders — which orders a stack takes.

An order is taken exactly if it is a permutation of the one that there is
and has the same base; the layers themselves stay as they are
(`Coherent.setOrder_exact`). The check looks at the length, the base and
each identity by itself. That this leaves out no layer is because no layer
comes twice (`perm_iff_of_length_eq`). Whatever else is asked for is refused
as a reordering, and a session that is refused stays as it is.
-/
import Compositing.Proofs.Layer.Representation
import Compositing.Session.Compile

namespace Compositing

namespace LayerStack

/-- An order was taken: it is the order now, and no layer has changed. -/
structure Reordered (s s' : LayerStack) (order : List LayerId) : Prop where
  ordered : s'.order = order
  same : ∀ id, s'.get? id = s.get? id
  map_id : s'.toList.map (·.id) = order
  perm : s'.toList.Perm s.toList
  coherent : s'.Coherent

/-- An order was refused: it has more or fewer layers or another base, or
else it repeats a layer or names one that is not there. -/
structure Misordered (s : LayerStack) (order : List LayerId) (e : Error) :
    Prop where
  kind : e.kind = .reorder
  incomplete_iff : e = .incompleteOrder ↔
    order.length ≠ s.order.length ∨ order.head? ≠ s.base?
  foreign_iff : e = .foreignOrder ↔
    order.length = s.order.length ∧ order.head? = s.base? ∧
      ¬ order.Perm s.order

variable {s s' : LayerStack} {order : List LayerId}

/-- Among as many, distinct known identities are all identities. -/
theorem perm_iff_of_length_eq (nodup : s.order.Nodup)
    (length : order.length = s.order.length) :
    order.Perm s.order ↔ order.Nodup ∧ ∀ id ∈ order, id ∈ s.order := by
  constructor
  · intro perm
    exact ⟨perm.nodup_iff.mpr nodup, fun id => perm.mem_iff.mp⟩
  · rintro ⟨distinct, known⟩
    exact (List.subperm_of_subset distinct known).perm_of_length_le
      (Nat.le_of_eq length.symm)

namespace Coherent

variable (h : s.Coherent)

include h

theorem reordered (accepted : s.setOrder order = .ok s') :
    s.Reordered s' order := by
  have coherent := h.setOrder accepted
  have perm := perm_toList_setOrder accepted
  obtain ⟨rfl, -⟩ := setOrder_eq_ok accepted
  exact
    { ordered := rfl
      same := fun _ => rfl
      map_id := coherent.map_id_toList
      perm := perm
      coherent := coherent }

theorem misordered {e : Error} (refused : s.setOrder order = .error e) :
    s.Misordered order e := by
  unfold LayerStack.setOrder at refused
  split at refused
  case isTrue incomplete =>
    cases refused
    have not_foreign : ¬ (order.length = s.order.length ∧
        order.head? = s.base? ∧ ¬ order.Perm s.order) :=
      fun ⟨length, base, _⟩ => incomplete.elim (· length) (· base)
    exact
      { kind := rfl
        incomplete_iff := ⟨fun _ => incomplete, fun _ => rfl⟩
        foreign_iff := ⟨nofun, fun foreign => absurd foreign not_foreign⟩ }
  case isFalse complete =>
    obtain ⟨length, base⟩ := not_or.mp complete
    rw [not_not] at length base
    split at refused
    case isTrue => cases refused
    case isFalse foreign =>
      rw [← perm_iff_of_length_eq h.nodup length] at foreign
      cases refused
      exact
        { kind := rfl
          incomplete_iff :=
            ⟨nofun, fun incomplete => absurd incomplete complete⟩
          foreign_iff := ⟨fun _ => ⟨length, base, foreign⟩, fun _ => rfl⟩ }

/-- A stack takes exactly the permutations of its order with the same base.
It then has that order and the same layers. Anything else is refused, and a
session that asked for it is left as it is. -/
theorem setOrder_exact (order : List LayerId) :
    ((∃ s', s.setOrder order = .ok s') ↔
      order.Perm s.order ∧ order.head? = s.base?) ∧
    (∀ s', s.setOrder order = .ok s' → s.Reordered s' order) ∧
    (∀ e, s.setOrder order = .error e → s.Misordered order e) ∧
    ∀ {σ ρ : Type} (t : Session σ ρ), t.stack = s →
      (∀ s', s.setOrder order = .ok s' →
        ∃ t', t.commitOrder order = (.ok (), t') ∧ t'.stack = s') ∧
      ∀ e, s.setOrder order = .error e → t.commitOrder order = (.error e, t) := by
  refine ⟨⟨?accepted, ?taken⟩, fun s' => h.reordered,
    fun e => h.misordered, ?session⟩
  case accepted =>
    rintro ⟨s', accepted⟩
    exact ⟨perm_of_setOrder accepted, (setOrder_eq_ok accepted).2.2.1⟩
  case taken =>
    rintro ⟨perm, base⟩
    exact ⟨_, setOrder_of_perm h perm base⟩
  case session =>
    rintro σ ρ t rfl
    constructor
    · intro s' accepted
      simp only [Session.commitOrder, accepted]
      exact ⟨_, rfl, rfl⟩
    · intro e refused
      simp only [Session.commitOrder, refused]

end Coherent

/-- Three layers take an order that swaps the upper two, and refuse one that
has the topmost twice. -/
theorem setOrder_exact_of_three :
    let layers : List Layer :=
      [{ id := .ofNat 0, source := .effect none },
        { id := .ofNat 1, source := .media "a.png" .image },
        { id := .ofNat 2, source := .effect none
          children := [{ id := .ofNat 10, effect := EffectId.blend }] }]
    let s := ofStackable layers
    s.Coherent ∧
      (∃ s', s.setOrder [.ofNat 0, .ofNat 2, .ofNat 1] = .ok s' ∧
        s.Reordered s' [.ofNat 0, .ofNat 2, .ofNat 1]) ∧
      ∃ e, s.setOrder [.ofNat 0, .ofNat 2, .ofNat 2] = .error e ∧
        s.Misordered [.ofNat 0, .ofNat 2, .ofNat 2] e := by
  intro layers s
  have coherent : s.Coherent := coherent_ofStackable (by decide)
  obtain ⟨accepted, reordered, -⟩ :=
    coherent.setOrder_exact [.ofNat 0, .ofNat 2, .ofNat 1]
  obtain ⟨s', taken⟩ := accepted.mpr ⟨by decide, by decide⟩
  obtain ⟨-, -, misordered, -⟩ :=
    coherent.setOrder_exact [.ofNat 0, .ofNat 2, .ofNat 2]
  have refused : s.setOrder [.ofNat 0, .ofNat 2, .ofNat 2] =
      .error .foreignOrder := rfl
  exact ⟨coherent, ⟨s', taken, reordered s' taken⟩, _, refused,
    misordered _ refused⟩

end LayerStack

end Compositing
