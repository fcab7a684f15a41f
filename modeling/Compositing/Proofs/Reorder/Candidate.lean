/-
Compositing.Proofs.Reorder.Candidate — a candidate is a reordering.

`reorderCandidate_eq_some` says what a candidate is made of: the source,
which is not the base, is taken out and put back above the base. So a
candidate is a permutation with the same base in which the other layers
stay in their order.
-/
import Mathlib.Data.List.Basic
import Compositing.Reorder.Candidate

namespace Compositing

variable {order candidate : List LayerId} {source target : LayerId}
  {side : DropSide}

/-- A candidate puts the source back somewhere above the base. -/
theorem reorderCandidate_eq_some
    (h : reorderCandidate order source target side = some candidate) :
    source ≠ target ∧ order.head? ≠ some source ∧ source ∈ order ∧
      candidate ≠ order ∧
      ∃ index, 1 ≤ index ∧ index ≤ (order.erase source).length ∧
        candidate = (order.erase source).insertIdx index source := by
  unfold reorderCandidate at h
  split at h
  · cases h
  · rename_i movable
    simp only [not_or, not_not] at movable
    obtain ⟨ne, notBase, mem⟩ := movable
    have placed : ∀ index, 1 ≤ index →
        index ≤ (order.erase source).length →
        (if (order.erase source).insertIdx index source = order then none
          else some ((order.erase source).insertIdx index source)) =
            some candidate →
        candidate ≠ order ∧ ∃ index, 1 ≤ index ∧
          index ≤ (order.erase source).length ∧
          candidate = (order.erase source).insertIdx index source := by
      intro index pos le eq
      split at eq
      · cases eq
      · rename_i changed
        cases eq
        exact ⟨changed, index, pos, le, rfl⟩
    cases found : (order.erase source).findIdx? (· = target) with
    | none =>
      simp only [found] at h
      cases h
    | some place =>
      obtain ⟨lt, -⟩ := List.findIdx?_eq_some_iff_getElem.mp found
      simp only [found] at h
      refine ⟨ne, notBase, mem, ?_⟩
      cases side with
      | above => exact placed (place + 1) (by omega) (by omega) h
      | below => exact placed (max place 1) (by omega) (by omega) h

/-- A candidate has the layers of the order. -/
theorem perm_of_reorderCandidate
    (h : reorderCandidate order source target side = some candidate) :
    candidate.Perm order := by
  obtain ⟨-, -, mem, -, index, -, le, rfl⟩ := reorderCandidate_eq_some h
  exact (List.perm_insertIdx source _ le).trans
    (List.perm_cons_erase mem).symm

/-- A candidate has the base of the order. -/
theorem head?_of_reorderCandidate
    (h : reorderCandidate order source target side = some candidate) :
    candidate.head? = order.head? := by
  obtain ⟨-, notBase, mem, -, index, pos, -, rfl⟩ :=
    reorderCandidate_eq_some h
  cases order with
  | nil => cases mem
  | cons base rest =>
    have ne : base ≠ source := fun eq => notBase (congrArg some eq)
    obtain ⟨n, rfl⟩ := Nat.exists_eq_add_of_le' pos
    rw [List.erase_cons_tail (by simpa using ne), List.insertIdx_succ_cons]
    rfl

/-- What leaves out an identity does not see where it is put in. -/
theorem filter_insertIdx {p : LayerId → Bool} {id : LayerId}
    (out : p id = false) (order : List LayerId) (index : Nat) :
    (order.insertIdx index id).filter p = order.filter p := by
  induction order generalizing index with
  | nil =>
    cases index with
    | zero => simp [out]
    | succ index => rfl
  | cons a rest ih =>
    cases index with
    | zero => simp [out]
    | succ index =>
      rw [List.insertIdx_succ_cons, List.filter_cons, List.filter_cons, ih]

/-- What leaves out the source sees no difference between a candidate and
the order. -/
theorem filter_of_reorderCandidate {p : LayerId → Bool}
    (h : reorderCandidate order source target side = some candidate)
    (out : p source = false) : candidate.filter p = order.filter p := by
  obtain ⟨-, -, mem, -, index, -, -, rfl⟩ := reorderCandidate_eq_some h
  obtain ⟨below, above, -, split, erased⟩ := List.exists_erase_eq mem
  rw [filter_insertIdx out, erased, split, List.filter_append,
    List.filter_append, List.filter_cons_of_neg (by simp [out])]

end Compositing
