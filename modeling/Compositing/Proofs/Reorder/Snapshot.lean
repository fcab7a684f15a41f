/-
Compositing.Proofs.Reorder.Snapshot — what a reordering holds.

A snapshot is `Faithful` to a session when it could be restored, and when
as long as the session's revision is that of the snapshot the stack still
has the snapshot's skeleton. A reordering holds faithful snapshots and
only candidates of them, whatever is done to the session meanwhile.
-/
import Compositing.Proofs.Reorder.Candidate
import Compositing.Proofs.Reorder.Moves

namespace Compositing

variable {σ ρ : Type}

/-- The snapshot can be restored, and it shows how the layers of the
session are arranged unless the session was revised since. -/
structure Snapshot.Faithful (snapshot : Snapshot) (s : Session σ ρ) :
    Prop where
  stackable : Stackable snapshot.layers
  revision_le : snapshot.revision ≤ s.revision
  skeleton : s.revision = snapshot.revision →
    skeleton s.layers = skeleton snapshot.layers

/-- What the reordering holds is faithful. -/
def Transaction.Faithful (s : Session σ ρ) : Transaction → Prop
  | .idle => True
  | .dragging snapshot => snapshot.Faithful s
  | .processing snapshot candidate =>
    snapshot.Faithful s ∧ ∃ target side,
      reorderCandidate (snapshot.layers.map (·.id)) snapshot.source target
        side = some candidate

namespace Snapshot.Faithful

variable [EffectEngine σ] {snapshot : Snapshot} {s s' : Session σ ρ}

theorem move (h : snapshot.Faithful s) (move : s.Move s') :
    snapshot.Faithful s' := by
  cases move with
  | ask => exact ⟨h.stackable, h.revision_le, h.skeleton⟩
  | feed s' current fed =>
    cases fed
    exact ⟨h.stackable, h.revision_le, h.skeleton⟩
  | trial => exact ⟨h.stackable, h.revision_le, h.skeleton⟩
  | commit => exact ⟨h.stackable, h.revision_le, h.skeleton⟩
  | touch composition retains =>
    exact ⟨h.stackable, h.revision_le, fun eq =>
      retains.skeleton.trans (h.skeleton eq)⟩
  | edit composition evolves =>
    -- The revision is past the snapshot's, so nothing is claimed.
    have lt : snapshot.revision < s.revision + 1 :=
      Nat.lt_succ_of_le h.revision_le
    exact ⟨h.stackable, Nat.le_of_lt lt, fun eq => absurd eq.symm (Nat.ne_of_lt lt)⟩

theorem moves (h : snapshot.Faithful s) (moves : s.Moves s') :
    snapshot.Faithful s' := by
  induction moves with
  | refl => exact h
  | tail _ move ih => exact ih.move move

end Snapshot.Faithful

namespace Transaction

variable [EffectEngine σ] {t : Transaction} {s s' : Session σ ρ}

theorem Faithful.moves (h : t.Faithful s) (moves : s.Moves s') :
    t.Faithful s' := by
  cases t with
  | idle => exact trivial
  | dragging snapshot => exact Snapshot.Faithful.moves h moves
  | processing snapshot candidate => exact ⟨h.1.moves moves, h.2⟩

omit [EffectEngine σ] in
theorem Faithful.dragStart (h : t.Faithful s) (sound : s.composition.Sound)
    (id : LayerId) : (t.dragStart s id).2.Faithful s := by
  unfold Transaction.dragStart
  split
  · split
    · exact trivial
    · exact ⟨sound.stack.stackable, Nat.le_refl _, fun _ => rfl⟩
  · exact h

omit [EffectEngine σ] in
theorem Faithful.release (h : t.Faithful s) : t.release.Faithful s := by
  cases t with
  | dragging snapshot => exact trivial
  | _ => exact h

omit [EffectEngine σ] in
theorem Faithful.drop (h : t.Faithful s) (target : LayerId)
    (side : DropSide) : (t.drop target side).2.Faithful s := by
  unfold Transaction.drop
  split
  · dsimp only
    split
    · rename_i candidate found
      exact ⟨h, target, side, found⟩
    · exact trivial
  · exact h

variable [TextRasterizer ρ]

/-- Processing leaves a reordering idle, or does not concern it. -/
theorem Faithful.process (h : t.Faithful s) :
    (t.process s).2.1.Faithful (t.process s).2.2 := by
  cases t <;> simp only [Transaction.process]
  case processing snapshot candidate =>
    split <;> exact trivial
  all_goals exact h

theorem Faithful.perform (h : t.Faithful s) (sound : s.composition.Sound)
    (command : ReorderCommand) :
    (t.perform s command).2.1.Faithful (t.perform s command).2.2 := by
  cases command <;> simp only [Transaction.perform, answer]
  case dragStart id => exact h.dragStart sound id
  case release => exact h.release
  case drop target side => exact h.drop target side
  case process => exact h.process
  case dropAndProcess target side =>
    have dropped := h.drop target side
    unfold dropAndProcess
    split <;> dsimp only
    · rename_i t' eq
      rw [eq] at dropped
      exact dropped.process
    · rename_i t' eq
      rwa [eq] at dropped

end Transaction

end Compositing
