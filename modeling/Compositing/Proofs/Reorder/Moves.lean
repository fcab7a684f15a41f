/-
Compositing.Proofs.Reorder.Moves — what a reordering does to a session.

Processing a drop makes only moves that a session makes anyway: a trial,
a new order, a rebuild, a restored stack and a word to the users.
-/
import Compositing.Proofs.Session.Moves

namespace Compositing.Transaction

open Session (moves_tryCompile moves_commitOrder moves_rebuild
  moves_setLayers)

variable {σ ρ : Type} [EffectEngine σ] [TextRasterizer ρ]

theorem moves_rollBack (snapshot : Snapshot) (reason : String)
    (s : Session σ ρ) : s.Moves (rollBack snapshot reason s).2 := by
  have restored := moves_setLayers snapshot.layers s
  refine restored.trans (Session.Move.ask [.notify reason] _ ?_ (.refl _)).moves
  intro e mem
  rw [List.mem_singleton.mp mem]
  rfl

theorem moves_commit (candidate : List LayerId) (s : Session σ ρ) :
    s.Moves (commit candidate s).2 := by
  have ordered := moves_commitOrder candidate s
  unfold commit
  split
  · rename_i s' eq
    rw [eq] at ordered
    exact ordered.trans (moves_rebuild true s')
  · rename_i e s' eq
    rwa [eq] at ordered

theorem moves_attempt (snapshot : Snapshot) (candidate : List LayerId)
    (s : Session σ ρ) : s.Moves (attempt snapshot candidate s).2 := by
  have tried := moves_tryCompile
    (s.programOf (s.stack.arranged candidate)).text s
  unfold attempt
  dsimp only
  split
  · rename_i e s' eq
    rw [eq] at tried
    exact tried.trans (moves_rollBack snapshot _ s')
  · rename_i s' eq
    rw [eq] at tried
    have committed := moves_commit candidate s'
    split
    · rename_i report s'' eq'
      rw [eq'] at committed
      exact tried.trans committed
    · rename_i e s'' eq'
      rw [eq'] at committed
      exact (tried.trans committed).trans (moves_rollBack snapshot _ s'')

theorem moves_process (t : Transaction) (s : Session σ ρ) :
    s.Moves (t.process s).2.2 := by
  cases t <;> simp only [process]
  case processing snapshot candidate =>
    split <;> dsimp only
    · exact moves_attempt snapshot candidate s
    · exact .refl s
  all_goals exact .refl s

theorem moves_dropAndProcess (t : Transaction) (target : LayerId)
    (side : DropSide) (s : Session σ ρ) :
    s.Moves (t.dropAndProcess target side s).2.2 := by
  unfold dropAndProcess
  split <;> dsimp only
  · rename_i t' _
    exact moves_process t' s
  · exact .refl s

/-- Whatever users do to a reordering is a sequence of moves. -/
theorem moves_perform (t : Transaction) (s : Session σ ρ)
    (command : ReorderCommand) : s.Moves (t.perform s command).2.2 := by
  cases command <;> simp only [perform, answer]
  case process => exact moves_process t s
  case dropAndProcess target side => exact moves_dropAndProcess t target side s
  all_goals exact .refl s

end Compositing.Transaction
