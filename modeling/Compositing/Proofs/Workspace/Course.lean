/-
Compositing.Proofs.Workspace.Course — what users have done, and what was
replied.

A `Course` from one workspace to a later one lists the commands that were
carried out, with the replies. The revision moves on with an applied edit,
with layers that take the place of all others and with a drop that is
committed or rolled back (`Command.Revises`), and with nothing else: over
a course the revision stays exactly if there is no such command in it.
-/
import Compositing.Proofs.Session.Versions
import Compositing.Proofs.Workspace.Refusals

namespace Compositing

/-- The reply tells of an edit that was applied, whatever came of the
recompile. -/
def Reply.isApplied : Reply → Bool
  | .created (.ok _) | .removedLayer (.ok _) | .removedChild (.ok _)
  | .changed (.ok _) => true
  | _ => false

/-- What the reply tells of a drop that was processed. -/
def Reply.outcome? : Reply → Option ReorderOutcome
  | .processed outcome => some outcome
  | .droppedAndProcessed outcome? => outcome?
  | _ => none

/-- The drop was committed or rolled back. -/
def ReorderOutcome.isSettled : ReorderOutcome → Bool
  | .committed _ | .rolledBack _ => true
  | .superseded | .notProcessing => false

/-- With this reply the command has changed the structure of the stack or
put layers in place of all. -/
def Command.Revises (command : Command) (reply : Reply) : Prop :=
  reply.isApplied = true ∨ command.Replaces ∨
    ∃ outcome, reply.outcome? = some outcome ∧ outcome.isSettled = true

namespace Session

variable {σ ρ : Type} [EffectEngine σ] [TextRasterizer ρ]

/-- An edit is a revision unless it is refused. -/
theorem revision_edit_eq_iff {α : Type} (change : Edit α)
    (s : Session σ ρ) :
    (s.edit change).2.revision = s.revision ↔
      (s.edit change).1.isOk = false := by
  have touched : (s.touch change).2.revision = s.revision := rfl
  unfold edit
  split
  · rename_i e s' eq
    rw [eq] at touched
    exact iff_of_true touched rfl
  · rename_i value s' eq
    rw [eq] at touched
    have touched : s'.revision = s.revision := touched
    have revised : (s'.invalidate.rebuild false).2.revision =
        s.revision + 1 := by
      rw [revision_rebuild, ← touched]
      rfl
    rw [Prod.map_snd, id, Prod.map_fst, revised]
    exact iff_of_false (Nat.succ_ne_self _) Bool.noConfusion

/-- The reply to an edit tells whether it was a revision. -/
theorem revision_answer_edit_eq_iff {α : Type} {command : SessionCommand}
    {tag : Except Error (Edited α) → Reply}
    (applied : ∀ result, (tag result).isApplied = result.isOk)
    (unprocessed : ∀ result, (tag result).outcome? = none)
    (keeps : ¬ command.Replaces) (change : Edit α) (s : Session σ ρ) :
    (answer tag (s.edit change)).2.revision = s.revision ↔
      ¬ (Command.session command).Revises
        (answer tag (s.edit change)).1 := by
  have keeps : ¬ (Command.session command).Replaces := keeps
  simp only [answer, Command.Revises, applied, unprocessed, keeps,
    revision_edit_eq_iff]
  simp

theorem revision_perform_eq_iff (s : Session σ ρ)
    (command : SessionCommand) :
    (s.perform command).2.revision = s.revision ↔
      ¬ (Command.session command).Revises (s.perform command).1 := by
  have uncounted (keeps : command.keepsCounters = true) :
      (s.perform command).2.revision = s.revision :=
    (s.uncounted_perform keeps).revision
  have edited : ∀ result, (Reply.changed result).isApplied = result.isOk :=
    fun result => by cases result <;> rfl
  have created : ∀ result, (Reply.created result).isApplied = result.isOk :=
    fun result => by cases result <;> rfl
  cases command with
  | rebuild force =>
    refine iff_of_true (revision_rebuild force s) ?_
    rintro (⟨⟨⟩⟩ | ⟨⟨⟩⟩ | ⟨_, ⟨⟩, _⟩)
  | setLayers layers =>
    cases made : LayerStack.ofLayers layers with
    | error e =>
      have bad : unstackable? layers = some e := by
        rw [unstackable?, made]
      have refused : s.setLayers layers = (.error e, s) :=
        setLayers_of_unstackable bad
      simp only [perform, answer, refused, true_iff]
      rintro (⟨⟨⟩⟩ | ⟨stack, made'⟩ | ⟨_, ⟨⟩, _⟩)
      rw [made] at made'
      cases made'
    | ok stack =>
      have good : unstackable? layers = none := by
        rw [unstackable?, made]
      refine iff_of_false ?_ (not_not_intro (.inr (.inl ⟨stack, made⟩)))
      have revised : (s.perform (.setLayers layers)).2.revision =
          s.revision + 1 := (setLayers_of_stackable good).2
      rw [revised]
      exact Nat.succ_ne_self _
  | addLayer | duplicateLayer | extractChild | addChild =>
    exact revision_answer_edit_eq_iff created (fun _ => rfl) id _ s
  | setVisible | setChildVisible | setBlendMode | setEffect =>
    exact revision_answer_edit_eq_iff edited (fun _ => rfl) id _ s
  | removeLayer =>
    exact revision_answer_edit_eq_iff
      (fun result => by cases result <;> rfl) (fun _ => rfl) id _ s
  | removeChild =>
    exact revision_answer_edit_eq_iff
      (fun result => by cases result <;> rfl) (fun _ => rfl) id _ s
  | _ =>
    refine iff_of_true (uncounted rfl) ?_
    rintro (⟨⟨⟩⟩ | ⟨⟨⟩⟩ | ⟨_, ⟨⟩, _⟩)

end Session

namespace Transaction

variable {σ ρ : Type} [EffectEngine σ] [TextRasterizer ρ]
  {t : Transaction} {s : Session σ ρ}

/-- Restoring a snapshot is a revision. -/
theorem revision_lt_rollBack {snapshot : Snapshot}
    (stackable : Stackable snapshot.layers) (reason : String)
    (s : Session σ ρ) :
    s.revision < (rollBack snapshot reason s).2.revision := by
  have made := LayerStack.ofLayers_eq_ok_iff.mpr ⟨stackable, rfl⟩
  have good : unstackable? snapshot.layers = none := by
    rw [unstackable?, made]
  have revised : (rollBack snapshot reason s).2.revision = s.revision + 1 :=
    (Session.setLayers_of_stackable good).2
  omega

omit [EffectEngine σ] [TextRasterizer ρ] in
theorem revision_commitOrder {order : List LayerId} {s' : Session σ ρ}
    (ordered : s.commitOrder order = (.ok (), s')) :
    s'.revision = s.revision + 1 := by
  unfold Session.commitOrder at ordered
  split at ordered
  · cases ordered
  · rw [← (Prod.mk.inj ordered).2]
    rfl

/-- A new order is a revision, whatever the engine then makes of it. -/
theorem revision_lt_commit {candidate : List LayerId} {s s' : Session σ ρ}
    {report : CompileReport}
    (committed : commit candidate s = (.ok report, s')) :
    s.revision < s'.revision := by
  unfold commit at committed
  split at committed
  · rename_i s₁ ordered
    have revised := revision_commitOrder ordered
    have rebuilt := Session.revision_rebuild true s₁
    rw [committed] at rebuilt
    have rebuilt : s'.revision = s₁.revision := rebuilt
    omega
  · cases committed

/-- Past the check of the revision a drop is committed or rolled back, and
either is a revision. -/
theorem revision_lt_attempt {snapshot : Snapshot}
    (stackable : Stackable snapshot.layers) (candidate : List LayerId)
    (s : Session σ ρ) :
    (attempt snapshot candidate s).1.isSettled = true ∧
      s.revision < (attempt snapshot candidate s).2.revision := by
  have tried := (Session.uncounted_tryCompile
    (s.programOf (s.stack.arranged candidate)).text s).revision
  unfold attempt
  dsimp only
  cases result : s.tryCompile (s.programOf (s.stack.arranged candidate)).text
    with
  | mk answered s₁ =>
    rw [result] at tried
    cases answered with
    | error e =>
      refine ⟨rfl, ?_⟩
      rw [← tried]
      exact revision_lt_rollBack stackable _ s₁
    | ok _ =>
      dsimp only at tried ⊢
      rw [← tried]
      cases committed : commit candidate s₁ with
      | mk answered s₂ =>
        cases answered with
        | ok report => exact ⟨rfl, revision_lt_commit committed⟩
        | error e =>
          have le := (moves_commit candidate s₁).countedFrom.revision_le
          rw [committed] at le
          exact ⟨rfl, Nat.lt_of_le_of_lt le
            (revision_lt_rollBack stackable _ s₂)⟩

/-- A processed drop is a revision exactly if it is settled. -/
theorem revision_process_eq_iff (faithful : t.Faithful s) :
    (t.process s).2.2.revision = s.revision ↔
      (t.process s).1.isSettled = false := by
  cases t with
  | processing snapshot candidate =>
    by_cases current : s.revision = snapshot.revision
    · have ⟨settled, lt⟩ :=
        revision_lt_attempt faithful.1.stackable candidate s
      simp only [process, if_pos current, settled]
      exact iff_of_false (Nat.ne_of_gt lt) Bool.noConfusion
    · simp [process, current, ReorderOutcome.isSettled]
  | _ => exact iff_of_true rfl rfl

theorem revision_perform_eq_iff (faithful : t.Faithful s) (n : Nat)
    (command : ReorderCommand) :
    (t.perform s command).2.2.revision = s.revision ↔
      ¬ (Command.reorder n command).Revises (t.perform s command).1 := by
  have processed {t : Transaction} (faithful : t.Faithful s)
      (reply : Reply) (applied : reply.isApplied = false)
      (outcome : reply.outcome? = some (t.process s).1) :
      (t.process s).2.2.revision = s.revision ↔
        ¬ (Command.reorder n command).Revises reply := by
    simp [revision_process_eq_iff faithful, Command.Revises, applied,
      Command.Replaces, outcome]
  have idle (reply : Reply) (applied : reply.isApplied = false)
      (outcome : reply.outcome? = none) :
      ¬ (Command.reorder n command).Revises reply := by
    simp [Command.Revises, applied, Command.Replaces, outcome]
  cases command with
  | process => exact processed faithful _ rfl rfl
  | dropAndProcess target side =>
    have dropped := faithful.drop target side
    simp only [perform, answer, dropAndProcess]
    split
    · rename_i t' eq
      rw [eq] at dropped
      exact processed dropped _ rfl rfl
    · exact iff_of_true rfl (idle _ rfl rfl)
  | _ => exact iff_of_true rfl (idle _ rfl rfl)

end Transaction

namespace Workspace

variable {σ ρ : Type} [EffectEngine σ] [TextRasterizer ρ]
  {w w' : Workspace σ ρ}

/-- The revision moves on with exactly the commands that change the
structure of the stack. -/
theorem Reachable.revision_perform_eq_iff (h : w.Reachable)
    (stock : w.InStock) (command : Command) :
    (w.perform command).2.session.revision = w.session.revision ↔
      ¬ command.Revises (w.perform command).1 := by
  cases command with
  | session command => exact w.session.revision_perform_eq_iff command
  | reorder n command =>
    exact Transaction.revision_perform_eq_iff (h.faithful stock n) n command

/-! ## Courses -/

/-- The commands that were carried out from one workspace to a later one,
with the replies. In between the engine may change by itself. -/
inductive Course (w : Workspace σ ρ) :
    List (Command × Reply) → Workspace σ ρ → Prop where
  | refl : Course w [] w
  | perform {log : List (Command × Reply)} {w' : Workspace σ ρ}
      (before : Course w log w') (command : Command) :
      Course w (log ++ [(command, (w'.perform command).1)])
        (w'.perform command).2
  | drift {log : List (Command × Reply)} {w' : Workspace σ ρ}
      (before : Course w log w') (engine : σ)
      (same : SameManifest w'.session.engine engine) :
      Course w log
        { w' with session := { w'.session with engine := engine } }

/-- The log tells of no change of the structure. -/
def Unrevised (log : List (Command × Reply)) : Prop :=
  ∀ entry ∈ log, ¬ entry.1.Revises entry.2

theorem unrevised_concat {log : List (Command × Reply)} {command : Command}
    {reply : Reply} :
    Unrevised (log ++ [(command, reply)]) ↔
      Unrevised log ∧ ¬ command.Revises reply := by
  simp [Unrevised, or_imp, forall_and]

namespace Course

variable {log : List (Command × Reply)}

theorem leads (course : Course w log w') : w.Leads w' := by
  induction course with
  | refl => exact .refl
  | perform before command ih => exact ih.tail (.perform command)
  | drift before engine same ih => exact ih.tail (.drift engine same)

theorem reachable (course : Course w log w') (h : w.Reachable) :
    w'.Reachable := by
  induction course with
  | refl => exact h
  | perform before command ih => exact ih.perform command
  | drift before engine same ih => exact ih.drift engine same

/-- Over a course the revision stays exactly if nothing in its log changes
the structure of the stack. -/
theorem revision_eq_iff (course : Course w log w') (h : w.Reachable)
    (stock : w'.InStock) :
    w'.session.revision = w.session.revision ↔ Unrevised log := by
  induction course with
  | refl => exact iff_of_true rfl fun _ mem => nomatch mem
  | drift before engine same ih => exact ih stock
  | @perform log w' before command ih =>
    have stock : w'.InStock :=
      Nat.lt_of_le_of_lt (moves_perform w' command).next_le stock
    have last :=
      (before.reachable h).revision_perform_eq_iff stock command
    have le := before.leads.moves.countedFrom.revision_le
    have le' := (moves_perform w' command).countedFrom.revision_le
    rw [unrevised_concat, ← ih stock, ← last]
    omega

end Course

/-- Whatever leads on has a course. -/
theorem Leads.exists_course (h : w.Leads w') : ∃ log, Course w log w' := by
  induction h with
  | refl => exact ⟨[], .refl⟩
  | tail _ step ih =>
    obtain ⟨log, course⟩ := ih
    cases step with
    | perform command => exact ⟨_, course.perform command⟩
    | drift engine same => exact ⟨log, course.drift engine same⟩

end Workspace

end Compositing
