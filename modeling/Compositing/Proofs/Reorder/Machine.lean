/-
Compositing.Proofs.Reorder.Machine — a reordering as a state and what it
holds.

A `Transaction` cannot but hold a snapshot exactly when it is not idle and
a candidate exactly when it is processing. A machine has a field for its
state and optional ones for what it holds, and looks at each field before
it relies on it. What it holds agrees with its state all the same
(`Consistent`, `Consistent.perform`): a snapshot or a candidate is never
missing where it is looked for. So machine and transaction answer every
command alike (`perform_machine`).
-/
import Compositing.Proofs.Reorder.Candidate
import Compositing.Proofs.Session.Notices

namespace Compositing

/-- The state of a reordering. -/
inductive ReorderState where
  | idle
  | dragging
  | processing
  | rollingBack
  deriving DecidableEq, Repr

/-- A reordering with its state beside what it holds. -/
structure ReorderMachine where
  state : ReorderState := .idle
  snapshot? : Option Snapshot := none
  candidate? : Option (List LayerId) := none
  /-- What the notifier was told, if there is one. -/
  notifier? : Option (List String) := none

namespace ReorderMachine

/-! ## Operations -/

/-- A machine with or without a notifier. -/
def new (notifies : Bool) : ReorderMachine :=
  { notifier? := if notifies then some [] else none }

/-- Let go of everything. -/
def reset (m : ReorderMachine) : ReorderMachine :=
  { m with state := .idle, snapshot? := none, candidate? := none }

/-- Tell the notifier, if there is one. -/
def tell (reason : String) (m : ReorderMachine) : ReorderMachine :=
  { m with notifier? := m.notifier?.map (· ++ [reason]) }

/-- End a drag without a drop. -/
def release (m : ReorderMachine) : ReorderMachine :=
  if m.state = .dragging then m.reset else m

/-- Drop the dragged layer next to a target. -/
def drop (target : LayerId) (side : DropSide) (m : ReorderMachine) :
    Bool × ReorderMachine :=
  if m.state ≠ .dragging then (false, m)
  else
    match m.snapshot? with
    | none => (false, m.reset)
    | some snapshot =>
      let order := snapshot.layers.map (·.id)
      match reorderCandidate order snapshot.source target side with
      | some candidate =>
        (true, { m with state := .processing, candidate? := some candidate })
      | none => (false, m.reset)

section

variable {σ ρ : Type}

/-- Begin to drag a layer. -/
def dragStart (s : Session σ ρ) (id : LayerId) (m : ReorderMachine) :
    Bool × ReorderMachine :=
  if m.state ≠ .idle then (false, m)
  else if (s.stack.get? id).isNone || s.stack.base? = some id then (false, m)
  else
    let snapshot : Snapshot :=
      { source := id, layers := s.layers, revision := s.revision }
    (true, { m with state := .dragging, snapshot? := some snapshot })

variable [EffectEngine σ] [TextRasterizer ρ]

/-- Restore a snapshot and tell users why. -/
def rollBack (snapshot : Snapshot) (reason : String) (m : ReorderMachine)
    (s : Session σ ρ) : ReorderOutcome × ReorderMachine × Session σ ρ :=
  let m := { m with state := .rollingBack }
  let s := (s.setLayers snapshot.layers).2
  (.rolledBack reason, (m.tell reason).reset, s.log (.notify reason))

/-- Compile a candidate on trial, then commit it or restore the
snapshot. -/
def attempt (snapshot : Snapshot) (candidate : List LayerId)
    (m : ReorderMachine) (s : Session σ ρ) :
    ReorderOutcome × ReorderMachine × Session σ ρ :=
  let trial := (s.programOf (s.stack.arranged candidate)).text
  match s.tryCompile trial with
  | (.error e, s) => m.rollBack snapshot e.message s
  | (.ok (), s) =>
    match Transaction.commit candidate s with
    | (.ok _, s) => (.committed candidate, m.reset, s)
    | (.error e, s) => m.rollBack snapshot e.message s

/-- Process a drop. The machine lets go of the snapshot and the candidate
before it looks whether it had both. -/
def process (s : Session σ ρ) (m : ReorderMachine) :
    ReorderOutcome × ReorderMachine × Session σ ρ :=
  if m.state ≠ .processing then (.notProcessing, m, s)
  else
    let taken := { m with snapshot? := none, candidate? := none }
    match m.snapshot?, m.candidate? with
    | some snapshot, some candidate =>
      if s.revision ≠ snapshot.revision then (.superseded, taken.reset, s)
      else taken.attempt snapshot candidate s
    | _, _ => (.notProcessing, taken.reset, s)

/-- Drop and process at once. -/
def dropAndProcess (target : LayerId) (side : DropSide) (s : Session σ ρ)
    (m : ReorderMachine) :
    Option ReorderOutcome × ReorderMachine × Session σ ρ :=
  match m.drop target side with
  | (true, m) =>
    let result := m.process s
    (some result.1, result.2)
  | (false, m) => (none, m, s)

/-- Carry out what is to be done to a reordering. -/
def perform (m : ReorderMachine) (s : Session σ ρ) :
    ReorderCommand → Reply × ReorderMachine × Session σ ρ
  | .dragStart id =>
    let (accepted, m) := m.dragStart s id
    (.dragging accepted, m, s)
  | .release => (.released, m.release, s)
  | .drop target side =>
    let (pending, m) := m.drop target side
    (.dropped pending, m, s)
  | .process => answer .processed (m.process s)
  | .dropAndProcess target side =>
    answer .droppedAndProcessed (m.dropAndProcess target side s)

end

end ReorderMachine

/-! ## Consistency -/

/-- The candidate is another order of the layers of the snapshot with the
same base, in which all layers but the dragged one keep their order. -/
structure Snapshot.IsMove (snapshot : Snapshot)
    (candidate : List LayerId) : Prop where
  perm : candidate.Perm (snapshot.layers.map (·.id))
  changed : candidate ≠ snapshot.layers.map (·.id)
  base : candidate.head? = (snapshot.layers.map (·.id)).head?
  others : candidate.filter (· ≠ snapshot.source) =
    (snapshot.layers.map (·.id)).filter (· ≠ snapshot.source)

theorem Snapshot.isMove_of_reorderCandidate {snapshot : Snapshot}
    {target : LayerId} {side : DropSide} {candidate : List LayerId}
    (h : reorderCandidate (snapshot.layers.map (·.id)) snapshot.source
      target side = some candidate) : snapshot.IsMove candidate where
  perm := perm_of_reorderCandidate h
  changed := (reorderCandidate_eq_some h).2.2.2.1
  base := head?_of_reorderCandidate h
  others := filter_of_reorderCandidate h (by simp)

namespace ReorderMachine

/-- What a machine holds agrees with its state. -/
structure Consistent (m : ReorderMachine) : Prop where
  settled : m.state ≠ .rollingBack
  snapshot_iff : m.snapshot?.isSome ↔ m.state ≠ .idle
  candidate_iff : m.candidate?.isSome ↔ m.state = .processing
  moved : ∀ snapshot candidate, m.snapshot? = some snapshot →
    m.candidate? = some candidate → snapshot.IsMove candidate

theorem consistent_reset (m : ReorderMachine) : m.reset.Consistent := by
  refine ⟨nofun, ?_, ?_, nofun⟩ <;> simp [reset]

namespace Consistent

variable {m : ReorderMachine}

theorem new (notifies : Bool) : (ReorderMachine.new notifies).Consistent :=
  consistent_reset (ReorderMachine.new notifies)

/-- While a machine is processing it has a snapshot and a candidate. -/
theorem of_processing (h : m.Consistent)
    (processing : m.state = .processing) :
    ∃ snapshot candidate, m.snapshot? = some snapshot ∧
      m.candidate? = some candidate := by
  have held : m.snapshot?.isSome := h.snapshot_iff.mpr (by simp [processing])
  have named : m.candidate?.isSome := h.candidate_iff.mpr processing
  obtain ⟨snapshot, held⟩ := Option.isSome_iff_exists.mp held
  obtain ⟨candidate, named⟩ := Option.isSome_iff_exists.mp named
  exact ⟨snapshot, candidate, held, named⟩

theorem release (h : m.Consistent) : m.release.Consistent := by
  unfold ReorderMachine.release
  split
  · exact consistent_reset m
  · exact h

theorem drop (h : m.Consistent) (target : LayerId) (side : DropSide) :
    (m.drop target side).2.Consistent := by
  unfold ReorderMachine.drop
  split
  · exact h
  · split
    · exact consistent_reset m
    · rename_i snapshot held
      dsimp only
      split
      · rename_i candidate found
        refine ⟨nofun, ?_, ?_, ?_⟩
        · simp [held]
        · simp
        · intro snapshot' candidate' held' named
          obtain rfl := Option.some.inj (held.symm.trans held')
          obtain rfl := Option.some.inj named
          exact Snapshot.isMove_of_reorderCandidate found
      · exact consistent_reset m

variable {σ ρ : Type}

theorem dragStart (h : m.Consistent) (s : Session σ ρ) (id : LayerId) :
    (m.dragStart s id).2.Consistent := by
  unfold ReorderMachine.dragStart
  split
  · exact h
  · rename_i idle
    split
    · exact h
    · have free : m.candidate? = none := by
        have iff := h.candidate_iff
        rw [not_not.mp idle] at iff
        simpa using iff
      refine ⟨nofun, ?_, ?_, ?_⟩ <;> simp [free]

variable [EffectEngine σ] [TextRasterizer ρ]

theorem attempt (snapshot : Snapshot) (candidate : List LayerId)
    (m : ReorderMachine) (s : Session σ ρ) :
    (m.attempt snapshot candidate s).2.1.Consistent := by
  unfold ReorderMachine.attempt
  dsimp only
  split
  · exact consistent_reset _
  · split <;> exact consistent_reset _

theorem process (h : m.Consistent) (s : Session σ ρ) :
    (m.process s).2.1.Consistent := by
  unfold ReorderMachine.process
  split
  · exact h
  · dsimp only
    split
    · split
      · exact consistent_reset _
      · exact attempt _ _ _ s
    · exact consistent_reset _

/-- Whatever a machine is given, what it holds agrees with its state
afterwards. -/
theorem perform (h : m.Consistent) (s : Session σ ρ)
    (command : ReorderCommand) : (m.perform s command).2.1.Consistent := by
  cases command with
  | dragStart id => exact h.dragStart s id
  | release => exact h.release
  | drop target side => exact h.drop target side
  | process => exact h.process s
  | dropAndProcess target side =>
    have dropped := h.drop target side
    simp only [ReorderMachine.perform, answer, dropAndProcess]
    split
    · rename_i m' eq
      rw [eq] at dropped
      exact dropped.process s
    · rename_i m' eq
      rw [eq] at dropped
      exact dropped

end Consistent

end ReorderMachine

/-! ## Machines and transactions -/

namespace Transaction

/-- The machine of a reordering, with what its notifier was told. -/
def machine (notifier? : Option (List String)) : Transaction → ReorderMachine
  | .idle => { notifier? := notifier? }
  | .dragging snapshot =>
    { state := .dragging, snapshot? := some snapshot
      notifier? := notifier? }
  | .processing snapshot candidate =>
    { state := .processing, snapshot? := some snapshot
      candidate? := some candidate, notifier? := notifier? }

variable {notifier? : Option (List String)} {t : Transaction}

theorem told_nothing : notifier?.map (· ++ []) = notifier? := by
  cases notifier? with
  | none => rfl
  | some told => exact congrArg some (List.append_nil told)

theorem release_machine :
    (t.machine notifier?).release = t.release.machine notifier? := by
  cases t <;> rfl

theorem drop_machine (target : LayerId) (side : DropSide) :
    (t.machine notifier?).drop target side =
      ((t.drop target side).1, (t.drop target side).2.machine notifier?) := by
  cases t with
  | dragging snapshot =>
    simp only [machine, ReorderMachine.drop, drop]
    cases reorderCandidate (snapshot.layers.map (·.id)) snapshot.source
      target side <;> rfl
  | _ => rfl

variable {σ ρ : Type}

theorem dragStart_machine (s : Session σ ρ) (id : LayerId) :
    (t.machine notifier?).dragStart s id =
      ((t.dragStart s id).1, (t.dragStart s id).2.machine notifier?) := by
  cases t with
  | idle =>
    simp only [machine, ReorderMachine.dragStart, dragStart]
    cases (s.stack.get? id).isNone || decide (s.stack.base? = some id) <;> rfl
  | _ => rfl

variable [EffectEngine σ] [TextRasterizer ρ]

theorem rollBack_machine (snapshot : Snapshot) (reason : String)
    (m : ReorderMachine) (s : Session σ ρ) :
    m.rollBack snapshot reason s =
      ((rollBack snapshot reason s).1,
        machine (m.notifier?.map
          (· ++ (rollBack snapshot reason s).1.reason?.toList)) .idle,
        (rollBack snapshot reason s).2) :=
  rfl

/-- The notifier hears the reason of a rollback, and nothing else. -/
theorem attempt_machine (snapshot : Snapshot) (candidate : List LayerId)
    (m : ReorderMachine) (s : Session σ ρ) :
    m.attempt snapshot candidate s =
      ((attempt snapshot candidate s).1,
        machine (m.notifier?.map
          (· ++ (attempt snapshot candidate s).1.reason?.toList)) .idle,
        (attempt snapshot candidate s).2) := by
  unfold ReorderMachine.attempt attempt
  dsimp only
  cases s.tryCompile (s.programOf (s.stack.arranged candidate)).text with
  | mk tried s₁ =>
    cases tried with
    | error e => exact rollBack_machine snapshot e.message m s₁
    | ok _ =>
      dsimp only
      cases commit candidate s₁ with
      | mk committed s₂ =>
        cases committed with
        | error e => exact rollBack_machine snapshot e.message m s₂
        | ok report =>
          simp only [ReorderOutcome.reason?, Option.toList, told_nothing]
          rfl

theorem process_machine (s : Session σ ρ) :
    (t.machine notifier?).process s =
      ((t.process s).1,
        (t.process s).2.1.machine
          (notifier?.map (· ++ (t.process s).1.reason?.toList)),
        (t.process s).2.2) := by
  cases t with
  | processing snapshot candidate =>
    by_cases current : s.revision = snapshot.revision
    · simp only [machine, ReorderMachine.process, process, current, ne_eq,
        not_true, if_true, if_false]
      exact attempt_machine snapshot candidate _ s
    · simp only [machine, ReorderMachine.process, process, current, ne_eq,
        not_true, not_false_eq_true, if_true, if_false,
        ReorderOutcome.reason?, Option.toList, told_nothing]
      rfl
  | _ =>
    simp only [process, ReorderOutcome.reason?, Option.toList, told_nothing]
    rfl

/-- Machine and transaction answer every command alike and leave the same
session, and the notifier hears the reason of a rollback and nothing
else. -/
theorem perform_machine (s : Session σ ρ) (command : ReorderCommand) :
    (t.machine notifier?).perform s command =
      ((t.perform s command).1,
        (t.perform s command).2.1.machine
          (notifier?.map (· ++ (t.perform s command).1.reason?.toList)),
        (t.perform s command).2.2) := by
  cases command with
  | dragStart id =>
    simp only [ReorderMachine.perform, dragStart_machine, perform,
      Reply.reason?, Reply.outcome?, Option.bind_none, Option.toList,
      told_nothing]
  | release =>
    simp only [ReorderMachine.perform, release_machine, perform,
      Reply.reason?, Reply.outcome?, Option.bind_none, Option.toList,
      told_nothing]
  | drop target side =>
    simp only [ReorderMachine.perform, drop_machine, perform,
      Reply.reason?, Reply.outcome?, Option.bind_none, Option.toList,
      told_nothing]
  | process =>
    simp only [ReorderMachine.perform, answer, process_machine, perform,
      Reply.reason?, Reply.outcome?, Option.bind_some]
  | dropAndProcess target side =>
    simp only [ReorderMachine.perform, ReorderMachine.dropAndProcess,
      drop_machine, perform, answer, dropAndProcess]
    cases t.drop target side with
    | mk pending next =>
      cases pending with
      | true =>
        simp only [process_machine, Reply.reason?, Reply.outcome?,
          Option.bind_some]
      | false =>
        simp only [Reply.reason?, Reply.outcome?, Option.bind_none,
          Option.toList, told_nothing]

end Transaction

end Compositing
