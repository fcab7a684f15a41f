/-
Compositing.Proofs.Reorder.States — the states that a reordering goes
through.

A machine that is given the commands of a reordering `Follows` it, whatever
is done to the workspace in between. Between commands it is idle, dragging
or processing, holds what its state says, and is the machine of the
transaction that it follows (`Follows.consistent`). Its notifier has heard
the reason of every rollback, in order, and nothing else
(`Follows.heard`), and so have the users of the session
(`notices_perform`).
-/
import Compositing.Proofs.Reorder.Machine
import Compositing.Proofs.Reorder.Rollback

namespace Compositing

namespace Transaction

variable {σ ρ : Type} [EffectEngine σ] [TextRasterizer ρ]

/-- A candidate that is attempted is committed or rolled back. -/
theorem attempt_ne_notProcessing (snapshot : Snapshot)
    (candidate : List LayerId) (s : Session σ ρ) :
    (attempt snapshot candidate s).1 ≠ .notProcessing := by
  unfold attempt
  dsimp only
  split
  · exact nofun
  · split <;> exact nofun

end Transaction

/-! ## Single commands -/

namespace ReorderMachine

variable {σ ρ : Type} {m : ReorderMachine}

/-- A drag is accepted by an idle machine, for a layer of the stack that is
not the base. -/
theorem dragStart_eq_true_iff (s : Session σ ρ) (id : LayerId) :
    (m.dragStart s id).1 = true ↔
      m.state = .idle ∧ (s.stack.get? id).isSome ∧
        s.stack.base? ≠ some id := by
  unfold dragStart
  by_cases idle : m.state = .idle
  · cases (s.stack.get? id) <;> by_cases base : s.stack.base? = some id <;>
      simp [idle, base]
  · simp [idle]

variable [EffectEngine σ] [TextRasterizer ρ]

/-- A machine that is processing is left as it is by every command but
one. -/
theorem perform_of_processing (processing : m.state = .processing)
    (s : Session σ ρ) {command : ReorderCommand}
    (other : command ≠ .process) : (m.perform s command).2.1 = m := by
  cases command with
  | process => exact absurd rfl other
  | dragStart id => simp [perform, dragStart, processing]
  | release => simp [perform, release, processing]
  | drop target side => simp [perform, drop, processing]
  | dropAndProcess target side =>
    simp [perform, answer, dropAndProcess, drop, processing]

/-- There is nothing to process unless the machine is processing. -/
theorem process_of_not_processing (free : m.state ≠ .processing)
    (s : Session σ ρ) : m.process s = (.notProcessing, m, s) :=
  if_pos free

theorem Consistent.state_cases (h : m.Consistent) :
    m.state = .idle ∨ m.state = .dragging ∨ m.state = .processing := by
  have settled := h.settled
  cases state : m.state with
  | rollingBack => exact absurd state settled
  | _ => simp

/-- What is processed ends idle, with an outcome. -/
theorem Consistent.process_of_processing (h : m.Consistent)
    (processing : m.state = .processing) (s : Session σ ρ) :
    (m.process s).2.1.state = .idle ∧
      (m.process s).1 ≠ .notProcessing := by
  obtain ⟨snapshot, candidate, held, named⟩ := h.of_processing processing
  simp only [ReorderMachine.process, processing, held, named, ne_eq,
    not_true, if_false]
  split
  · exact ⟨rfl, fun free => by cases free⟩
  · rw [Transaction.attempt_machine]
    dsimp only
    exact ⟨rfl, Transaction.attempt_ne_notProcessing snapshot candidate s⟩

end ReorderMachine

/-! ## Runs -/

namespace Workspace

variable {σ ρ : Type} [EffectEngine σ] [TextRasterizer ρ]

/-- A new machine, with or without a notifier, is given the commands of
reordering `n`; the log lists them with its replies. In between whatever
is done to the session and to other reorderings, and the engine changes by
itself. -/
inductive Follows (n : Nat) (notifies : Bool) :
    List (ReorderCommand × Reply) → ReorderMachine → Workspace σ ρ →
      Prop where
  | start {w : Workspace σ ρ} (unused : w.transaction n = .idle) :
      Follows n notifies [] (.new notifies) w
  | perform {log : List (ReorderCommand × Reply)} {m : ReorderMachine}
      {w : Workspace σ ρ} (follows : Follows n notifies log m w)
      (command : ReorderCommand) :
      Follows n notifies
        (log ++ [(command, (m.perform w.session command).1)])
        (m.perform w.session command).2.1
        (w.perform (.reorder n command)).2
  | meanwhile {log : List (ReorderCommand × Reply)} {m : ReorderMachine}
      {w : Workspace σ ρ} (follows : Follows n notifies log m w)
      (command : Command) (other : ∀ own, command ≠ .reorder n own) :
      Follows n notifies log m (w.perform command).2
  | drift {log : List (ReorderCommand × Reply)} {m : ReorderMachine}
      {w : Workspace σ ρ} (follows : Follows n notifies log m w)
      (engine : σ) :
      Follows n notifies log m
        { w with session := { w.session with engine := engine } }

/-- Commands that are not for a reordering do not concern it. -/
theorem transaction_perform_of_other {w : Workspace σ ρ} {n : Nat}
    {command : Command} (other : ∀ own, command ≠ .reorder n own) :
    (w.perform command).2.transaction n = w.transaction n := by
  cases command with
  | session command => rfl
  | reorder m command =>
    have ne : n ≠ m := by
      rintro rfl
      exact other command rfl
    simp only [perform, transaction_insert, if_neg ne]
    rfl

/-- Users are told the reason of a rollback, and nothing otherwise. -/
theorem notices_perform (w : Workspace σ ρ) (command : Command) :
    (w.perform command).2.session.notices =
      w.session.notices ++ (w.perform command).1.reason?.toList := by
  cases command with
  | session command =>
    have silent : (w.session.perform command).1.reason? = none := by
      cases command <;> rfl
    simp only [perform, silent, Session.notices_perform, Option.toList,
      List.append_nil]
  | reorder n command =>
    exact (w.transaction n).notices_perform_reorder w.session command

namespace Follows

variable {n : Nat} {notifies : Bool} {log : List (ReorderCommand × Reply)}
  {m : ReorderMachine} {w : Workspace σ ρ}

theorem consistent (follows : Follows n notifies log m w) :
    m.Consistent := by
  induction follows with
  | start unused => exact .new notifies
  | perform follows command ih => exact ih.perform _ command
  | meanwhile follows command other ih => exact ih
  | drift follows engine ih => exact ih

/-- The machine is that of the transaction. -/
theorem eq_machine (follows : Follows n notifies log m w) :
    m = (w.transaction n).machine m.notifier? := by
  induction follows with
  | start unused =>
    rw [unused]
    rfl
  | @perform log m w follows command ih =>
    simp only [Workspace.perform, transaction_insert, if_pos]
    rw [ih, Transaction.perform_machine]
    -- The machine of a transaction has the notifier that it was given.
    generalize ((w.transaction n).perform w.session command).2.1 = t
    cases t <;> rfl
  | meanwhile follows command other ih =>
    rwa [transaction_perform_of_other other]
  | drift follows engine ih => exact ih

/-- The machine answers a command as the transaction does and leaves the
same session, and its notifier hears the reason of a rollback. -/
theorem perform_eq (follows : Follows n notifies log m w)
    (command : ReorderCommand) :
    (m.perform w.session command).1 =
        (w.perform (.reorder n command)).1 ∧
      (m.perform w.session command).2.2 =
        (w.perform (.reorder n command)).2.session ∧
      (m.perform w.session command).2.1.notifier? =
        m.notifier?.map
          (· ++ (m.perform w.session command).1.reason?.toList) := by
  have lockstep : m.perform w.session command = _ :=
    (congrArg (·.perform w.session command) follows.eq_machine).trans
      (Transaction.perform_machine w.session command)
  rw [lockstep]
  refine ⟨rfl, rfl, ?_⟩
  cases ((w.transaction n).perform w.session command).2.1 <;> rfl

/-- The notifier has heard the reason of every rollback, in order, and
nothing else. -/
theorem heard (follows : Follows n notifies log m w) :
    m.notifier? =
      if notifies then some (log.filterMap (·.2.reason?)) else none := by
  induction follows with
  | start unused => rfl
  | @perform log m w follows command ih =>
    rw [(follows.perform_eq command).2.2, ih, List.filterMap_append]
    cases notifies with
    | false => rfl
    | true =>
      cases told : (m.perform w.session command).1.reason? <;> simp [told]
  | meanwhile follows command other ih => exact ih
  | drift follows engine ih => exact ih

end Follows

/-- How a reordering behaves between two commands, `m` being its machine and
`log` the commands that it was given so far. -/
structure Orderly (n : Nat) (notifies : Bool)
    (log : List (ReorderCommand × Reply)) (m : ReorderMachine)
    (w : Workspace σ ρ) : Prop where
  state : m.state = .idle ∨ m.state = .dragging ∨ m.state = .processing
  /-- It holds a snapshot exactly if it is not idle and a candidate exactly
  if it is processing, and a candidate moves the dragged layer only. -/
  consistent : m.Consistent
  /-- Only `process` leads out of processing. -/
  stays : m.state = .processing → ∀ command, command ≠ .process →
    (m.perform w.session command).2.1 = m
  /-- It ends idle then, with an outcome. -/
  ends : m.state = .processing →
    (m.process w.session).2.1.state = .idle ∧
      (m.process w.session).1 ≠ .notProcessing
  /-- Elsewhere it does nothing. -/
  free : m.state ≠ .processing →
    m.process w.session = (.notProcessing, m, w.session)
  /-- A drag is accepted of a layer of the stack other than the base. -/
  drag : ∀ id, (m.dragStart w.session id).1 = true ↔
    m.state = .idle ∧ (w.session.stack.get? id).isSome ∧
      w.session.stack.base? ≠ some id
  /-- The same in terms of the list of layers. -/
  drag_layers : w.Reachable → w.InStock → ∀ id,
    (m.dragStart w.session id).1 = true ↔
      m.state = .idle ∧ HasLayer w.session.layers id ∧
        ¬ IsBase w.session.layers id
  /-- The notifier, if there is one, has heard the reason of every rollback
  once, and nothing else. -/
  heard : m.notifier? =
    if notifies then some (log.filterMap (·.2.reason?)) else none
  /-- So have the users of the session, whichever reordering it was. -/
  notices : ∀ command : Command, (w.perform command).2.session.notices =
    w.session.notices ++ (w.perform command).1.reason?.toList
  /-- The machine is that of the transaction, and answers every command like
  it. -/
  machine : m = (w.transaction n).machine m.notifier?
  answers : ∀ command,
    (m.perform w.session command).1 = (w.perform (.reorder n command)).1 ∧
      (m.perform w.session command).2.2 =
        (w.perform (.reorder n command)).2.session

/-- Whatever commands a reordering is given, and whatever is done to the
workspace and by the engine in between, it is orderly between any two of
them. -/
theorem Follows.orderly {n : Nat} {notifies : Bool}
    {log : List (ReorderCommand × Reply)} {m : ReorderMachine}
    {w : Workspace σ ρ} (follows : Follows n notifies log m w) :
    Orderly n notifies log m w := by
  have consistent := follows.consistent
  have drag := fun id => m.dragStart_eq_true_iff w.session id
  refine ⟨consistent.state_cases, consistent,
    fun processing command other => m.perform_of_processing processing _ other,
    fun processing => consistent.process_of_processing processing _,
    fun free => m.process_of_not_processing free _, drag,
    fun reachable stock id => ?_, follows.heard, w.notices_perform,
    follows.eq_machine, fun command => ?_⟩
  · have coherent := (reachable.sound stock).stack.coherent
    have known : (w.session.stack.get? id).isSome ↔
        HasLayer w.session.layers id := by
      rw [Option.isSome_iff_exists]
      exact exists_congr fun l => coherent.get?_eq_some_iff
    have base : w.session.stack.base? = some id ↔
        IsBase w.session.layers id := coherent.base?_eq_some_iff
    rw [drag, known, ne_eq, base]
  · obtain ⟨reply, session, -⟩ := follows.perform_eq command
    exact ⟨reply, session⟩

/-- A drop whose trial is rejected, with an update made during the drag.
The machine has been dragging and processing and is idle again, and the
notifier has heard why. -/
theorem Follows.orderly_of_rejected_drop :
    let start := simulated { rejectCalls := [2] } Simulated.layers
    let drag : ReorderCommand := .dragStart (.ofNat 3)
    let update : Command := .session (.updateOpacity (.ofNat 2) 25.0)
    let drop : ReorderCommand := .drop (.ofNat 1) .above
    let w := (start.perform (.session (.rebuild false))).2
    let dragging := ((ReorderMachine.new true).perform w.session drag).2.1
    let w₁ := ((w.perform (.reorder 0 drag)).2.perform update).2
    let processing := (dragging.perform w₁.session drop).2.1
    let w₂ := (w₁.perform (.reorder 0 drop)).2
    let idle := (processing.perform w₂.session .process).2.1
    let w₃ := (w₂.perform (.reorder 0 .process)).2
    dragging.state = .dragging ∧ processing.state = .processing ∧
      processing.candidate? = some [.ofNat 1, .ofNat 3, .ofNat 2] ∧
      idle.state = .idle ∧
      idle.notifier? = some ["compile error: call 2 rejected"] ∧
      ∃ log, Follows 0 true log idle w₃ ∧ Orderly 0 true log idle w₃ := by
  intro start drag update drop w dragging w₁ processing w₂ idle w₃
  have computed : dragging.state = .dragging ∧
      processing.state = .processing ∧
      processing.candidate? = some [.ofNat 1, .ofNat 3, .ofNat 2] ∧
      idle.state = .idle ∧
      idle.notifier? = some ["compile error: call 2 rejected"] := by
    decide +kernel
  obtain ⟨dragged, dropped, candidate, ended, heard⟩ := computed
  have begun : Follows 0 true [] (.new true) w :=
    (Follows.start rfl).meanwhile _ nofun
  have moving : Follows 0 true _ dragging w₁ :=
    (begun.perform drag).meanwhile update nofun
  have pending : Follows 0 true _ processing w₂ := moving.perform drop
  have follows : Follows 0 true _ idle w₃ := pending.perform .process
  exact ⟨dragged, dropped, candidate, ended, heard, _, follows,
    follows.orderly⟩

end Workspace

end Compositing
