/-
Compositing.Proofs.Reorder.Rollback — what a rejected reordering leaves.

A drag takes a snapshot, and the reordering holds that snapshot as long as
it is in flight (`InFlight.snapshot?_eq`). A drop that is rolled back puts
the snapshot's layers back (`layers_process_of_rolledBack`). So the stack
has the structure that it had when the drop was processed, and of its
layers each is what it was when the drag began: updates that were made
meanwhile are undone (`rolledBack_undoes_update`).
-/
import Compositing.Proofs.Reorder.AllOrNothing

namespace Compositing

namespace Transaction

variable {σ ρ : Type}

/-- The snapshot that a reordering holds. -/
def snapshot? : Transaction → Option Snapshot
  | .idle => none
  | .dragging snapshot => some snapshot
  | .processing snapshot _ => some snapshot

@[simp]
theorem snapshot?_eq_none_iff {t : Transaction} :
    t.snapshot? = none ↔ t = .idle := by
  cases t <;> simp [snapshot?]

/-! ## Holding a snapshot -/

/-- A drag that is accepted was begun by an idle reordering, which then
holds the layers of the session. -/
theorem dragStart_eq_true {s : Session σ ρ} {id : LayerId} {t t' : Transaction}
    (accepted : t.dragStart s id = (true, t')) :
    t = .idle ∧ t' = .dragging
      { source := id, layers := s.layers, revision := s.revision } := by
  cases t with
  | idle =>
    simp only [dragStart] at accepted
    split at accepted
    · cases (Prod.mk.inj accepted).1
    · exact ⟨rfl, (Prod.mk.inj accepted).2.symm⟩
  | dragging snapshot => cases (Prod.mk.inj accepted).1
  | processing snapshot candidate => cases (Prod.mk.inj accepted).1

variable [EffectEngine σ] [TextRasterizer ρ]

/-- A reordering that a command leaves in flight holds the snapshot that
it held, unless the command was the drag that took it. -/
theorem snapshot?_perform (t : Transaction) (s : Session σ ρ)
    (command : ReorderCommand) :
    (t.perform s command).2.1 = .idle ∨
      (t.perform s command).2.1.snapshot? = t.snapshot? ∨
      ∃ id, command = .dragStart id ∧
        t.dragStart s id = (true, (t.perform s command).2.1) := by
  cases command with
  | dragStart id =>
    cases started : t.dragStart s id with
    | mk accepted t' =>
      simp only [perform, started]
      cases accepted with
      | true => exact .inr (.inr ⟨id, rfl, started⟩)
      | false =>
        refine .inr (.inl ?_)
        cases t with
        | idle =>
          simp only [dragStart] at started
          split at started
          · rw [(Prod.mk.inj started).2]
          · cases (Prod.mk.inj started).1
        | _ => rw [← (Prod.mk.inj started).2]
  | release =>
    cases t with
    | dragging snapshot => exact .inl rfl
    | _ => exact .inr (.inl rfl)
  | drop target side =>
    cases t with
    | dragging snapshot =>
      simp only [perform, drop]
      split
      · exact .inr (.inl rfl)
      · exact .inl rfl
    | _ => exact .inr (.inl rfl)
  | process =>
    cases t with
    | processing snapshot candidate =>
      simp only [perform, answer, process]
      split <;> exact .inl rfl
    | _ => exact .inr (.inl rfl)
  | dropAndProcess target side =>
    -- A drop that is pending is processed at once, and then all is over.
    cases t with
    | dragging snapshot =>
      refine .inl ?_
      simp only [perform, answer, dropAndProcess, drop]
      cases reorderCandidate (snapshot.layers.map (·.id)) snapshot.source
        target side with
      | none => rfl
      | some candidate =>
        simp only [process]
        split <;> rfl
    | _ => exact .inr (.inl rfl)

/-! ## Rolling back -/

/-- Rolling back puts the layers of the snapshot back. -/
theorem layers_process_of_rolledBack {t : Transaction} {s : Session σ ρ}
    {reason : String} (sound : s.composition.Sound) (faithful : t.Faithful s)
    (outcome : (t.process s).1 = .rolledBack reason) :
    ∃ snapshot, t.snapshot? = some snapshot ∧
      (t.process s).2.2.layers = snapshot.layers := by
  have whole := allOrNothing_process sound faithful
  rw [outcome] at whole
  cases whole with
  | rolledBack snapshot candidate _ stack held order made restored =>
    refine ⟨snapshot, by rw [held]; rfl, ?_⟩
    rw [← LayerStack.toList_of_ofLayers made, ← restored]
    rfl

/-- A drop is rolled back only at the revision of its snapshot, so the
snapshot has the structure of the stack. -/
theorem skeleton_of_rolledBack {t : Transaction} {s : Session σ ρ}
    {reason : String} {snapshot : Snapshot} (faithful : t.Faithful s)
    (held : t.snapshot? = some snapshot)
    (outcome : (t.process s).1 = .rolledBack reason) :
    skeleton snapshot.layers = skeleton s.layers := by
  cases t with
  | processing snapshot' candidate =>
    obtain rfl := Option.some.inj held
    by_cases current : s.revision = snapshot'.revision
    · exact (faithful.1.skeleton current).symm
    · simp [process, current] at outcome
  | idle => cases held
  | dragging snapshot' => simp [process] at outcome

end Transaction

namespace Workspace

variable {σ ρ : Type} [EffectEngine σ] [TextRasterizer ρ]

/-- From a workspace in which a reordering is in flight to one in which it
still is. -/
def InFlight (n : Nat) : Workspace σ ρ → Workspace σ ρ → Prop :=
  Relation.ReflTransGen fun w w' =>
    w.Step w' ∧ w.transaction n ≠ .idle ∧ w'.transaction n ≠ .idle

/-- A layer is dragged in a workspace, and the drag is still in flight in a
later one. -/
structure Dragged (n : Nat) (id : LayerId) (start w : Workspace σ ρ) : Prop where
  reachable : start.Reachable
  accepted : ((start.transaction n).dragStart start.session id).1 = true
  flight : InFlight n (start.perform (.reorder n (.dragStart id))).2 w

/-- A step leaves a reordering in flight with the snapshot that it held,
unless the step is the drag that took it. -/
theorem Step.snapshot?_eq {w w' : Workspace σ ρ} (h : w.Step w') (n : Nat) :
    w'.transaction n = .idle ∨
      (w'.transaction n).snapshot? = (w.transaction n).snapshot? ∨
      ∃ id, ((w.transaction n).dragStart w.session id).1 = true ∧
        w' = (w.perform (.reorder n (.dragStart id))).2 := by
  cases h with
  | drift engine same => exact .inr (.inl rfl)
  | perform command =>
    cases command with
    | session command => exact .inr (.inl rfl)
    | reorder m command =>
      by_cases other : n = m
      · subst other
        have held := (w.transaction n).snapshot?_perform w.session command
        simp only [Workspace.perform, transaction_insert, if_pos]
        rcases held with idle | same | ⟨id, rfl, accepted⟩
        · exact .inl idle
        · exact .inr (.inl same)
        · exact .inr (.inr ⟨id, congrArg Prod.fst accepted, rfl⟩)
      · refine .inr (.inl ?_)
        simp only [Workspace.perform, transaction_insert, if_neg other]
        rfl

/-- A reordering in flight holds the snapshot that it held. -/
theorem InFlight.snapshot?_eq {n : Nat} {w w' : Workspace σ ρ}
    (h : InFlight n w w') :
    (w'.transaction n).snapshot? = (w.transaction n).snapshot? := by
  induction h with
  | refl => rfl
  | tail _ step ih =>
    obtain ⟨step, busy, busy'⟩ := step
    rcases step.snapshot?_eq n with idle | same | ⟨id, accepted, -⟩
    · exact absurd idle busy'
    · exact same.trans ih
    · exact absurd (Transaction.dragStart_eq_true (Prod.ext accepted rfl)).1 busy

/-- A reordering holds the layers that the session had when the drag
began. -/
theorem Dragged.snapshot?_eq {n : Nat} {id : LayerId} {start w : Workspace σ ρ}
    (h : Dragged n id start w) :
    (w.transaction n).snapshot? = some
      { source := id
        layers := start.session.layers
        revision := start.session.revision } := by
  obtain ⟨-, taken⟩ := Transaction.dragStart_eq_true (Prod.ext h.accepted rfl)
  rw [h.flight.snapshot?_eq]
  simp only [perform, transaction_insert, if_pos, Transaction.perform, taken]
  rfl

/-- Whatever is in flight was dragged. -/
theorem Reachable.exists_dragged {w : Workspace σ ρ} (h : w.Reachable) (n : Nat) :
    w.transaction n = .idle ∨ ∃ id start, Dragged n id start w := by
  have extend : ∀ {w w' : Workspace σ ρ}, w.Reachable → w.Step w' →
      (w.transaction n = .idle ∨ ∃ id start, Dragged n id start w) →
      w'.transaction n = .idle ∨ ∃ id start, Dragged n id start w' := by
    intro w w' reachable step ih
    rcases step.snapshot?_eq n with idle | same | ⟨id, accepted, rfl⟩
    · exact .inl idle
    · by_cases busy' : w'.transaction n = .idle
      · exact .inl busy'
      have busy : w.transaction n ≠ .idle := by
        intro idle
        rw [Transaction.snapshot?_eq_none_iff.mpr idle,
          Transaction.snapshot?_eq_none_iff] at same
        exact busy' same
      obtain ⟨id, start, dragged⟩ := ih.resolve_left busy
      exact .inr ⟨id, start, dragged.reachable, dragged.accepted,
        dragged.flight.tail ⟨step, busy, busy'⟩⟩
    · exact .inr ⟨id, w, reachable, accepted, .refl⟩
  induction h with
  | start made => exact .inl rfl
  | perform command reachable ih =>
    exact extend reachable (.perform command) ih
  | drift engine same reachable ih =>
    exact extend reachable (.drift engine same) ih

/-- A drop that is rolled back was dragged before, and the layers are put
back as they were when the drag began: the stack keeps its structure, and
it keeps its layers as well exactly if no update has changed them since. -/
theorem Reachable.process_rolledBack_restores_drag {w : Workspace σ ρ}
    (h : w.Reachable) (stock : w.InStock) (n : Nat) {reason : String}
    (outcome : ((w.transaction n).process w.session).1 = .rolledBack reason) :
    (∃ id start, Dragged n id start w) ∧
      ∀ id start, Dragged n id start w →
        let after := ((w.transaction n).process w.session).2.2
        after.layers = start.session.layers ∧
          skeleton after.layers = skeleton w.session.layers ∧
          (after.layers = w.session.layers ↔
            w.session.layers = start.session.layers) := by
  have sound := h.sound stock
  have faithful := h.faithful stock n
  obtain ⟨snapshot, held, layers⟩ :=
    Transaction.layers_process_of_rolledBack sound faithful outcome
  have skel := Transaction.skeleton_of_rolledBack faithful held outcome
  refine ⟨(h.exists_dragged n).resolve_left fun idle => ?_, ?_⟩
  · rw [idle] at held
    cases held
  · intro id start dragged after
    rw [dragged.snapshot?_eq] at held
    obtain rfl := Option.some.inj held
    refine ⟨layers, ?_, ?_⟩
    · rw [← skel]
      exact congrArg skeleton layers
    · rw [show after.layers = start.session.layers from layers]
      exact eq_comm

/-- A drop whose trial is rejected, with an update made during the
drag. -/
def rejectedDrop : Workspace Simulated.Engine Simulated.Rasterizer :=
  ((simulated { rejectCalls := [2] } Simulated.layers).run
    [.session (.rebuild false),
      .reorder 0 (.dragStart (.ofNat 3)),
      .session (.updateOpacity (.ofNat 2) 25.0),
      .reorder 0 (.drop (.ofNat 1) .above)]).2

theorem reachable_rejectedDrop : rejectedDrop.Reachable :=
  (reachable_simulated _ Simulated.stackable_layers).run _

theorem rolledBack_rejectedDrop :
    ((rejectedDrop.transaction 0).process rejectedDrop.session).1 =
      .rolledBack "compile error: call 2 rejected" := by
  decide +kernel

theorem inStock_rejectedDrop : rejectedDrop.InStock := by
  decide +kernel

/-- The drop is rolled back to the drag's layers. -/
theorem process_rolledBack_restores_drag_of_rejectedDrop :
    rejectedDrop.Reachable ∧ rejectedDrop.InStock ∧
      ((rejectedDrop.transaction 0).process rejectedDrop.session).1 =
        .rolledBack "compile error: call 2 rejected" ∧
      (∃ id start, Dragged 0 id start rejectedDrop) ∧
      ∀ id start, Dragged 0 id start rejectedDrop →
        let after :=
          ((rejectedDrop.transaction 0).process rejectedDrop.session).2.2
        after.layers = start.session.layers ∧
          skeleton after.layers = skeleton rejectedDrop.session.layers ∧
          (after.layers = rejectedDrop.session.layers ↔
            rejectedDrop.session.layers = start.session.layers) :=
  ⟨reachable_rejectedDrop, inStock_rejectedDrop, rolledBack_rejectedDrop,
    reachable_rejectedDrop.process_rolledBack_restores_drag
      inStock_rejectedDrop 0 rolledBack_rejectedDrop⟩

/-- An update made during a drag is lost when the drop is rolled back. -/
theorem rolledBack_undoes_update :
    ¬ ∀ (w : Workspace Simulated.Engine Simulated.Rasterizer) (n : Nat)
        (reason : String), w.Reachable → w.InStock →
      ((w.transaction n).process w.session).1 = .rolledBack reason →
        ((w.transaction n).process w.session).2.2.layers =
          w.session.layers := by
  intro keeps
  have kept := keeps rejectedDrop 0 _ reachable_rejectedDrop
    inStock_rejectedDrop rolledBack_rejectedDrop
  have opacity := congrArg (List.map (·.opacity)) kept
  have differs :
      (((rejectedDrop.transaction 0).process rejectedDrop.session).2.2.layers.map
          (·.opacity)) ≠ rejectedDrop.session.layers.map (·.opacity) := by
    decide +kernel
  exact differs opacity

end Workspace

end Compositing
