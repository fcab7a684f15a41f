/-
Compositing.Proofs.Reorder.Serial — reorderings on one session serialize.

Any number of reorderings may be in flight on a session at once. A drop
that is committed or rolled back found the structure of the stack as it
was when its drag began; if anything has changed it meanwhile, another
reordering included, the drop is superseded. So of the drags that began
at one revision no two end in a commit or a rollback
(`Reachable.reorders_serialize`).
-/
import Compositing.Proofs.Reorder.Rollback
import Compositing.Proofs.Workspace.Course

namespace Compositing

namespace Transaction

variable {σ ρ : Type} [EffectEngine σ] [TextRasterizer ρ]
  {t : Transaction} {s : Session σ ρ} {outcome : ReorderOutcome}

/-- The outcome for a snapshot: settled at its revision and superseded at
any other one. -/
structure Decides (snapshot : Snapshot) (s : Session σ ρ)
    (outcome : ReorderOutcome) : Prop where
  processed : outcome ≠ .notProcessing
  settled : outcome.isSettled = true ↔ s.revision = snapshot.revision
  superseded : outcome = .superseded ↔ s.revision ≠ snapshot.revision

/-- A pending drop is decided by the revision. -/
theorem decides_process (snapshot : Snapshot) (candidate : List LayerId)
    (stackable : Stackable snapshot.layers) :
    Decides snapshot s ((processing snapshot candidate).process s).1 := by
  by_cases current : s.revision = snapshot.revision
  · have settled := (revision_lt_attempt stackable candidate s).1
    simp only [process, if_pos current]
    refine ⟨?_, iff_of_true settled current, iff_of_false ?_ (· current)⟩
    · intro eq
      rw [eq] at settled
      cases settled
    · intro eq
      rw [eq] at settled
      cases settled
  · simp only [process, if_neg current]
    exact ⟨by decide, iff_of_false Bool.false_ne_true current,
      iff_of_true rfl current⟩

/-- What a reordering replies of a processed drop: there was none, or the
snapshot that it holds decides. -/
theorem outcome_perform (faithful : t.Faithful s) {command : ReorderCommand}
    (replied : (t.perform s command).1.outcome? = some outcome) :
    (outcome = .notProcessing ∧ command = .process ∧
        ∀ snapshot candidate, t ≠ .processing snapshot candidate) ∨
      ∃ snapshot, t.snapshot? = some snapshot ∧
        Decides snapshot s outcome := by
  cases command with
  | process =>
    obtain rfl := Option.some.inj replied
    cases t with
    | processing snapshot candidate =>
      exact .inr ⟨snapshot, rfl,
        decides_process snapshot candidate faithful.1.stackable⟩
    | _ => exact .inl ⟨rfl, rfl, nofun⟩
  | dropAndProcess target side =>
    -- Only a drag can be dropped, and it drops its own snapshot.
    cases t with
    | dragging snapshot =>
      simp only [perform, answer, dropAndProcess, drop] at replied
      cases found : reorderCandidate (snapshot.layers.map (·.id))
          snapshot.source target side with
      | none =>
        rw [found] at replied
        cases replied
      | some candidate =>
        rw [found] at replied
        obtain rfl := Option.some.inj replied
        exact .inr ⟨snapshot, rfl,
          decides_process snapshot candidate faithful.stackable⟩
    | _ => cases replied
  | _ => cases replied

end Transaction

namespace Workspace

variable {σ ρ : Type} [EffectEngine σ] [TextRasterizer ρ]
  {w w' : Workspace σ ρ} {n : Nat}

/-- A command leaves a reordering idle or with the snapshot that it held,
unless it is a drag that is accepted. -/
theorem snapshot?_perform (w : Workspace σ ρ) (command : Command)
    (n : Nat) :
    (w.perform command).2.transaction n = .idle ∨
      ((w.perform command).2.transaction n).snapshot? =
        (w.transaction n).snapshot? ∨
      ∃ id, command = .reorder n (.dragStart id) ∧
        ((w.transaction n).dragStart w.session id).1 = true := by
  cases command with
  | session command => exact .inr (.inl rfl)
  | reorder m command =>
    by_cases other : n = m
    · subst other
      have held := (w.transaction n).snapshot?_perform w.session command
      simp only [perform, transaction_insert, if_pos]
      rcases held with idle | same | ⟨id, rfl, accepted⟩
      · exact .inl idle
      · exact .inr (.inl same)
      · exact .inr (.inr ⟨id, rfl, congrArg Prod.fst accepted⟩)
    · refine .inr (.inl ?_)
      simp only [perform, transaction_insert, if_neg other]
      rfl

/-- The last drag of a reordering began in `start`, and `log` is what has
been done since then. -/
structure DragBegan (n : Nat) (id : LayerId) (start : Workspace σ ρ)
    (log : List (Command × Reply)) (w : Workspace σ ρ) : Prop where
  reachable : start.Reachable
  accepted : ((start.transaction n).dragStart start.session id).1 = true
  course : Course (start.perform (.reorder n (.dragStart id))).2 log w
  last : ∀ id', (.reorder n (.dragStart id'), .dragging true) ∉ log

namespace DragBegan

variable {id : LayerId} {start : Workspace σ ρ}
  {log : List (Command × Reply)}

/-- The snapshot of a drag is that of the workspace in which it began. -/
theorem snapshot_eq (h : DragBegan n id start log w) {snapshot : Snapshot}
    (held : (w.transaction n).snapshot? = some snapshot) :
    snapshot.revision = start.session.revision := by
  obtain ⟨-, accepted, course, last⟩ := h
  induction course with
  | refl =>
    obtain ⟨-, taken⟩ :=
      Transaction.dragStart_eq_true (Prod.ext accepted rfl)
    simp only [perform, transaction_insert, if_pos, Transaction.perform,
      taken] at held
    rw [← Option.some.inj held]
  | drift before engine same ih => exact ih held last
  | @perform log w before command ih =>
    have last' : ∀ id', (.reorder n (.dragStart id'), .dragging true) ∉
        log :=
      fun id' mem => last id' (List.mem_append_left _ mem)
    rcases w.snapshot?_perform command n with idle | same |
      ⟨id', rfl, again⟩
    · rw [idle] at held
      cases held
    · exact ih (same ▸ held) last'
    · refine absurd (List.mem_append_right _ ?_) (last id')
      rw [List.mem_singleton]
      simp only [perform, Transaction.perform, again]

/-- From the beginning of a drag on the revision stays exactly if nothing
has changed the structure. -/
theorem revision_eq_iff (h : DragBegan n id start log w)
    (stock : w.InStock) :
    w.session.revision = start.session.revision ↔ Unrevised log :=
  h.course.revision_eq_iff (h.reachable.perform _) stock

end DragBegan

/-- Whatever a reordering holds it has from a drag. -/
theorem Reachable.exists_dragBegan (h : w.Reachable) (n : Nat) :
    w.transaction n = .idle ∨ ∃ id start log, DragBegan n id start log w := by
  induction h with
  | start made => exact .inl rfl
  | drift engine same reachable ih =>
    refine ih.imp_right ?_
    rintro ⟨id, start, log, began⟩
    exact ⟨id, start, log,
      { began with course := began.course.drift engine same }⟩
  | @perform w command reachable ih =>
    rcases w.snapshot?_perform command n with idle | same |
      ⟨id, rfl, accepted⟩
    · exact .inl idle
    · by_cases idle' : (w.perform command).2.transaction n = .idle
      · exact .inl idle'
      have busy : w.transaction n ≠ .idle := by
        intro idle
        rw [Transaction.snapshot?_eq_none_iff.mpr idle,
          Transaction.snapshot?_eq_none_iff] at same
        exact idle' same
      obtain ⟨id, start, log, began⟩ := ih.resolve_left busy
      refine .inr ⟨id, start, _,
        { began with
          course := began.course.perform command
          last := fun id' mem => ?_ }⟩
      rcases List.mem_append.mp mem with mem | mem
      · exact began.last id' mem
      -- A reordering that is busy accepts no drag.
      · obtain ⟨rfl, accepted⟩ := Prod.mk.inj (List.mem_singleton.mp mem)
        have accepted : ((w.transaction n).dragStart w.session id').1 =
            true := (Reply.dragging.inj accepted).symm
        exact busy (Transaction.dragStart_eq_true (Prod.ext accepted rfl)).1
    · exact .inr ⟨id, w, [], reachable, accepted, .refl, fun _ => nofun⟩

/-- A drop is settled exactly if nothing has changed the structure of the
stack since its drag began, and superseded otherwise; without a pending
drop there is nothing to process. Once a drop is settled, no drop whose
drag began at the same revision is. -/
theorem Reachable.reorders_serialize (h : w.Reachable) (stock : w.InStock)
    {command : ReorderCommand} {outcome : ReorderOutcome}
    (replied : (w.perform (.reorder n command)).1.outcome? =
      some outcome) :
    (outcome = .notProcessing → command = .process ∧
      ∀ snapshot candidate,
        w.transaction n ≠ .processing snapshot candidate) ∧
    (outcome ≠ .notProcessing →
      (∃ id start log, DragBegan n id start log w) ∧
      ∀ id start log, DragBegan n id start log w →
        (outcome.isSettled = true ↔ Unrevised log) ∧
        (outcome = .superseded ↔ ¬ Unrevised log) ∧
        (outcome.isSettled = true →
          ∀ later, (w.perform (.reorder n command)).2.Leads later →
            later.InStock →
          ∀ m id' start' log', DragBegan m id' start' log' later →
          ∀ command' outcome',
            (later.perform (.reorder m command')).1.outcome? =
              some outcome' →
            outcome'.isSettled = true →
              start'.session.revision ≠ start.session.revision)) := by
  have decided := Transaction.outcome_perform (h.faithful stock n) replied
  refine ⟨fun eq => ?_, fun processed => ?_⟩
  · rcases decided with ⟨-, command, free⟩ | ⟨snapshot, -, decides⟩
    · exact ⟨command, free⟩
    · exact absurd eq decides.processed
  obtain ⟨snapshot, held, decides⟩ :=
    decided.resolve_left fun none => processed none.1
  refine ⟨(h.exists_dragBegan n).resolve_left fun idle => ?_, ?_⟩
  · rw [idle] at held
    cases held
  intro id start log began
  have current := began.revision_eq_iff stock
  rw [← began.snapshot_eq held] at current
  refine ⟨decides.settled.trans current,
    decides.superseded.trans (not_congr current), ?_⟩
  intro settled later leads stock' m id' start' log' began' command' outcome'
    replied' settled'
  -- The first drop is a revision past its drag, and the second drag began
  -- at the revision of the second drop.
  have revised : (w.perform (.reorder n command)).2.session.revision ≠
      w.session.revision := by
    rw [ne_eq, h.revision_perform_eq_iff stock, not_not]
    exact .inr (.inr ⟨outcome, replied, settled⟩)
  have le := (moves_perform w (.reorder n command)).countedFrom.revision_le
  have le' := leads.moves.countedFrom.revision_le
  have same := decides.settled.mp settled
  have reachable' : later.Reachable :=
    began'.course.reachable (began'.reachable.perform _)
  have same' : later.session.revision = start'.session.revision := by
    rcases Transaction.outcome_perform (reachable'.faithful stock' m)
      replied' with ⟨rfl, -⟩ | ⟨snapshot', held', decides'⟩
    · cases settled'
    · rw [← began'.snapshot_eq held']
      exact decides'.settled.mp settled'
  have first := began.snapshot_eq held
  omega

/-- Two drags at one revision, one of them dropped and processed. -/
def concurrentDrags : Workspace Simulated.Engine Simulated.Rasterizer :=
  ((simulated {} Simulated.layers).run
    [.session (.rebuild false),
      .reorder 0 (.dragStart (.ofNat 3)),
      .reorder 1 (.dragStart (.ofNat 2)),
      .reorder 0 (.dropAndProcess (.ofNat 1) .above),
      .reorder 1 (.drop (.ofNat 3) .above)]).2

/-- Of two drags at one revision the second drop is superseded. -/
theorem Reachable.reorders_serialize_of_concurrent_drags :
    concurrentDrags.Reachable ∧ concurrentDrags.InStock ∧
      (concurrentDrags.perform (.reorder 1 .process)).1.outcome? =
        some .superseded ∧
      (∃ id start log, DragBegan 1 id start log concurrentDrags) ∧
      ∀ id start log, DragBegan 1 id start log concurrentDrags →
        ¬ Unrevised log := by
  have reachable : concurrentDrags.Reachable :=
    (reachable_simulated _ Simulated.stackable_layers).run _
  have stock : concurrentDrags.InStock := by
    decide +kernel
  have replied :
      (concurrentDrags.perform (.reorder 1 .process)).1.outcome? =
        some .superseded := by
    decide +kernel
  obtain ⟨-, decided⟩ := reachable.reorders_serialize stock replied
  obtain ⟨began, all⟩ := decided nofun
  refine ⟨reachable, stock, replied, began, fun id start log drag => ?_⟩
  exact (all id start log drag).2.1.mp rfl

end Workspace

end Compositing
