/-
Compositing.Proofs.Reorder.AllOrNothing — a processed drop applies its
candidate or nothing.

A drop that is processed at the revision of its snapshot finds the stack
in the snapshot's order, so the candidate is an order of the stack
(`setOrder` accepts it) and the snapshot is an order of it as well. What
is left to the engine is whether the candidate is committed or the
snapshot restored (`AllOrNothing`). The candidate is written as a program
twice, for the trial and for the commit; the two texts are one unless the
trial has changed what the engine publishes.
-/
import Compositing.Proofs.Session.Synchrony

namespace Compositing.Transaction

variable {σ ρ : Type} [EffectEngine σ]

/-- What processing may have made of a session, by its outcome. -/
inductive AllOrNothing (t : Transaction) (s s' : Session σ ρ) :
    ReorderOutcome → Prop where
  /-- The order is the candidate and the layers are untouched. The engine
  accepted two texts, the trial of the candidate and the text that the
  session committed, which is made of the candidate once more, with what
  the engine publishes after the trial. If that is what it published
  before, the two are one text. -/
  | committed (snapshot : Snapshot) (order : List LayerId)
      (held : t = .processing snapshot order)
      (applied : s'.stack.order = order)
      (contents : ∀ id, s'.stack.get? id = s.stack.get? id)
      (fresh : s'.stale = false)
      (events : List Event) (trial text : String)
      (journal : s'.journal = s.journal ++ events)
      (accepted : Event.acceptedTexts events = [trial, text])
      (tried : trial = (s.programOf (s.stack.arranged order)).text)
      (running : s'.programText? = some text)
      (again : text =
        ((s.tryCompile trial).2.programOf (s.stack.arranged order)).text)
      (agree : EffectEngine.manifest (s.tryCompile trial).2.engine =
          EffectEngine.manifest s.engine →
        text = trial) :
      AllOrNothing t s s' (.committed order)
  /-- The order is what it was, the snapshot having made a stack. -/
  | rolledBack (snapshot : Snapshot) (candidate : List LayerId)
      (reason : String) (stack : LayerStack)
      (held : t = .processing snapshot candidate)
      (order : s'.stack.order = s.stack.order)
      (made : LayerStack.ofLayers snapshot.layers = .ok stack)
      (restored : s'.stack = stack) :
      AllOrNothing t s s' (.rolledBack reason)
  /-- Nothing is changed and nothing was asked. -/
  | superseded (snapshot : Snapshot) (candidate : List LayerId)
      (held : t = .processing snapshot candidate)
      (revised : s.revision ≠ snapshot.revision) (unchanged : s' = s) :
      AllOrNothing t s s' .superseded
  /-- Nothing is changed and nothing was asked. -/
  | notProcessing
      (free : ∀ snapshot candidate, t ≠ .processing snapshot candidate)
      (unchanged : s' = s) :
      AllOrNothing t s s' .notProcessing

/-! ## The candidate -/

omit [EffectEngine σ] in
/-- At the revision of the snapshot a candidate is an order of the
stack. -/
theorem setOrder_candidate {snapshot : Snapshot} {candidate : List LayerId}
    {s : Session σ ρ} (sound : s.composition.Sound)
    (faithful : (processing snapshot candidate).Faithful s)
    (current : s.revision = snapshot.revision) :
    s.stack.order = snapshot.layers.map (·.id) ∧
      s.stack.setOrder candidate = .ok { s.stack with order := candidate } := by
  obtain ⟨snap, target, side, found⟩ := faithful
  have order : s.stack.order = snapshot.layers.map (·.id) := by
    rw [← map_id_eq_of_skeleton_eq (snap.skeleton current)]
    exact sound.stack.coherent.map_id_toList.symm
  rw [← order] at found
  refine ⟨order, LayerStack.setOrder_of_perm sound.stack.coherent ?_ ?_⟩
  · exact perm_of_reorderCandidate found
  · exact head?_of_reorderCandidate found

omit [EffectEngine σ] in
/-- An order that the stack accepts is committed. -/
theorem commitOrder_of_setOrder {s : Session σ ρ} {order : List LayerId}
    {stack : LayerStack} (accepted : s.stack.setOrder order = .ok stack) :
    s.commitOrder order =
      (.ok (), Session.invalidate
        { s with composition := { s.composition with stack := stack } }) := by
  unfold Session.commitOrder
  rw [accepted]

/-! ## The trial -/

/-- An accepted trial is what the engine runs, and the stack is as it
was. -/
theorem tryCompile_eq_ok {text : String} {s s' : Session σ ρ}
    (tried : s.tryCompile text = (.ok (), s')) :
    ∃ events, s'.journal = s.journal ++ events ∧
      Event.acceptedTexts events = [text] ∧
      s'.composition = s.composition ∧ s'.config = s.config := by
  obtain ⟨quiet, engine, isQuiet, -, accepted | ⟨e, refused⟩⟩ :=
    Session.compileText_cases text s
  · simp only [Session.tryCompile, accepted] at tried
    obtain rfl := (Prod.mk.inj tried).2
    refine ⟨quiet ++ [.compile text true], rfl, ?_, rfl, rfl⟩
    rw [Event.acceptedTexts_append, Event.acceptedTexts_of_quiet isQuiet]
    rfl
  · simp only [Session.tryCompile, refused] at tried
    cases (Prod.mk.inj tried).1

theorem verdict_tryCompile (text : String) (s : Session σ ρ) :
    (s.tryCompile text).1 = (s.compileText text).1 := by
  unfold Session.tryCompile
  split <;> rename_i compiled <;> rw [compiled]

theorem stack_tryCompile (text : String) (s : Session σ ρ) :
    (s.tryCompile text).2.stack = s.stack := by
  obtain ⟨events, engine, stale, -, eq⟩ := s.exists_tryCompile_eq text
  rw [eq]
  rfl

variable [TextRasterizer ρ]

/-! ## The outcome -/

theorem stack_setLayers {layers : List Layer} {stack : LayerStack}
    (made : LayerStack.ofLayers layers = .ok stack) (s : Session σ ρ) :
    (s.setLayers layers).2.stack = stack := by
  unfold Session.setLayers
  rw [made]
  dsimp only
  rw [Session.stack, Session.composition_rebuild]
  rfl

/-- Rolling back to a faithful snapshot restores the order. -/
theorem allOrNothing_rollBack {snapshot : Snapshot}
    {candidate : List LayerId} {s : Session σ ρ}
    (order : s.stack.order = snapshot.layers.map (·.id))
    (stackable : Stackable snapshot.layers) (reason : String)
    (tried : Session σ ρ) :
    AllOrNothing (processing snapshot candidate) s
      (rollBack snapshot reason tried).2
      (rollBack snapshot reason tried).1 := by
  have made := LayerStack.ofLayers_eq_ok_iff.mpr ⟨stackable, rfl⟩
  have restored := stack_setLayers made tried
  refine .rolledBack snapshot candidate reason _ rfl ?_ made restored
  rw [order]
  exact congrArg LayerStack.order restored

/-- A forced rebuild that succeeds leaves the session's own text
running. -/
theorem rebuild_true_eq_ok {s s' : Session σ ρ} {report : CompileReport}
    (rebuilt : s.rebuild true = (.ok report, s')) :
    ∃ events, s'.journal = s.journal ++ events ∧
      Event.acceptedTexts events = [(s.programOf s.layers).text] ∧
      s'.composition = s.composition ∧ s'.stale = false ∧
      s'.programText? = some (s.programOf s.layers).text := by
  cases Session.rebuilt_of_rebuild rebuilt with
  | skipped c unforced unchanged => cases unforced
  | committed quiet engine isQuiet same s' fed =>
    obtain ⟨feeds, engine', rasterizer, isFeed, same'⟩ := fed
    refine ⟨_, List.append_assoc _ _ _, ?_, rfl, rfl, rfl⟩
    rw [Event.acceptedTexts_append, Event.acceptedTexts_append,
      Event.acceptedTexts_of_quiet isQuiet,
      Event.acceptedTexts_of_feed isFeed]
    rfl

/-- Committing an order after a trial of it leaves the order, the layers
and the text of the trial. -/
theorem allOrNothing_commit {snapshot : Snapshot}
    {candidate : List LayerId} {s s₁ s₂ : Session σ ρ}
    {report : CompileReport}
    (accepted : s.stack.setOrder candidate =
      .ok { s.stack with order := candidate })
    (tried : s.tryCompile
      (s.programOf (s.stack.arranged candidate)).text = (.ok (), s₁))
    (committed : commit candidate s₁ = (.ok report, s₂)) :
    AllOrNothing (processing snapshot candidate) s s₂
      (.committed candidate) := by
  obtain ⟨trial, journal, texts, composition, config⟩ :=
    tryCompile_eq_ok tried
  have stack : s₁.stack = s.stack := congrArg Composition.stack composition
  rw [← stack] at accepted
  unfold commit at committed
  rw [commitOrder_of_setOrder accepted] at committed
  obtain ⟨events, journal', texts', composition', fresh, text⟩ :=
    rebuild_true_eq_ok committed
  have stack' : s₂.stack = { s₁.stack with order := candidate } :=
    congrArg Composition.stack composition'
  refine .committed snapshot candidate rfl ?_ ?_ fresh (trial ++ events) _ _
    ?_ ?_ rfl text ?_ ?_
  · rw [stack']
  · intro id
    rw [stack', stack]
    rfl
  · rw [journal', ← List.append_assoc, ← journal]
    rfl
  · rw [Event.acceptedTexts_append, texts, texts']
    rfl
  · rw [tried, ← stack]
    rfl
  · intro same
    rw [tried] at same
    have program : s₁.programOf (s₁.stack.arranged candidate) =
        s.programOf (s.stack.arranged candidate) := by
      rw [stack]
      exact Session.programOf_congr s s₁ same config _
    exact congrArg Program.text program

/-- A drop that is processed at the revision of its snapshot is applied
or rolled back. -/
theorem allOrNothing_attempt {snapshot : Snapshot}
    {candidate : List LayerId} {s : Session σ ρ}
    (sound : s.composition.Sound)
    (faithful : (processing snapshot candidate).Faithful s)
    (current : s.revision = snapshot.revision) :
    AllOrNothing (processing snapshot candidate) s
      (attempt snapshot candidate s).2 (attempt snapshot candidate s).1 := by
  have ⟨order, accepted⟩ := setOrder_candidate sound faithful current
  have stackable : Stackable snapshot.layers := faithful.1.stackable
  unfold attempt
  dsimp only
  cases tried : s.tryCompile (s.programOf (s.stack.arranged candidate)).text
    with
  | mk result s₁ =>
    cases result with
    | error e => exact allOrNothing_rollBack order stackable e.message s₁
    | ok _ =>
      dsimp only
      cases committed : commit candidate s₁ with
      | mk result s₂ =>
        cases result with
        | error e => exact allOrNothing_rollBack order stackable e.message s₂
        | ok report => exact allOrNothing_commit accepted tried committed

theorem allOrNothing_process {t : Transaction} {s : Session σ ρ}
    (sound : s.composition.Sound) (faithful : t.Faithful s) :
    t.AllOrNothing s (t.process s).2.2 (t.process s).1 := by
  cases t with
  | processing snapshot candidate =>
    by_cases current : s.revision = snapshot.revision
    · simp only [process, if_pos current]
      exact allOrNothing_attempt sound faithful current
    · simp only [process, if_neg current]
      exact .superseded snapshot candidate rfl current rfl
  | _ => exact .notProcessing (fun _ _ held => by cases held) rfl

/-- An engine that takes every text commits the candidate. -/
theorem process_of_accepting
    (accepts : ∀ (text : String) (s : Session σ ρ),
      (s.compileText text).1 = .ok ())
    {snapshot : Snapshot} {candidate : List LayerId} {s : Session σ ρ}
    (sound : s.composition.Sound)
    (faithful : (processing snapshot candidate).Faithful s)
    (current : s.revision = snapshot.revision) :
    ((processing snapshot candidate).process s).1 = .committed candidate := by
  have ⟨_, accepted⟩ := setOrder_candidate sound faithful current
  simp only [process, if_pos current, attempt]
  cases tried : s.tryCompile (s.programOf (s.stack.arranged candidate)).text
    with
  | mk verdict s₁ =>
    obtain rfl : verdict = .ok () := by
      rw [← accepts _ s, ← verdict_tryCompile, tried]
    have stack := stack_tryCompile
      (s.programOf (s.stack.arranged candidate)).text s
    rw [tried] at stack
    rw [← stack] at accepted
    let reordered : Session σ ρ := Session.invalidate
      { s₁ with
        composition :=
          { s₁.composition with
            stack := { s₁.stack with order := candidate } } }
    obtain ⟨report, built⟩ := Session.exists_report true (s := reordered) rfl
      (congrArg Except.isOk (accepts _ _))
    have committed : commit candidate s₁ = reordered.rebuild true := by
      rw [commit, commitOrder_of_setOrder accepted]
    simp only [committed]
    cases rebuilt : reordered.rebuild true with
    | mk verdict s₂ =>
      rw [rebuilt] at built
      obtain rfl : verdict = .ok report := built
      rfl

end Compositing.Transaction

namespace Compositing.Workspace.Reachable

variable {σ ρ : Type} [EffectEngine σ] [TextRasterizer ρ]
  {w : Workspace σ ρ}

/-- Processing a drop in a reachable workspace is all or nothing, and past
the check of the revision the candidate is an order of the stack whatever
the engine answers to the trial. -/
theorem process_all_or_nothing (h : w.Reachable) (stock : w.InStock)
    (n : Nat) :
    (w.transaction n).AllOrNothing w.session
        ((w.transaction n).process w.session).2.2
        ((w.transaction n).process w.session).1 ∧
      ∀ snapshot candidate,
        w.transaction n = .processing snapshot candidate →
        w.session.revision = snapshot.revision →
        ∀ trial, ((w.session.tryCompile trial).2.commitOrder candidate).1 =
          .ok () := by
  have faithful := h.faithful stock n
  have sound := h.sound stock
  generalize w.transaction n = t at faithful ⊢
  refine ⟨Transaction.allOrNothing_process sound faithful, ?_⟩
  · rintro snapshot candidate rfl current trial
    obtain ⟨-, accepted⟩ :=
      Transaction.setOrder_candidate sound faithful current
    rw [← Transaction.stack_tryCompile trial] at accepted
    rw [Transaction.commitOrder_of_setOrder accepted]

/-- The second hidden layer is dropped above the base, the first one
having been renamed meanwhile. -/
theorem process_all_or_nothing_after_rename :
    let w := ((simulated {} Simulated.layers).run
      [.session (.rebuild false),
        .reorder 0 (.dragStart (.ofNat 3)),
        .session (.rename (.ofNat 2) "renamed"),
        .reorder 0 (.drop (.ofNat 1) .above)]).2
    w.Reachable ∧ w.InStock ∧
      ((w.transaction 0).process w.session).1 =
        .committed [.ofNat 1, .ofNat 3, .ofNat 2] ∧
      (w.transaction 0).AllOrNothing w.session
          ((w.transaction 0).process w.session).2.2
          ((w.transaction 0).process w.session).1 ∧
        ∀ snapshot candidate,
          w.transaction 0 = .processing snapshot candidate →
          w.session.revision = snapshot.revision →
          ∀ trial,
            ((w.session.tryCompile trial).2.commitOrder candidate).1 =
              .ok () := by
  intro w
  have reachable : w.Reachable :=
    (reachable_simulated _ Simulated.stackable_layers).run _
  have stock : w.InStock := by
    decide +kernel
  have outcome : ((w.transaction 0).process w.session).1 =
      .committed [.ofNat 1, .ofNat 3, .ofNat 2] := by
    decide +kernel
  exact ⟨reachable, stock, outcome,
    reachable.process_all_or_nothing stock 0⟩

/-- The second hidden layer is dropped above the clock. The trial lets the
engine publish that the clock is a generator, so the text that is committed
is not the one that was tried. -/
theorem process_commits_untried_text :
    let w := (Workspace.run { session := Simulated.Learning.session }
      [.reorder 0 (.dragStart (.ofNat 3)),
        .reorder 0 (.drop (.ofNat 1) .above)]).2
    let processed := (w.transaction 0).process w.session
    w.Reachable ∧ w.InStock ∧
      processed.1 = .committed [.ofNat 1, .ofNat 3, .ofNat 2] ∧
      ∃ trial text,
        Event.acceptedTexts processed.2.2.journal = [trial, text] ∧
          processed.2.2.programText? = some text ∧ trial ≠ text := by
  intro w processed
  have reachable : w.Reachable := Simulated.Learning.reachable.run _
  have stock : w.InStock := by
    decide +kernel
  have faithful := reachable.faithful stock 0
  have sound := reachable.sound stock
  obtain ⟨snapshot, held, current⟩ : ∃ snapshot,
      w.transaction 0 =
          .processing snapshot [.ofNat 1, .ofNat 3, .ofNat 2] ∧
        w.session.revision = snapshot.revision :=
    ⟨_, rfl, rfl⟩
  have outcome : processed.1 = .committed [.ofNat 1, .ofNat 3, .ofNat 2] := by
    rw [held] at faithful
    simp only [processed, held]
    exact Transaction.process_of_accepting
      (fun text s => by rw [Simulated.Learning.compileText_eq]) sound faithful
      current
  have applied := Transaction.allOrNothing_process sound faithful
  change (w.transaction 0).AllOrNothing w.session processed.2.2 processed.1
    at applied
  rw [outcome] at applied
  refine ⟨reachable, stock, outcome, ?_⟩
  cases applied with
  | committed snapshot order held applied contents fresh events trial text
      journal accepted tried running again agree =>
    refine ⟨trial, text, ?_, running, ?_⟩
    · rw [journal]
      exact accepted
    · -- Once the trial runs, the engine publishes more.
      have runs : (w.session.tryCompile trial).2.engine.graph.isSome := by
        rw [Session.tryCompile, Simulated.Learning.compileText_eq]
        rfl
      have config : (w.session.tryCompile trial).2.config =
          w.session.config := by
        rw [Session.tryCompile, Simulated.Learning.compileText_eq]
        rfl
      rw [again, Simulated.Learning.programOf_eq runs,
        Simulated.Learning.learnedProgram_congr config, tried]
      exact Simulated.Learning.text_ne rfl

end Compositing.Workspace.Reachable
