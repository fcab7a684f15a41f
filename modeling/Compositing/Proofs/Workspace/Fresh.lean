/-
Compositing.Proofs.Workspace.Fresh — no identity comes twice.

Every edit that makes something new hands out the next identities of the
source, and no other command hands out any (`gives_perform`). So what a
run hands out ascends (`HandsOut.gives`), and since the source of a
reachable workspace covers every identity that is or was in the stack, no
identity that is handed out was ever there before, wherever it came from
and even if it was removed since.
-/
import Compositing.Proofs.Workspace.Twins

namespace Compositing

/-! ## Edits that make something new -/

namespace Composition

open IdSource (Gives)

variable {c c' : Composition} {id made : LayerId}

theorem gives_mint (c : Composition) : c.ids.Gives [c.mint.1] c.mint.2.ids :=
  .of_count rfl rfl

theorem gives_addLayer {name : String} {source : LayerSource}
    {params : Params}
    (accepted : addLayer name source params c = (.ok made, c')) :
    c.ids.Gives [made] c'.ids := by
  cases accepted
  exact gives_mint c

theorem gives_extractChild {child : LayerId}
    (accepted : extractChild child c = (.ok made, c')) :
    c.ids.Gives [made] c'.ids := by
  unfold extractChild at accepted
  split at accepted
  · rename_i owner index found located
    cases accepted
    exact gives_mint (c.dropChild owner index)
  · cases accepted

theorem gives_addChild {effect : EffectId} {params : Params}
    (accepted : addChild id effect params c = (.ok made, c')) :
    c.ids.Gives [made] c'.ids := by
  unfold addChild editLayer at accepted
  dsimp only at accepted
  cases found : c.mint.2.stack.get? id with
  | none =>
    rw [found] at accepted
    cases accepted
  | some l =>
    rw [found] at accepted
    cases accepted
    exact gives_mint c

/-- The copy of a layer that a duplication leaves in the stack: it has an
identity of its own, and so has each of its child effects. -/
theorem exists_copy_of_duplicateLayer
    (accepted : duplicateLayer id c = (.ok made, c')) :
    ∃ l copy, c.stack.get? id = some l ∧ c'.stack.get? made = some copy ∧
      copy.children.length = l.children.length ∧
      c.ids.Gives copy.ids c'.ids := by
  unfold duplicateLayer at accepted
  split at accepted
  · rename_i index l position found
    cases accepted
    refine ⟨l, (copyOf l c).1, found, ?_, ?_,
      .of_count (ids_copyOf l c) (next_copyOf l c)⟩
    · exact (LayerStack.get?_insert _ _ _).trans (if_pos rfl)
    · have lengths := congrArg List.length (ids_copyOf l c)
      simpa [Layer.ids] using lengths
  · cases accepted

end Composition

/-! ## Commands -/

/-- The identities that a command has handed out, in their order: a copy
gets one for the layer and one for each child effect, and these are in the
stack afterwards. -/
def SessionCommand.handedOut (after : LayerStack) :
    SessionCommand → Reply → List LayerId
  | .mint, .minted id => [id]
  | .addLayer _ _ _, .created (.ok made) => [made.value]
  | .extractChild _, .created (.ok made) => [made.value]
  | .addChild _ _ _, .created (.ok made) => [made.value]
  | .duplicateLayer _, .created (.ok made) =>
    ((after.get? made.value).map Layer.ids).getD []
  | _, _ => []

namespace Session

open IdSource (Gives)

variable {σ ρ : Type} [EffectEngine σ] [TextRasterizer ρ]

/-- An edit that is refused hands out nothing, one that is applied what
its change hands out, whatever comes of the recompile. -/
theorem gives_answer_edit (handedOut : LayerStack → Reply → List LayerId)
    (refused : ∀ after e, handedOut after (.created (.error e)) = [])
    {change : Edit LayerId} {s : Session σ ρ}
    (applied : ∀ {made : Edited LayerId} {c' : Composition},
      change s.composition = (.ok made.value, c') →
        s.composition.ids.Gives (handedOut c'.stack (.created (.ok made)))
          c'.ids)
    (le : s.composition.ids.next ≤ (s.edit change).2.composition.ids.next) :
    s.composition.ids.Gives
      (handedOut (s.edit change).2.stack (.created (s.edit change).1))
      (s.edit change).2.composition.ids := by
  have changed := edit_change change s
  cases result : (s.edit change).1 with
  | error e =>
    rw [refused]
    exact .nil le
  | ok made =>
    rw [result] at changed
    exact applied changed.symm

/-- A command hands out the next identities of the source, or none. -/
theorem gives_perform (s : Session σ ρ) (command : SessionCommand) :
    s.composition.ids.Gives
      (command.handedOut (s.perform command).2.stack (s.perform command).1)
      (s.perform command).2.composition.ids := by
  have le := (moves_perform s command).next_le
  cases command with
  | mint => exact Composition.gives_mint s.composition
  | addLayer name source params =>
    simp only [perform, answer] at le ⊢
    exact gives_answer_edit
      (SessionCommand.handedOut · (.addLayer name source params))
      (fun _ _ => rfl) Composition.gives_addLayer le
  | extractChild child =>
    simp only [perform, answer] at le ⊢
    exact gives_answer_edit (SessionCommand.handedOut · (.extractChild child))
      (fun _ _ => rfl) Composition.gives_extractChild le
  | addChild id effect params =>
    simp only [perform, answer] at le ⊢
    exact gives_answer_edit
      (SessionCommand.handedOut · (.addChild id effect params))
      (fun _ _ => rfl) Composition.gives_addChild le
  | duplicateLayer id =>
    simp only [perform, answer] at le ⊢
    refine gives_answer_edit
      (SessionCommand.handedOut · (.duplicateLayer id)) (fun _ _ => rfl)
      (fun {made c'} accepted => ?_) le
    obtain ⟨l, copy, -, found, -, gives⟩ :=
      Composition.exists_copy_of_duplicateLayer accepted
    rwa [SessionCommand.handedOut, found]
  | _ => exact .nil le

end Session

/-! ## Runs -/

namespace Workspace

open IdSource (Gives)

variable {σ ρ : Type} [EffectEngine σ] [TextRasterizer ρ]

/-- The identities that a command hands out; reorderings hand out none. -/
def handedOut (w : Workspace σ ρ) : Command → List LayerId
  | .session command =>
    let next := w.session.perform command
    command.handedOut next.2.stack next.1
  | .reorder _ _ => []

/-- The identities that are handed out on the way from one workspace to a
later one, in their order. In between the engine may change by itself. -/
inductive HandsOut (w : Workspace σ ρ) :
    List LayerId → Workspace σ ρ → Prop where
  | refl : HandsOut w [] w
  | perform {given : List LayerId} {w' : Workspace σ ρ}
      (before : HandsOut w given w') (command : Command) :
      HandsOut w (given ++ w'.handedOut command) (w'.perform command).2
  | drift {given : List LayerId} {w' : Workspace σ ρ}
      (before : HandsOut w given w') (engine : σ)
      (same : SameManifest w'.session.engine engine) :
      HandsOut w given
        { w' with session := { w'.session with engine := engine } }

variable {w w' : Workspace σ ρ} {given : List LayerId}

/-- A command hands out the next identities of the source, or none. -/
theorem gives_handedOut (w : Workspace σ ρ) (command : Command) :
    w.session.composition.ids.Gives (w.handedOut command)
      (w.perform command).2.session.composition.ids := by
  cases command with
  | session command => exact w.session.gives_perform command
  | reorder n command =>
    exact .nil (moves_perform w (.reorder n command)).next_le

theorem HandsOut.reachable (run : w.HandsOut given w') (h : w.Reachable) :
    w'.Reachable := by
  induction run with
  | refl => exact h
  | perform before command ih => exact ih.perform command
  | drift before engine same ih => exact ih.drift engine same

/-- Over a run the identities that are handed out ascend, up to the next
one. -/
theorem HandsOut.ascending (run : w.HandsOut given w')
    (stock : w'.InStock) :
    given.Pairwise (·.val < ·.val) ∧
      ∀ id ∈ given, id.val < w'.session.composition.ids.next := by
  induction run with
  | refl => exact ⟨.nil, nofun⟩
  | drift before engine same ih => exact ih stock
  | @perform given w' before command ih =>
    have gives := gives_handedOut w' command
    obtain ⟨ascending, below⟩ := ih (Nat.lt_of_le_of_lt gives.next_le stock)
    refine ⟨List.pairwise_append.mpr
      ⟨ascending, gives.ascending stock, fun a old b new => ?_⟩, ?_⟩
    -- What was handed out lies below the identity that comes next.
    · have lt := below a old
      have le := (gives.range stock new).1
      omega
    · intro id mem
      rcases List.mem_append.mp mem with old | new
      · exact Nat.lt_of_lt_of_le (below id old) gives.next_le
      · exact (gives.range stock new).2

/-- Nothing that a command hands out was in the stack at any moment that led
to it. -/
theorem Reachable.not_mem_of_handedOut {earlier : Workspace σ ρ}
    (h : earlier.Reachable) (leads : earlier.Leads w) {command : Command}
    (stock : (w.perform command).2.InStock) {id : LayerId}
    (mem : id ∈ w.handedOut command) :
    id ∉ earlier.session.layers.flatMap Layer.ids := by
  intro seen
  have gives := gives_handedOut w command
  have before : earlier.InStock :=
    Nat.lt_of_le_of_lt leads.moves.next_le
      (Nat.lt_of_le_of_lt gives.next_le stock)
  -- A source that was moved past an identity stays past it, whatever
  -- becomes of the layer.
  have covers := ((h.sound before).covers id seen).mono leads.moves.next_le
  exact gives.ne_of_covers stock covers mem rfl

/-- A duplication hands out an identity for the copy and one for each of its
child effects, and the copy is in the stack. -/
theorem Reachable.exists_copy (h : w.Reachable) {l : Layer}
    (mem : l ∈ w.session.layers)
    (stock : (w.perform (.session (.duplicateLayer l.id))).2.InStock) :
    ∃ copy ∈ (w.perform (.session (.duplicateLayer l.id))).2.session.layers,
      copy.children.length = l.children.length ∧
        w.handedOut (.session (.duplicateLayer l.id)) = copy.ids := by
  have next := ((h.perform (.session (.duplicateLayer l.id))).sound stock).stack
  have before : w.InStock :=
    Nat.lt_of_le_of_lt (moves_perform w _).next_le stock
  have coherent := (h.sound before).stack.coherent
  have found := coherent.get?_of_mem_toList mem
  have answers := Composition.answers_duplicateLayer coherent l.id
  have present : missingLayer? w.session.composition.layers l.id = none :=
    coherent.missingLayer?_of_get?_eq_some found
  rw [present] at answers
  obtain ⟨made, accepted⟩ := w.session.answers_edit answers
  have changed :=
    w.session.edit_change (Composition.duplicateLayer l.id)
  rw [accepted] at changed
  obtain ⟨l', copy, found', placed, children, -⟩ :=
    Composition.exists_copy_of_duplicateLayer changed.symm
  obtain rfl := Option.some.inj (found'.symm.trans found)
  refine ⟨copy, next.coherent.mem_toList_of_get? placed, children, ?_⟩
  simp only [handedOut, Session.perform, answer, accepted]
  rw [SessionCommand.handedOut, Session.stack, placed]
  rfl

/-- Identities are never reused. Over any run, as long as they do not run
out, the identities that are handed out ascend, and none that a command
hands out was in the stack at any earlier moment: not as one that was
handed out before, nor as one that came with layers from elsewhere, and
whether or not it was removed since. A copy gets an identity of its own,
and so does each of its child effects. -/
theorem Reachable.identities_never_reused (h : w.Reachable)
    (run : w.HandsOut given w') (command : Command)
    (stock : (w'.perform command).2.InStock) :
    (given ++ w'.handedOut command).Pairwise (·.val < ·.val) ∧
      (∀ earlier : Workspace σ ρ, earlier.Reachable → earlier.Leads w' →
        ∀ id ∈ w'.handedOut command,
          id ∉ earlier.session.layers.flatMap Layer.ids) ∧
      ∀ l ∈ w'.session.layers,
        command = .session (.duplicateLayer l.id) →
          ∃ copy ∈ (w'.perform command).2.session.layers,
            copy.children.length = l.children.length ∧
              w'.handedOut command = copy.ids := by
  refine ⟨((run.perform command).ascending stock).1,
    fun earlier reachable leads id mem =>
      reachable.not_mem_of_handedOut leads stock mem, ?_⟩
  rintro l mem rfl
  exact (run.reachable h).exists_copy mem stock

/-- Layers from elsewhere bring identities, and one of them is removed
before a layer is copied. -/
theorem Reachable.identities_never_reused_of_removal :
    let foreign : List Layer :=
      [{ id := .ofNat 1, source := .effect (some EffectId.solid) },
        { id := .ofNat 60, visible := false, source := .effect none
          children := [{ id := .ofNat 65, effect := EffectId.blend }] },
        { id := .ofNat 70, visible := false, source := .effect none }]
    let w := simulated {} Simulated.layers
    let earlier := (w.perform (.session (.setLayers foreign))).2
    let removed := (earlier.perform (.session (.removeLayer (.ofNat 70)))).2
    let w' := (removed.perform (.session .mint)).2
    let command : Command := .session (.duplicateLayer (.ofNat 60))
    w.Reachable ∧ w.HandsOut [.ofNat 71] w' ∧
      (w'.perform command).2.InStock ∧ earlier.Reachable ∧
      earlier.Leads w' ∧
      LayerId.ofNat 70 ∈ earlier.session.layers.flatMap Layer.ids ∧
      LayerId.ofNat 70 ∉ w'.session.layers.flatMap Layer.ids ∧
      w'.handedOut command = [.ofNat 72, .ofNat 73] ∧
      ([LayerId.ofNat 71] ++ w'.handedOut command).Pairwise (·.val < ·.val) ∧
      ∀ id ∈ w'.handedOut command,
        id ∉ earlier.session.layers.flatMap Layer.ids := by
  intro foreign w earlier removed w' command
  have reachable : w.Reachable :=
    reachable_simulated _ Simulated.stackable_layers
  have reachable' : earlier.Reachable := reachable.perform _
  have run : w.HandsOut
      ([] ++ w.handedOut (.session (.setLayers foreign)) ++
        earlier.handedOut (.session (.removeLayer (.ofNat 70))) ++
        removed.handedOut (.session .mint)) w' :=
    ((HandsOut.refl.perform _).perform _).perform _
  have computed :
      [] ++ w.handedOut (.session (.setLayers foreign)) ++
          earlier.handedOut (.session (.removeLayer (.ofNat 70))) ++
          removed.handedOut (.session .mint) = [.ofNat 71] ∧
        (w'.perform command).2.InStock ∧
        LayerId.ofNat 70 ∈ earlier.session.layers.flatMap Layer.ids ∧
        LayerId.ofNat 70 ∉ w'.session.layers.flatMap Layer.ids ∧
        w'.handedOut command = [.ofNat 72, .ofNat 73] := by
    decide +kernel
  obtain ⟨given, stock, seen, gone, copied⟩ := computed
  rw [given] at run
  have leads : earlier.Leads w' :=
    .head (.perform _) (.single (.perform _))
  obtain ⟨ascending, fresh, -⟩ :=
    reachable.identities_never_reused run command stock
  exact ⟨reachable, run, stock, reachable', leads, seen, gone, copied,
    ascending, fresh earlier reachable' leads⟩

end Workspace

end Compositing
