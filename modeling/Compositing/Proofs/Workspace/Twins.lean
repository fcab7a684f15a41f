/-
Compositing.Proofs.Workspace.Twins — two runs of the same commands.

Engines have no say in what the layers are. An edit leaves the composition
of its change and gives the result of its change, whatever comes of the
recompile (`edit_change`), and what rebuilds, updates and uploads ask of
the engine leaves the composition alone. So two sessions over the same
layers that are given the same commands stay `Alike`, whatever their
engines, rasterizers and settings, and the replies differ at most in what
they say of the engine (`Reply.verdict`).
-/
import Compositing.Proofs.Session.Versions
import Compositing.Proofs.Workspace.Refusals

namespace Compositing

/-! ## What replies say of the layers -/

/-- What a reply says of the layers. -/
inductive Verdict where
  | refused (e : Error)
  | done
  | created (id : LayerId)
  | removedLayer (l : Layer)
  | removedChild (c : ChildEffect)
  | dragging (accepted : Bool)
  | dropped (pending : Bool)

/-- The verdict of a result: refused, or `tell` of its value. -/
def Verdict.ofResult {α : Type} (tell : α → Verdict) :
    Except Error α → Verdict
  | .error e => .refused e
  | .ok value => tell value

/-- A reply without what it says of the engine: whether the recompile of
an edit succeeded, whether an update was pushed, how many textures were
uploaded. -/
def Reply.verdict : Reply → Verdict
  | .rebuilt result => .ofResult (fun _ => .done) result
  | .done result => .ofResult (fun _ => .done) result
  | .updated result => .ofResult (fun _ => .done) (result.map fun _ => ())
  | .created result => .ofResult .created (result.map (·.value))
  | .removedLayer result =>
    .ofResult .removedLayer (result.map (·.value))
  | .removedChild result =>
    .ofResult .removedChild (result.map (·.value))
  | .changed result => .ofResult (fun _ => .done) (result.map (·.value))
  | .minted id => .created id
  | .dragging accepted => .dragging accepted
  | .dropped pending => .dropped pending
  | .uploaded _ | .released | .processed _ | .droppedAndProcessed _ => .done

/-- The engine has a say in whether the command succeeds. -/
def Command.EngineDecides : Command → Prop
  | .session (.rebuild _) | .session (.tryCompile _) => True
  | .session (.setLayers layers) => unstackable? layers = none
  | _ => False

/-- The command processes a drop. -/
def Command.processes : Command → Bool
  | .reorder _ .process | .reorder _ (.dropAndProcess _ _) => true
  | _ => false

namespace Session

/-! ## Edits and updates -/

section

variable {σ ρ : Type} [EffectEngine σ] {s s' : Session σ ρ}

theorem Fed.composition_eq (h : s.Fed s') :
    s'.composition = s.composition := by
  cases h
  rfl

/-- An update leaves the composition of its change and is refused as the
change is. -/
theorem updating_change (change : Edit Unit)
    {follow : Session σ ρ → Except Error Bool × Session σ ρ}
    (ok : ∀ s, ∃ pushed, (follow s).1 = .ok pushed)
    (fed : ∀ s : Session σ ρ, s.Fed (follow s).2) (s : Session σ ρ) :
    ((s.updating change follow).1.map fun _ => (),
      (s.updating change follow).2.composition) =
        change s.composition := by
  unfold updating touch
  cases changed : change s.composition with
  | mk result composition =>
    cases result with
    | error e => rfl
    | ok value =>
      dsimp only
      obtain ⟨pushed, eq⟩ := ok { s with composition := composition }
      rw [eq, (fed _).composition_eq]
      rfl

theorem composition_tryCompile (text : String) (s : Session σ ρ) :
    (s.tryCompile text).2.composition = s.composition := by
  obtain ⟨events, engine, stale, -, eq⟩ := exists_tryCompile_eq text s
  rw [eq]
  rfl

variable [TextRasterizer ρ]

/-- An edit leaves the composition of its change and gives the result of
its change, whatever comes of the recompile. -/
theorem edit_change {α : Type} (change : Edit α) (s : Session σ ρ) :
    ((s.edit change).1.map (·.value), (s.edit change).2.composition) =
      change s.composition := by
  unfold edit touch
  cases changed : change s.composition with
  | mk result composition =>
    cases result with
    | error e => rfl
    | ok value =>
      dsimp only [Prod.map, id]
      rw [composition_rebuild]
      rfl

/-- An edit is a revision if its change is accepted. -/
theorem revision_edit {α : Type} (change : Edit α) (s : Session σ ρ) :
    (s.edit change).2.revision =
      if (change s.composition).1.isOk then s.revision + 1
      else s.revision := by
  unfold edit touch
  cases changed : change s.composition with
  | mk result composition =>
    cases result with
    | error e => rfl
    | ok value =>
      dsimp only [Prod.map, id]
      rw [revision_rebuild]
      rfl

end

/-! ## Alike sessions -/

/-- The sessions have the same layers, the same revision and the same next
identity. -/
structure Alike {σ ρ σ' ρ' : Type} (s : Session σ ρ) (s' : Session σ' ρ') :
    Prop where
  composition : s.composition = s'.composition
  revision : s.revision = s'.revision

namespace Alike

variable {σ ρ σ' ρ' : Type} {s t : Session σ ρ} {s' t' : Session σ' ρ'}

theorem layers_eq (h : s.Alike s') : s.layers = s'.layers :=
  congrArg Composition.layers h.composition

theorem invalidate (h : s.Alike s') : s.invalidate.Alike s'.invalidate where
  composition := h.composition
  revision := congrArg (· + 1) h.revision

/-- An edit that concerns no program is applied or refused alike. -/
theorem touch {α : Type} (h : s.Alike s') (change : Edit α) :
    (s.touch change).2.Alike (s'.touch change).2 ∧
      (s.touch change).1 = (s'.touch change).1 := by
  unfold Session.touch
  rw [h.composition]
  exact ⟨⟨rfl, h.revision⟩, rfl⟩

variable [EffectEngine σ] [EffectEngine σ']

theorem fed (h : s.Alike s') (fed : s.Fed t) (fed' : s'.Fed t') :
    t.Alike t' := by
  cases fed
  cases fed'
  exact ⟨h.composition, h.revision⟩

/-- A trial leaves the layers, accepted or not. -/
theorem tryCompile (h : s.Alike s') (text : String) :
    (s.tryCompile text).2.Alike (s'.tryCompile text).2 where
  composition := by
    rw [composition_tryCompile, composition_tryCompile, h.composition]
  revision := by
    rw [(uncounted_tryCompile text s).revision,
      (uncounted_tryCompile text s').revision, h.revision]

/-- An update is applied or refused alike. -/
theorem updating (h : s.Alike s') (change : Edit Unit)
    {follow : Session σ ρ → Except Error Bool × Session σ ρ}
    {follow' : Session σ' ρ' → Except Error Bool × Session σ' ρ'}
    (ok : ∀ s, ∃ pushed, (follow s).1 = .ok pushed)
    (ok' : ∀ s, ∃ pushed, (follow' s).1 = .ok pushed)
    (fed : ∀ s : Session σ ρ, s.Fed (follow s).2)
    (fed' : ∀ s : Session σ' ρ', s.Fed (follow' s).2) :
    (s.updating change follow).2.Alike (s'.updating change follow').2 ∧
      (Reply.updated (s.updating change follow).1).verdict =
        (Reply.updated (s'.updating change follow').1).verdict := by
  have left := updating_change change ok fed s
  have right := updating_change change ok' fed' s'
  rw [← h.composition, ← left] at right
  obtain ⟨result, composition⟩ := Prod.mk.inj right
  refine ⟨⟨composition.symm, ?_⟩,
    congrArg (Verdict.ofResult fun _ => .done) result.symm⟩
  rw [(uncounted_updating change fed s).revision,
    (uncounted_updating change fed' s').revision, h.revision]

variable [TextRasterizer ρ] [TextRasterizer ρ']

/-- A rebuild leaves the layers, whatever comes of it. -/
theorem rebuild (h : s.Alike s') (force : Bool) :
    (s.rebuild force).2.Alike (s'.rebuild force).2 where
  composition := by
    rw [composition_rebuild, composition_rebuild, h.composition]
  revision := by
    rw [revision_rebuild, revision_rebuild, h.revision]

/-- An edit is applied or refused alike, and gives the same value. -/
theorem edit {α : Type} (h : s.Alike s') (change : Edit α) :
    (s.edit change).2.Alike (s'.edit change).2 ∧
      (s.edit change).1.map (·.value) = (s'.edit change).1.map (·.value) := by
  have left := edit_change change s
  have right := edit_change change s'
  rw [← h.composition, ← left] at right
  obtain ⟨result, composition⟩ := Prod.mk.inj right
  refine ⟨⟨composition.symm, ?_⟩, result.symm⟩
  rw [revision_edit, revision_edit, h.composition, h.revision]

/-- Layers take the place of all others alike, whatever becomes of their
program. -/
theorem setLayers (h : s.Alike s') (layers : List Layer) :
    (s.setLayers layers).2.Alike (s'.setLayers layers).2 := by
  unfold Session.setLayers
  cases LayerStack.ofLayers layers with
  | error e => exact h
  | ok stack =>
    dsimp only
    rw [h.composition]
    have replaced :
        Alike { s with composition := .ofStack s'.composition.ids stack }
          { s' with composition := .ofStack s'.composition.ids stack } :=
      ⟨rfl, h.revision⟩
    exact replaced.invalidate.rebuild true

/-- Every command takes alike sessions to alike ones, and is refused or
gives its result on both unless the engine decides. -/
theorem perform (h : s.Alike s') (command : SessionCommand) :
    (s.perform command).2.Alike (s'.perform command).2 ∧
      (¬ (Command.session command).EngineDecides →
        (s.perform command).1.verdict = (s'.perform command).1.verdict) := by
  have edited {α : Type} {tag : Except Error (Edited α) → Reply}
      {tell : α → Verdict} (change : Edit α)
      (told : ∀ result, (tag result).verdict =
        .ofResult tell (result.map (·.value))) :
      (answer tag (s.edit change)).2.Alike (answer tag (s'.edit change)).2 ∧
        (¬ (Command.session command).EngineDecides →
          (answer tag (s.edit change)).1.verdict =
            (answer tag (s'.edit change)).1.verdict) := by
    obtain ⟨alike, result⟩ := h.edit change
    refine ⟨alike, fun _ => ?_⟩
    rw [answer, answer, told, told, result]
  have touched (change : Edit Unit) :
      (answer .done (s.touch change)).2.Alike
          (answer .done (s'.touch change)).2 ∧
        (¬ (Command.session command).EngineDecides →
          (answer .done (s.touch change)).1.verdict =
            (answer .done (s'.touch change)).1.verdict) := by
    obtain ⟨alike, result⟩ := h.touch change
    exact ⟨alike, fun _ => congrArg (Reply.verdict ∘ Reply.done) result⟩
  cases command with
  | rebuild force => exact ⟨h.rebuild force, fun own => absurd trivial own⟩
  | tryCompile text =>
    exact ⟨h.tryCompile text, fun own => absurd trivial own⟩
  | setLayers layers =>
    refine ⟨h.setLayers layers, fun own => ?_⟩
    obtain ⟨e, bad⟩ := Option.ne_none_iff_exists'.mp own
    simp only [Session.perform, answer, setLayers_of_unstackable bad]
  | updateParams id patch =>
    obtain ⟨alike, verdict⟩ := h.updating (Composition.patchParams id patch)
      (exists_followParams_eq_ok id patch) (exists_followParams_eq_ok id patch)
      (fed_followParams id patch) (fed_followParams id patch)
    exact ⟨alike, fun _ => verdict⟩
  | updateOpacity id opacity =>
    obtain ⟨alike, verdict⟩ := h.updating (Composition.setOpacity id opacity)
      (exists_followOpacity_eq_ok id opacity)
      (exists_followOpacity_eq_ok id opacity)
      (fed_followOpacity id opacity) (fed_followOpacity id opacity)
    exact ⟨alike, fun _ => verdict⟩
  | updateOffset id offset =>
    obtain ⟨alike, verdict⟩ := h.updating (Composition.setOffset id offset)
      (exists_followOffset_eq_ok id offset)
      (exists_followOffset_eq_ok id offset)
      (fed_followOffset id offset) (fed_followOffset id offset)
    exact ⟨alike, fun _ => verdict⟩
  | refreshVideo =>
    exact ⟨h.fed (fed_refreshVideo s) (fed_refreshVideo s'), fun _ => rfl⟩
  | rename id name => exact touched (Composition.rename id name)
  | setLocked id locked => exact touched (Composition.setLocked id locked)
  | mint =>
    have minted : s.mint.1 = s'.mint.1 ∧ s.mint.2.Alike s'.mint.2 := by
      unfold Session.mint
      rw [h.composition]
      exact ⟨rfl, rfl, h.revision⟩
    exact ⟨minted.2, fun _ => congrArg Verdict.created minted.1⟩
  | addLayer | removeLayer | duplicateLayer | extractChild | setVisible
  | setChildVisible | setBlendMode | setEffect | addChild | removeChild =>
    exact edited _ fun _ => rfl

end Alike

end Session

namespace Transaction

variable {σ ρ σ' ρ' : Type} {s : Session σ ρ} {s' : Session σ' ρ'}

/-- A drag takes the same snapshot of alike sessions. -/
theorem dragStart_of_alike (h : s.Alike s') (t : Transaction)
    (id : LayerId) : t.dragStart s id = t.dragStart s' id := by
  have stack : s.stack = s'.stack :=
    congrArg Composition.stack h.composition
  unfold dragStart
  rw [stack, h.layers_eq, h.revision]

end Transaction

/-! ## Twin runs -/

namespace Workspace

variable {σ ρ σ' ρ' : Type} [EffectEngine σ] [TextRasterizer ρ]
  [EffectEngine σ'] [TextRasterizer ρ']

/-- Two workspaces over the same layers that were given the same commands,
none of which processes a drop, and the log of the commands with the
replies of both. Engines may change by themselves, each in its own way. -/
inductive Twins : List (Command × Reply × Reply) →
    Workspace σ ρ → Workspace σ' ρ' → Prop where
  | start {engine : σ} {rasterizer : Option ρ} {config : Config}
      {engine' : σ'} {rasterizer' : Option ρ'} {config' : Config}
      {layers : List Layer} {s : Session σ ρ} {s' : Session σ' ρ'}
      (made : Session.ofLayers engine rasterizer config layers = .ok s)
      (made' : Session.ofLayers engine' rasterizer' config' layers = .ok s') :
      Twins [] { session := s } { session := s' }
  | perform {log : List (Command × Reply × Reply)} {w : Workspace σ ρ}
      {w' : Workspace σ' ρ'} (twins : Twins log w w') (command : Command)
      (unprocessed : command.processes = false) :
      Twins (log ++ [(command, (w.perform command).1, (w'.perform command).1)])
        (w.perform command).2 (w'.perform command).2
  | drift {log : List (Command × Reply × Reply)} {w : Workspace σ ρ}
      {w' : Workspace σ' ρ'} (twins : Twins log w w') (engine : σ)
      (engine' : σ') :
      Twins log
        { w with session := { w.session with engine := engine } }
        { w' with session := { w'.session with engine := engine' } }

omit [EffectEngine σ] [TextRasterizer ρ] [EffectEngine σ']
  [TextRasterizer ρ'] in
/-- New sessions over the same layers are alike. -/
theorem alike_ofLayers {engine : σ} {rasterizer : Option ρ}
    {config : Config} {engine' : σ'} {rasterizer' : Option ρ'}
    {config' : Config} {layers : List Layer} {s : Session σ ρ}
    {s' : Session σ' ρ'}
    (made : Session.ofLayers engine rasterizer config layers = .ok s)
    (made' : Session.ofLayers engine' rasterizer' config' layers = .ok s') :
    s.Alike s' := by
  unfold Session.ofLayers at made made'
  cases stacked : LayerStack.ofLayers layers with
  | error e =>
    rw [stacked] at made
    cases made
  | ok stack =>
    rw [stacked] at made made'
    cases made
    cases made'
    exact ⟨rfl, rfl⟩

/-- A command that processes no drop keeps sessions alike and transactions
the same. -/
theorem alike_perform {w : Workspace σ ρ} {w' : Workspace σ' ρ'}
    (alike : w.session.Alike w'.session)
    (transactions : w.transactions = w'.transactions) {command : Command}
    (unprocessed : command.processes = false) :
    (w.perform command).2.session.Alike (w'.perform command).2.session ∧
      (w.perform command).2.transactions =
        (w'.perform command).2.transactions ∧
      (¬ command.EngineDecides →
        (w.perform command).1.verdict = (w'.perform command).1.verdict) := by
  cases command with
  | session command =>
    obtain ⟨next, verdict⟩ := alike.perform command
    exact ⟨next, transactions, verdict⟩
  | reorder n command =>
    have same : w.transaction n = w'.transaction n := by
      unfold transaction
      rw [transactions]
    cases command with
    | process => cases unprocessed
    | dropAndProcess target side => cases unprocessed
    | dragStart id =>
      simp only [perform, Transaction.perform, same, transactions,
        Transaction.dragStart_of_alike alike]
      exact ⟨alike, trivial, fun _ => trivial⟩
    | release =>
      simp only [perform, Transaction.perform, same, transactions]
      exact ⟨alike, trivial, fun _ => trivial⟩
    | drop target side =>
      simp only [perform, Transaction.perform, same, transactions]
      exact ⟨alike, trivial, fun _ => trivial⟩

/-- Twins stay alike, and so do their replies. -/
theorem Twins.alike {log : List (Command × Reply × Reply)}
    {w : Workspace σ ρ} {w' : Workspace σ' ρ'} (twins : Twins log w w') :
    w.session.Alike w'.session ∧ w.transactions = w'.transactions ∧
      ∀ entry ∈ log, ¬ entry.1.EngineDecides →
        entry.2.1.verdict = entry.2.2.verdict := by
  induction twins with
  | start made made' =>
    exact ⟨alike_ofLayers made made', rfl, fun _ mem => nomatch mem⟩
  | drift twins engine engine' ih =>
    obtain ⟨alike, transactions, verdicts⟩ := ih
    exact ⟨⟨alike.composition, alike.revision⟩, transactions, verdicts⟩
  | perform twins command unprocessed ih =>
    obtain ⟨alike, transactions, verdicts⟩ := ih
    obtain ⟨alike', transactions', verdict⟩ :=
      alike_perform alike transactions unprocessed
    refine ⟨alike', transactions', fun entry mem own => ?_⟩
    rcases List.mem_append.mp mem with mem | mem
    · exact verdicts entry mem own
    · obtain rfl := List.mem_singleton.mp mem
      exact verdict own

/-- Engines do not influence the layers. After the same commands two
sessions over the same initial layers have the same layers in the same
order, the same revision and the same next identity, and where the engine
does not decide itself whether a command succeeds, both have refused it
for the same reason or given the same value. An edit in particular leaves
one stack, whether its recompile succeeds or fails. -/
theorem Twins.layers_independent_of_engine
    {log : List (Command × Reply × Reply)} {w : Workspace σ ρ}
    {w' : Workspace σ' ρ'} (twins : Twins log w w') :
    w.session.layers = w'.session.layers ∧
      w.session.revision = w'.session.revision ∧
      w.session.composition.ids.next = w'.session.composition.ids.next ∧
      (∀ entry ∈ log, ¬ entry.1.EngineDecides →
        entry.2.1.verdict = entry.2.2.verdict) ∧
      ∀ (α : Type) (change : Edit α) (made made' : Edited α),
        (w.session.edit change).1 = .ok made →
        (w'.session.edit change).1 = .ok made' →
          made.value = made'.value ∧
            (w.session.edit change).2.stack =
              (w'.session.edit change).2.stack := by
  obtain ⟨alike, -, verdicts⟩ := twins.alike
  refine ⟨alike.layers_eq, alike.revision, ?_, verdicts, ?_⟩
  · rw [alike.composition]
  · intro α change made made' accepted accepted'
    obtain ⟨next, value⟩ := alike.edit change
    rw [accepted, accepted'] at value
    exact ⟨Except.ok.inj value, congrArg Composition.stack next.composition⟩

/-- Commands that process no drop keep twins twins. -/
theorem Twins.run {log : List (Command × Reply × Reply)} {w : Workspace σ ρ}
    {w' : Workspace σ' ρ'} (twins : Twins log w w')
    {commands : List Command}
    (unprocessed : ∀ command ∈ commands, command.processes = false) :
    ∃ log', Twins log' (w.run commands).2 (w'.run commands).2 := by
  induction commands generalizing log w w' with
  | nil => exact ⟨log, twins⟩
  | cons command rest ih =>
    have next := twins.perform command
      (unprocessed command List.mem_cons_self)
    exact ih next fun c mem => unprocessed c (List.mem_cons_of_mem _ mem)

/-- A recompile that one of two engines refuses. The layers are the same on
both. -/
theorem Twins.layers_independent_of_engine_of_refused_recompile :
    let commands : List Command :=
      [.session (.rebuild false),
        .session (.setBlendMode (.ofNat 1) .add),
        .session (.updateOpacity (.ofNat 1) 25.0)]
    let w := ((simulated { rejectCalls := [2] } Simulated.layers).run
      commands).2
    let w' := ((simulated {} Simulated.layers).run commands).2
    (∃ log, Twins log w w') ∧ w.session.stale = true ∧
      w'.session.stale = false ∧ w.session.layers = w'.session.layers ∧
      w.session.revision = w'.session.revision ∧
      w.session.composition.ids.next = w'.session.composition.ids.next := by
  intro commands w w'
  have start : Twins [] (simulated { rejectCalls := [2] } Simulated.layers)
      (simulated {} Simulated.layers) :=
    .start (ofLayers_simulated _ Simulated.stackable_layers)
      (ofLayers_simulated _ Simulated.stackable_layers)
  have unprocessed : ∀ command ∈ commands, command.processes = false := by
    simp [commands, Command.processes]
  have stale : w.session.stale = true := by
    decide +kernel
  have current : w'.session.stale = false := by
    decide +kernel
  have ran : ∃ log, Twins log w w' := start.run unprocessed
  obtain ⟨log, twins⟩ := ran
  obtain ⟨layers, revision, next, -⟩ := twins.layers_independent_of_engine
  exact ⟨⟨log, twins⟩, stale, current, layers, revision, next⟩

end Workspace

end Compositing
