/-
Compositing.Proofs.Session.Feeds — the running pipeline is fed only while
it is the session's own.

A commit `Stands` as long as the engine has accepted no text since the one
that was committed. Parameters and textures are given to the engine only
while a commit stands (`FedInStep`), and a session that is not stale is one
whose commit stands (`OwnRuns`). So nothing is given before the first
commit, after a trial, or after a change of structure, until the next
commit; and what a rebuild gives comes after its own.
-/
import Compositing.Proofs.Session.Synchrony

namespace Compositing

namespace Event

/-- The event neither makes the engine run a text nor commits one. -/
def IsIdle (e : Event) : Prop :=
  e.accepted? = none ∧ e.committed? = none

/-- What `made` committed runs: the engine accepted the text, the program
was committed at once, and nothing was accepted or committed since. -/
def Stands (made : Commit) (events : List Event) : Prop :=
  ∃ earlier since,
    events = earlier ++
        .compile made.program.text true :: .commit made :: since ∧
      ∀ e ∈ since, e.IsIdle

/-- After the events the session's own program runs: a commit among them
stands, or it ran before, and nothing was accepted or committed. -/
def OwnRuns (current : Bool) (events : List Event) : Prop :=
  (∃ made, Stands made events) ∨ current = true ∧ ∀ e ∈ events, e.IsIdle

/-- Whatever the events give to the running pipeline they give while it is
the session's own. -/
def FedInStep (current : Bool) (events : List Event) : Prop :=
  ∀ before e after, events = before ++ e :: after → e.isFeed = true →
    OwnRuns current before

/-! ## Commits that stand -/

theorem isIdle_of_quiet {e : Event} (h : e.isQuiet = true) : e.IsIdle :=
  ⟨accepted?_of_idle (.inl h), committed?_of_idle (.inl h)⟩

theorem isIdle_of_feed {e : Event} (h : e.isFeed = true) : e.IsIdle :=
  ⟨accepted?_of_idle (.inr h), committed?_of_idle (.inr h)⟩

theorem not_isFeed_of_quiet {e : Event} (h : e.isQuiet = true) :
    e.isFeed = false := by
  cases e <;> simp_all [isQuiet, isFeed]

theorem acceptedTexts_of_isIdle {events : List Event}
    (h : ∀ e ∈ events, e.IsIdle) : acceptedTexts events = [] :=
  List.filterMap_eq_nil_iff.mpr fun e mem => (h e mem).1

theorem commits_of_isIdle {events : List Event}
    (h : ∀ e ∈ events, e.IsIdle) : commits events = [] :=
  List.filterMap_eq_nil_iff.mpr fun e mem => (h e mem).2

namespace Stands

variable {made : Commit} {events : List Event}

/-- The text that was accepted last is the one that was committed. -/
theorem running (h : Stands made events) :
    (acceptedTexts events).getLast? = some made.program.text := by
  obtain ⟨earlier, since, rfl, idle⟩ := h
  have last : acceptedTexts
      (.compile made.program.text true :: .commit made :: since) =
        made.program.text :: acceptedTexts since := rfl
  rw [acceptedTexts_append, last, acceptedTexts_of_isIdle idle]
  simp

/-- The commit that was made last is the one that stands. -/
theorem lastCommit (h : Stands made events) :
    (commits events).getLast? = some made := by
  obtain ⟨earlier, since, rfl, idle⟩ := h
  have last : commits
      (.compile made.program.text true :: .commit made :: since) =
        made :: commits since := rfl
  rw [commits_append, last, commits_of_isIdle idle]
  simp

/-- A commit stands once it is made, whatever came before it. -/
theorem of_commit (made : Commit) (before quiet : List Event) :
    Stands made (before ++
      (quiet ++ [.compile made.program.text true, .commit made])) :=
  ⟨before ++ quiet, [], by simp, by simp⟩

/-- A commit stands until a text is accepted. -/
theorem append_idle (h : Stands made events) {more : List Event}
    (idle : ∀ e ∈ more, e.IsIdle) : Stands made (events ++ more) := by
  obtain ⟨earlier, since, rfl, idle'⟩ := h
  refine ⟨earlier, since ++ more, by simp, fun e mem => ?_⟩
  exact (List.mem_append.mp mem).elim (idle' e) (idle e)

end Stands

theorem OwnRuns.append_idle {current : Bool} {events more : List Event}
    (h : OwnRuns current events) (idle : ∀ e ∈ more, e.IsIdle) :
    OwnRuns current (events ++ more) := by
  rcases h with ⟨made, stands⟩ | ⟨current, idle'⟩
  · exact .inl ⟨made, stands.append_idle idle⟩
  · refine .inr ⟨current, fun e mem => ?_⟩
    exact (List.mem_append.mp mem).elim (idle' e) (idle e)

/-! ## Feeding while a commit stands -/

/-- An event of two lists one behind the other is one of the first or one
of the second. -/
theorem split_append {a b before after : List Event} {e : Event}
    (h : a ++ b = before ++ e :: after) :
    (∃ rest, a = before ++ e :: rest) ∨
      ∃ start, before = a ++ start ∧ b = start ++ e :: after := by
  rcases List.append_eq_append_iff.mp h with
    ⟨start, left, right⟩ | ⟨rest, left, right⟩
  · exact .inr ⟨start, left, right⟩
  · cases rest with
    | nil => exact .inr ⟨[], by simpa using left.symm, right.symm⟩
    | cons e' rest =>
      obtain ⟨rfl, -⟩ := List.cons.inj right
      exact .inl ⟨rest, left⟩

namespace FedInStep

variable {current : Bool} {events more : List Event}

theorem nil : FedInStep current [] := by
  intro before e after split
  simp at split

/-- What is fed behind other events is to be fed in step with them. -/
theorem append (h : FedInStep current events)
    (h' : ∀ before e after, more = before ++ e :: after → e.isFeed = true →
      OwnRuns current (events ++ before)) :
    FedInStep current (events ++ more) := by
  intro before e after split feed
  rcases split_append split with ⟨rest, early⟩ | ⟨start, rfl, late⟩
  · exact h before e rest early feed
  · exact h' start e after late feed

/-- Events that feed nothing can follow. -/
theorem append_unfed (h : FedInStep current events)
    (unfed : ∀ e ∈ more, e.isFeed = false) :
    FedInStep current (events ++ more) := by
  refine h.append fun before e after split feed => ?_
  have mem : e ∈ more := by simp [split]
  rw [unfed e mem] at feed
  cases feed

/-- A compile and a commit can follow. -/
theorem append_commit (h : FedInStep current events) {quiet : List Event}
    (isQuiet : ∀ e ∈ quiet, e.isQuiet = true) (text : String)
    (made : Commit) :
    FedInStep current
      (events ++ (quiet ++ [.compile text true, .commit made])) := by
  refine h.append_unfed fun e mem => ?_
  rcases List.mem_append.mp mem with mem | mem
  · exact not_isFeed_of_quiet (isQuiet e mem)
  · rcases List.mem_pair.mp mem with rfl | rfl <;> rfl

/-- While the session's own program runs it can be fed. -/
theorem append_feed (h : FedInStep current events)
    (own : OwnRuns current events) (feed : ∀ e ∈ more, e.isFeed = true) :
    FedInStep current (events ++ more) := by
  refine h.append fun before e after split _ => own.append_idle ?_
  intro e mem
  exact isIdle_of_feed (feed e (by simp [split, mem]))

end FedInStep

end Event

open Event (FedInStep OwnRuns Stands)

namespace Session

variable {σ ρ : Type}

/-- What became of a session since, and what it asked meanwhile. -/
structure Since (s s' : Session σ ρ) (events : List Event) : Prop where
  journal : s'.journal = s.journal ++ events
  /-- Nothing was fed but the session's own program. -/
  fed : FedInStep (!s.stale) events
  /-- Unless it is stale, its own program runs. -/
  own : s'.stale = false → OwnRuns (!s.stale) events
  /-- Unless it is stale, a change of structure was committed. -/
  revised : s'.stale = false →
    s'.revision = s.revision ∨ Event.commits events ≠ []

namespace Since

variable {s s' s'' : Session σ ρ} {events : List Event}

theorem refl (s : Session σ ρ) : s.Since s [] where
  journal := (List.append_nil _).symm
  fed := .nil
  own fresh := .inr ⟨by simp [fresh], by simp⟩
  revised _ := .inl rfl

/-- Events that neither feed nor change what runs may pass. -/
theorem of_quiet (h : s.Since s' events) {quiet : List Event}
    (isQuiet : ∀ e ∈ quiet, e.isQuiet = true)
    (journal : s''.journal = s'.journal ++ quiet)
    (stale : s''.stale = s'.stale) (revision : s''.revision = s'.revision) :
    s.Since s'' (events ++ quiet) where
  journal := by rw [journal, h.journal, List.append_assoc]
  fed := h.fed.append_unfed fun e mem =>
    Event.not_isFeed_of_quiet (isQuiet e mem)
  own fresh := (h.own (stale ▸ fresh)).append_idle fun e mem =>
    Event.isIdle_of_quiet (isQuiet e mem)
  revised fresh := by
    rw [revision, Event.commits_append, Event.commits_of_quiet isQuiet,
      List.append_nil]
    exact h.revised (stale ▸ fresh)

variable [EffectEngine σ]

/-- One more move. -/
theorem move (h : s.Since s' events) (move : s'.Move s'') :
    ∃ events', s.Since s'' events' := by
  cases move with
  | ask quiet engine isQuiet same =>
    exact ⟨_, h.of_quiet isQuiet rfl rfl rfl⟩
  | touch composition retains =>
    have none : ∀ e ∈ ([] : List Event), e.isQuiet = true := by simp
    exact ⟨_, h.of_quiet none (List.append_nil _).symm rfl rfl⟩
  | feed s'' isSome fed =>
    obtain ⟨feeds, engine, rasterizer, isFeed, same⟩ := fed
    have fresh := stale_of_isSome_stepMap? isSome
    have idle : ∀ e ∈ feeds, e.IsIdle := fun e mem =>
      Event.isIdle_of_feed (isFeed e mem)
    exact ⟨events ++ feeds,
      { journal := by rw [h.journal, List.append_assoc]
        fed := h.fed.append_feed (h.own fresh) isFeed
        own := fun _ => (h.own fresh).append_idle idle
        revised := fun _ => by
          rw [Event.commits_append, Event.commits_of_feed isFeed,
            List.append_nil]
          exact h.revised fresh }⟩
  | trial quiet engine text isQuiet same =>
    -- What was accepted is not committed; the session becomes stale.
    refine ⟨events ++ (quiet ++ [.compile text true]),
      { journal := by simp [asked, h.journal]
        fed := h.fed.append_unfed fun e mem => ?_
        own := fun fresh => by cases fresh
        revised := fun fresh => by cases fresh }⟩
    rcases List.mem_append.mp mem with mem | mem
    · exact Event.not_isFeed_of_quiet (isQuiet e mem)
    · rw [List.mem_singleton.mp mem]
      rfl
  | commit quiet engine isQuiet same =>
    let made : Commit :=
      { layers := s'.layers
        program := s'.programOf s'.layers
        graph? := EffectEngine.graph? engine }
    have stands := Stands.of_commit made events quiet
    refine ⟨_,
      { journal := by
          simp only [adopted, asked, h.journal, List.append_assoc]
          rfl
        fed := h.fed.append_commit isQuiet _ _
        own := fun _ => .inl ⟨made, stands⟩
        revised := fun _ => .inr fun none => ?_ }⟩
    have last := stands.lastCommit
    rw [none] at last
    cases last
  | edit composition evolves =>
    refine ⟨events,
      { journal := h.journal
        fed := h.fed
        own := fun fresh => by cases fresh
        revised := fun fresh => by cases fresh }⟩

end Since

variable [EffectEngine σ]

/-- Whatever moves make of a session, they feed it in step. -/
theorem Moves.since {s s' : Session σ ρ} (h : s.Moves s') :
    ∃ events, s.Since s' events := by
  induction h with
  | refl => exact ⟨[], .refl s⟩
  | tail _ move ih =>
    obtain ⟨events, since⟩ := ih
    exact since.move move

/-- The program that a session holds as committed is the one that was
committed last. -/
theorem Moves.programText?_eq {s s' : Session σ ρ} (h : s.Moves s')
    (recorded : s.programText? = s.lastCommit?.map (·.program.text)) :
    s'.programText? = s'.lastCommit?.map (·.program.text) := by
  have unchanged : ∀ {a b : Session σ ρ} {events : List Event},
      b.journal = a.journal ++ events → Event.commits events = [] →
      b.compiled = a.compiled →
      a.programText? = a.lastCommit?.map (·.program.text) →
      b.programText? = b.lastCommit?.map (·.program.text) := by
    intro a b events journal none compiled recorded
    simp only [programText?, lastCommit?, compiled, journal,
      Event.commits_append, none, List.append_nil] at recorded ⊢
    exact recorded
  induction h with
  | refl => exact recorded
  | tail _ move ih =>
    cases move with
    | ask quiet engine isQuiet same =>
      exact unchanged rfl (Event.commits_of_quiet isQuiet) rfl ih
    | feed s'' isSome fed =>
      obtain ⟨feeds, engine, rasterizer, isFeed, same⟩ := fed
      exact unchanged rfl (Event.commits_of_feed isFeed) rfl ih
    | trial quiet engine text isQuiet same =>
      refine unchanged rfl ?_ rfl ih
      rw [Event.commits_append, Event.commits_of_quiet isQuiet]
      rfl
    | commit quiet engine isQuiet same =>
      have inStep := InStep.adopted _ quiet same
      rw [inStep.lastCommit]
      rfl
    | touch composition retains => exact ih
    | edit composition evolves => exact ih

variable [TextRasterizer ρ]

/-- A rebuild feeds only what it has committed itself. -/
theorem fedInStep_rebuild (force : Bool) (s : Session σ ρ) :
    ∃ events, (s.rebuild force).2.journal = s.journal ++ events ∧
      FedInStep false events := by
  have rebuilt := rebuilt_of_rebuild (Prod.eta (s.rebuild force)).symm
  generalize (s.rebuild force).1 = result at rebuilt
  generalize (s.rebuild force).2 = s' at rebuilt ⊢
  cases rebuilt with
  | skipped => exact ⟨[], by simp, .nil⟩
  | refused e quiet engine isQuiet same =>
    refine ⟨quiet, rfl, ?_⟩
    exact FedInStep.nil.append_unfed fun e mem =>
      Event.not_isFeed_of_quiet (isQuiet e mem)
  | committed quiet engine isQuiet same s' fed =>
    obtain ⟨feeds, _, _, isFeed, -⟩ := fed
    let made : Commit :=
      { layers := s.layers
        program := s.programOf s.layers
        graph? := EffectEngine.graph? engine }
    have stands := Stands.of_commit made [] quiet
    have committed : FedInStep false _ :=
      FedInStep.nil.append_commit isQuiet made.program.text made
    refine ⟨_, List.append_assoc _ _ _, ?_⟩
    exact committed.append_feed (.inl ⟨made, stands⟩) isFeed

omit [TextRasterizer ρ] in
/-- A trial that is accepted leaves the session stale. -/
theorem stale_tryCompile {s : Session σ ρ} {text : String}
    (accepted : (s.tryCompile text).1 = .ok ()) :
    (s.tryCompile text).2.stale = true := by
  unfold tryCompile at accepted ⊢
  split at accepted
  · rfl
  · cases accepted

/-- An edit whose recompile fails leaves the session stale. -/
theorem stale_edit {α : Type} {change : Edit α} {s : Session σ ρ} {value : α}
    {e : Error}
    (refused : (s.edit change).1 = .ok { value := value, compile := .error e }) :
    (s.edit change).2.stale = true := by
  unfold edit at refused ⊢
  split at refused
  · cases refused
  · rename_i s' _
    cases eq : s'.invalidate.rebuild false with
    | mk result s'' =>
      simp only [eq, Prod.map, Except.ok.injEq, Edited.mk.injEq] at refused ⊢
      cases rebuilt_of_rebuild eq with
      | refused e' events engine quiet same => rfl
      | skipped c => cases refused.2
      | committed => cases refused.2

end Session

namespace Workspace

variable {σ ρ : Type} [EffectEngine σ] [TextRasterizer ρ]

/-- Nothing is given to the engine from here on until a program is
committed, and then only while that one runs. -/
def AwaitsCommit (w : Workspace σ ρ) : Prop :=
  ∀ w', w.Leads w' →
    ∃ events, w'.session.journal = w.session.journal ++ events ∧
      FedInStep false events

/-- The engine is given parameters and textures only while it runs the
program that was committed last. -/
structure FeedsOwn (w : Workspace σ ρ) : Prop where
  /-- Whatever was given so far was given while a commit stood: its text
  was the one that the engine had accepted last. -/
  feed : ∀ {before after : List Event} {e : Event},
    w.session.journal = before ++ e :: after → e.isFeed = true →
      ∃ made, Stands made before ∧
        (Event.commits before).getLast? = some made ∧
        (Event.acceptedTexts before).getLast? = some made.program.text
  /-- The program that was committed last is the session's. -/
  committed : w.session.programText? =
    w.session.lastCommit?.map (·.program.text)
  /-- A trial that was accepted is not fed. -/
  trial : ∀ {text : String}, (w.session.tryCompile text).1 = .ok () →
    (w.perform (.session (.tryCompile text))).2.AwaitsCommit
  /-- An edit whose recompile failed is not fed. -/
  edit : ∀ {α : Type} {change : Edit α} {value : α} {e : Error},
    (w.session.edit change).1 = .ok { value := value, compile := .error e } →
      AwaitsCommit { w with session := (w.session.edit change).2 }
  /-- Nor is any other change of structure without a commit. -/
  revised : ∀ {w' : Workspace σ ρ} {events : List Event}, w.Leads w' →
    w'.session.journal = w.session.journal ++ events →
    w'.session.revision ≠ w.session.revision → Event.commits events = [] →
      w'.AwaitsCommit
  /-- A rebuild feeds what it has committed itself, of any session. -/
  rebuild : ∀ (force : Bool) (s : Session σ ρ),
    ∃ events, (s.rebuild force).2.journal = s.journal ++ events ∧
      FedInStep false events

/-- A stale workspace awaits a commit. -/
theorem awaitsCommit_of_stale {w : Workspace σ ρ}
    (stale : w.session.stale = true) : w.AwaitsCommit := by
  intro w' leads
  obtain ⟨events, since⟩ := leads.moves.since
  have fed := since.fed
  rw [stale] at fed
  exact ⟨events, since.journal, fed⟩

/-- In every reachable workspace the engine was given parameters and
textures only while it ran the session's own program. -/
theorem Reachable.feeds_own {w : Workspace σ ρ} (h : w.Reachable) :
    w.FeedsOwn := by
  obtain ⟨_, _, _, _, s, made, moves⟩ := h.exists_moves
  obtain ⟨_, _, _, compiled, stale, journal⟩ := ofLayers_eq_ok made
  obtain ⟨events, since⟩ := moves.since
  refine ⟨?feed, ?committed, ?trial, ?edit, ?revised,
    Session.fedInStep_rebuild⟩
  case feed =>
    intro before after e split feed
    have own := since.journal
    rw [journal, List.nil_append] at own
    rcases since.fed before e after (own.symm.trans split) feed with
      ⟨made, stands⟩ | ⟨current, -⟩
    · exact ⟨made, stands, stands.lastCommit, stands.running⟩
    · rw [stale] at current
      cases current
  case committed =>
    refine moves.programText?_eq ?_
    rw [Session.programText?, Session.lastCommit?, compiled, journal]
    rfl
  case trial =>
    intro text accepted
    exact awaitsCommit_of_stale (Session.stale_tryCompile accepted)
  case edit =>
    intro α change value e refused
    exact awaitsCommit_of_stale (Session.stale_edit refused)
  case revised =>
    intro w' later leads journal revised uncommitted
    obtain ⟨events', since'⟩ := leads.moves.since
    obtain rfl := List.append_cancel_left (journal.symm.trans since'.journal)
    refine awaitsCommit_of_stale (Bool.of_not_eq_false fun fresh => ?_)
    exact (since'.revised fresh).elim revised (absurd uncommitted)

/-- A session that is fed, shows a trial, and is fed again after a
rebuild. -/
def resumed : Workspace Simulated.Engine Simulated.Rasterizer :=
  ((simulated {} Simulated.layers).run
    [.session (.rebuild false),
      .session (.updateOpacity (.ofNat 1) 50.0),
      .session (.tryCompile "media.solid(a: 1).write(o0)"),
      .session (.updateOpacity (.ofNat 1) 40.0),
      .session (.rebuild false),
      .session (.updateOpacity (.ofNat 1) 30.0)]).2

/-- It is fed twice, not three times. -/
theorem feeds_own_resumed :
    resumed.Reachable ∧
      (resumed.session.journal.filter Event.isFeed).length = 2 ∧
      resumed.FeedsOwn := by
  have reachable : resumed.Reachable :=
    (reachable_simulated _ Simulated.stackable_layers).run _
  exact ⟨reachable, by decide +kernel, reachable.feeds_own⟩

end Workspace

end Compositing
