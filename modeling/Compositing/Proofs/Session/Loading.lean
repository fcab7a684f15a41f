/-
Compositing.Proofs.Session.Loading — effects are loaded on demand, and
before anything is compiled.

A text demands the effects that it calls and that the engine does not
know, each once and in the order in which the text first calls them
(`Demanded`). For a text the engine is asked for them in one request, or
in none if there are none, and then for the compile, unless it could not
load them (`AskedFor`). A trial and a rebuild that does not skip ask for
exactly this and for nothing before it. What the engine refuses changes
the engine and the journal and nothing else (`demand_loading`).
-/
import Compositing.Proofs.Distinct
import Compositing.Proofs.Session.Requests

namespace Compositing

/-! ## What a text demands -/

/-- The effects that a text calls and an engine does not know, each once,
in the order in which the text first calls them. -/
structure Demanded {σ : Type} [EffectEngine σ] (engine : σ) (text : String)
    (effects : List EffectId) : Prop where
  mem_iff : ∀ effect, effect ∈ effects ↔
    effect ∈ ProgramText.calls text ∧
      EffectEngine.isRegistered engine effect = false
  nodup : effects.Nodup
  ordered : effects.Pairwise fun a b =>
    (ProgramText.calls text).idxOf a < (ProgramText.calls text).idxOf b

/-! ## What is asked for a text -/

/-- What an engine is asked for the sake of a text, given the effects that
the text demands of it, with the result and the engine that comes of
it. -/
inductive AskedFor {σ : Type} [EffectEngine σ] (engine : σ) (text : String)
    (effects : List EffectId) :
    List Event → Except Error Unit → σ → Prop where
  /-- It cannot load what is demanded, and it is asked for no compile. -/
  | unloaded (demanded : effects ≠ []) (e : Error) (engine' : σ)
      (refused :
        EffectEngine.loadEffects effects engine = (.error e, engine')) :
      AskedFor engine text effects [.load effects] (.error e) engine'
  /-- Nothing is demanded, and it is asked for the compile alone. -/
  | known (none : effects = []) (result : Except Error Unit) (engine' : σ)
      (compiled : EffectEngine.compile text engine = (result, engine')) :
      AskedFor engine text effects [.compile text result.isOk] result
        engine'
  /-- It loads what is demanded, and is asked for the compile then. -/
  | loaded (demanded : effects ≠ []) (loading : σ)
      (taken : EffectEngine.loadEffects effects engine = (.ok (), loading))
      (result : Except Error Unit) (engine' : σ)
      (compiled : EffectEngine.compile text loading = (result, engine')) :
      AskedFor engine text effects
        [.load effects, .compile text result.isOk] result engine'

/-- The event asks an engine to load effects or to compile a text. -/
def Event.isForText : Event → Bool
  | .load _ | .compile _ _ => true
  | _ => false

theorem Event.isForText_of_isFeed {e : Event} (h : e.isFeed = true) :
    e.isForText = false := by
  cases e with
  | load _ => cases h
  | compile _ _ => cases h
  | _ => rfl

namespace Session

variable {σ ρ : Type} [EffectEngine σ]

theorem demanded_missingEffects (s : Session σ ρ) (text : String) :
    Demanded s.engine text (s.missingEffects text) where
  mem_iff effect := by
    rw [missingEffects, List.mem_filter, ProgramText.referenced,
      List.mem_eraseDups, Bool.not_eq_true']
  nodup := (nodup_eraseDups _).filter _
  ordered := (pairwise_idxOf_eraseDups _).filter _

/-- Whatever the text is and whatever the engine knows and answers, it is
asked for what the text demands and for its compile. -/
theorem askedFor_compileText (s : Session σ ρ) (text : String) :
    ∃ events result engine,
      AskedFor s.engine text (s.missingEffects text) events result engine ∧
        s.compileText text = (result, s.asked events engine) := by
  unfold compileText loadMissing
  cases missing : s.missingEffects text with
  | nil => exact ⟨_, _, _, .known rfl _ _ (Prod.eta _).symm, rfl⟩
  | cons effect rest =>
    have demanded := List.cons_ne_nil effect rest
    cases loads : EffectEngine.loadEffects (effect :: rest) s.engine with
    | mk taken loading =>
      cases taken with
      | error e =>
        refine ⟨_, _, _, .unloaded demanded e loading loads, ?_⟩
        simp only [requestLoad, loads, asked, log]
      | ok _ =>
        refine ⟨_, _, _,
          .loaded demanded loading loads _ _ (Prod.eta _).symm, ?_⟩
        simp only [requestLoad, requestCompile, loads, asked, log,
          List.append_assoc, List.cons_append, List.nil_append]

variable [TextRasterizer ρ]

/-- What a rebuild makes of the result of its compile and of the session
behind it. -/
inductive Settled (asked : Session σ ρ) :
    Except Error Unit → Except Error CompileReport × Session σ ρ →
      Prop where
  /-- The error is passed on, and nothing else happens. -/
  | failed (e : Error) : Settled asked (.error e) (.error e, asked)
  /-- The program is committed; no text is asked for again. -/
  | committed (report : CompileReport) (later : List Event)
      (s' : Session σ ρ) (unskipped : report.skipped = false)
      (journal : s'.journal = asked.journal ++ later)
      (noText : ∀ event ∈ later, event.isForText = false) :
      Settled asked (.ok ()) (.ok report, s')

theorem settled_commit (asked : Session σ ρ) (program : Program) :
    Settled asked (.ok ())
      (.ok (asked.commit program).1, (asked.commit program).2) := by
  unfold commit
  dsimp only
  generalize made : Event.commit _ = commit
  generalize into : Session.log _ commit = committed
  have journal : committed.journal = asked.journal ++ [commit] := by
    rw [← into]
    rfl
  have fed := fed_syncTextures committed
  revert fed
  generalize committed.syncTextures = s'
  rintro ⟨events, engine, rasterizer, feed, -⟩
  refine .committed _ (commit :: events) _ rfl ?_ ?_
  · show committed.journal ++ events = _
    rw [journal, List.append_assoc, List.singleton_append]
  · intro event mem
    rcases List.mem_cons.mp mem with rfl | mem
    · rw [← made]
      rfl
    · exact Event.isForText_of_isFeed (feed event mem)

/-- In every session, for every text and with every engine: a trial, and a
rebuild that does not skip, first ask the engine for exactly what the text
demands, then for its compile, unless loading fails. An error is passed
on, and then the engine and the journal are all that has changed. -/
theorem demand_loading (s : Session σ ρ) :
    (∀ text, ∃ effects events result engine,
      Demanded s.engine text effects ∧
        AskedFor s.engine text effects events result engine ∧
        s.tryCompile text =
          (result,
            { s.asked events engine with
              stale := s.stale || result.isOk })) ∧
    ∀ force,
      (∃ report, report.skipped = true ∧
        s.rebuild force = (.ok report, s)) ∨
      ∃ effects events result engine,
        let text := (s.programOf s.layers).text
        Demanded s.engine text effects ∧
          AskedFor s.engine text effects events result engine ∧
          Settled (s.asked events engine) result (s.rebuild force) := by
  constructor
  · intro text
    obtain ⟨events, result, engine, asks, compiled⟩ :=
      askedFor_compileText s text
    refine ⟨_, events, result, engine, demanded_missingEffects s text, asks,
      ?_⟩
    unfold tryCompile
    rw [compiled]
    cases result with
    | ok _ => simp [Except.isOk, Except.toBool]
    | error e => simp [Except.isOk, Except.toBool, asked]
  · intro force
    unfold rebuild
    dsimp only
    split
    · exact .inl ⟨_, rfl, rfl⟩
    · right
      obtain ⟨events, result, engine, asks, compiled⟩ :=
        askedFor_compileText s (s.programOf s.layers).text
      refine ⟨_, events, result, engine, demanded_missingEffects s _, asks,
        ?_⟩
      rw [compiled]
      cases result with
      | ok _ => exact settled_commit _ _
      | error e => exact .failed e

end Session

end Compositing
