/-
Compositing.Proofs.Session.Notices — what users are told.

Nothing that is done to a session tells users anything
(`notices_perform`). A reordering tells them the reason when it is rolled
back, once, and nothing otherwise (`notices_perform_reorder`).
-/
import Compositing.Proofs.Session.Updates
import Compositing.Proofs.Workspace.Course

namespace Compositing

/-- What an event tells users. -/
def Event.notice? : Event → Option String
  | .notify reason => some reason
  | _ => none

theorem Event.notice?_of_feed {e : Event} (h : e.isFeed = true) :
    e.notice? = none := by
  cases e with
  | notify reason => cases h
  | _ => rfl

/-- The reason with which a drop was rolled back. -/
def ReorderOutcome.reason? : ReorderOutcome → Option String
  | .rolledBack reason => some reason
  | _ => none

/-- The reason with which a drop was rolled back, if the reply tells of
one. -/
def Reply.reason? (reply : Reply) : Option String :=
  reply.outcome?.bind ReorderOutcome.reason?

namespace Session

variable {σ ρ : Type} {s s' : Session σ ρ}

/-- What users were told, in order. -/
def notices (s : Session σ ρ) : List String :=
  s.journal.filterMap Event.notice?

theorem notices_log (event : Event) (s : Session σ ρ) :
    (s.log event).notices = s.notices ++ event.notice?.toList := by
  rw [notices, log, List.filterMap_append]
  cases told : event.notice? <;> simp [told, notices]

theorem notices_touch {α : Type} (change : Edit α) (s : Session σ ρ) :
    (s.touch change).2.notices = s.notices :=
  rfl

theorem notices_commitOrder (order : List LayerId) (s : Session σ ρ) :
    (s.commitOrder order).2.notices = s.notices := by
  unfold commitOrder
  split <;> rfl

variable [EffectEngine σ]

theorem Fed.notices_eq (fed : s.Fed s') : s'.notices = s.notices := by
  obtain ⟨events, engine, rasterizer, feed, -⟩ := fed
  have silent : events.filterMap Event.notice? = [] :=
    List.filterMap_eq_nil_iff.mpr fun e mem =>
      Event.notice?_of_feed (feed e mem)
  rw [notices, List.filterMap_append, silent, List.append_nil]
  rfl

/-! ## Compiling -/

theorem notices_requestLoad (effects : List EffectId) (s : Session σ ρ) :
    (s.requestLoad effects).2.notices = s.notices :=
  (notices_log _ _).trans (List.append_nil _)

theorem notices_requestCompile (text : String) (s : Session σ ρ) :
    (s.requestCompile text).2.notices = s.notices :=
  (notices_log _ _).trans (List.append_nil _)

theorem notices_loadMissing (text : String) (s : Session σ ρ) :
    (s.loadMissing text).2.notices = s.notices := by
  unfold loadMissing
  split
  · rfl
  · exact notices_requestLoad _ s

theorem notices_compileText (text : String) (s : Session σ ρ) :
    (s.compileText text).2.notices = s.notices := by
  have loaded := notices_loadMissing text s
  unfold compileText
  split
  · rename_i s' eq
    rw [eq] at loaded
    exact (notices_requestCompile text s').trans loaded
  · rename_i e s' eq
    rw [eq] at loaded
    exact loaded

theorem notices_tryCompile (text : String) (s : Session σ ρ) :
    (s.tryCompile text).2.notices = s.notices := by
  have compiled := notices_compileText text s
  unfold tryCompile
  split <;> rename_i eq <;> rw [eq] at compiled <;> exact compiled

variable [TextRasterizer ρ]

theorem notices_commit (program : Program) (s : Session σ ρ) :
    (s.commit program).2.notices = s.notices := by
  unfold commit
  dsimp only
  rw [(fed_syncTextures _).notices_eq, notices_log]
  exact List.append_nil _

theorem notices_rebuild (force : Bool) (s : Session σ ρ) :
    (s.rebuild force).2.notices = s.notices := by
  have compiled := notices_compileText (s.programOf s.layers).text s
  unfold rebuild
  dsimp only
  split
  · rfl
  · split
    · rename_i s' eq
      rw [eq] at compiled
      exact (notices_commit _ s').trans compiled
    · rename_i e s' eq
      rw [eq] at compiled
      exact compiled

theorem notices_setLayers (layers : List Layer) (s : Session σ ρ) :
    (s.setLayers layers).2.notices = s.notices := by
  unfold setLayers
  split
  · rfl
  · exact notices_rebuild true _

theorem notices_edit {α : Type} (change : Edit α) (s : Session σ ρ) :
    (s.edit change).2.notices = s.notices := by
  have touched := notices_touch change s
  unfold edit
  split
  · rename_i e s' eq
    rw [eq] at touched
    exact touched
  · rename_i value s' eq
    rw [eq] at touched
    rw [Prod.map_snd, id, notices_rebuild]
    exact touched

/-- Nothing that is done to a session tells users anything. -/
theorem notices_perform (s : Session σ ρ) (command : SessionCommand) :
    (s.perform command).2.notices = s.notices := by
  cases command with
  | rebuild force => exact notices_rebuild force s
  | setLayers layers => exact notices_setLayers layers s
  | tryCompile text => exact notices_tryCompile text s
  | updateParams id patch =>
    exact (fed_updating _ (fed_followParams id patch) s).notices_eq
  | updateOpacity id opacity =>
    exact (fed_updating _ (fed_followOpacity id opacity) s).notices_eq
  | updateOffset id offset =>
    exact (fed_updating _ (fed_followOffset id offset) s).notices_eq
  | refreshVideo => exact (fed_refreshVideo s).notices_eq
  | rename | setLocked | mint => rfl
  | addLayer | removeLayer | duplicateLayer | extractChild | setVisible
  | setChildVisible | setBlendMode | setEffect | addChild | removeChild =>
    simp only [perform, answer, notices_edit]

end Session

/-! ## Reorderings -/

namespace Transaction

variable {σ ρ : Type} [EffectEngine σ] [TextRasterizer ρ]

theorem notices_rollBack (snapshot : Snapshot) (reason : String)
    (s : Session σ ρ) :
    (rollBack snapshot reason s).2.notices = s.notices ++ [reason] := by
  rw [rollBack, Session.notices_log, Session.notices_setLayers]
  rfl

theorem notices_commit (candidate : List LayerId) (s : Session σ ρ) :
    (commit candidate s).2.notices = s.notices := by
  have ordered := Session.notices_commitOrder candidate s
  unfold commit
  split
  · rename_i s' eq
    rw [eq] at ordered
    exact (Session.notices_rebuild true s').trans ordered
  · rename_i e s' eq
    rw [eq] at ordered
    exact ordered

theorem notices_attempt (snapshot : Snapshot) (candidate : List LayerId)
    (s : Session σ ρ) :
    (attempt snapshot candidate s).2.notices =
      s.notices ++ (attempt snapshot candidate s).1.reason?.toList := by
  have tried := Session.notices_tryCompile
    (s.programOf (s.stack.arranged candidate)).text s
  unfold attempt
  dsimp only
  split
  · rename_i e s' eq
    rw [eq] at tried
    rw [notices_rollBack, tried]
    rfl
  · rename_i s' eq
    rw [eq] at tried
    have committed := notices_commit candidate s'
    split
    · rename_i report s'' eq'
      rw [eq'] at committed
      exact (committed.trans tried).trans (List.append_nil _).symm
    · rename_i e s'' eq'
      rw [eq'] at committed
      rw [notices_rollBack, committed.trans tried]
      rfl

theorem notices_process (t : Transaction) (s : Session σ ρ) :
    (t.process s).2.2.notices =
      s.notices ++ (t.process s).1.reason?.toList := by
  cases t with
  | processing snapshot candidate =>
    by_cases current : s.revision = snapshot.revision
    · simp only [process, if_pos current]
      exact notices_attempt snapshot candidate s
    · simp only [process, if_neg current]
      exact (List.append_nil _).symm
  | _ => exact (List.append_nil _).symm

/-- A reordering tells users the reason when it is rolled back, and nothing
otherwise. -/
theorem notices_perform_reorder (t : Transaction) (s : Session σ ρ)
    (command : ReorderCommand) :
    (t.perform s command).2.2.notices =
      s.notices ++ (t.perform s command).1.reason?.toList := by
  cases command with
  | process => exact notices_process t s
  | dropAndProcess target side =>
    simp only [perform, answer, dropAndProcess]
    split
    · rename_i t' eq
      exact notices_process t' s
    · exact (List.append_nil _).symm
  | _ => exact (List.append_nil _).symm

end Transaction

end Compositing
