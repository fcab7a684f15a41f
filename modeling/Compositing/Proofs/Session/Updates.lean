/-
Compositing.Proofs.Session.Updates — an update is an edit and a push.

The updates of parameters, opacity and offset have one shape: the edit is
applied, and if it was not refused the change is pushed (`updating`). What
follows the edit never fails and only feeds the pipeline.
-/
import Compositing.Proofs.Session.Requests
import Compositing.Session.Update

namespace Compositing.Session

variable {σ ρ : Type}

/-- Apply an edit, and go on with `follow` unless it is refused. -/
def updating (change : Edit Unit)
    (follow : Session σ ρ → Except Error Bool × Session σ ρ)
    (s : Session σ ρ) : Except Error Bool × Session σ ρ :=
  match s.touch change with
  | (.error e, s) => (.error e, s)
  | (.ok (), s) => follow s

variable [EffectEngine σ]

/-- An update feeds the session with the edited composition. -/
theorem fed_updating (change : Edit Unit)
    {follow : Session σ ρ → Except Error Bool × Session σ ρ}
    (fed : ∀ s : Session σ ρ, s.Fed (follow s).2) (s : Session σ ρ) :
    (s.touch change).2.Fed (s.updating change follow).2 := by
  unfold updating
  split
  · rename_i e s' eq
    rw [eq]
    exact .refl s'
  · rename_i s' eq
    rw [eq]
    exact fed s'

/-- The push of an opacity. -/
def followOpacity (id : LayerId) (opacity : Float) (s : Session σ ρ) :
    Except Error Bool × Session σ ρ :=
  match s.opacityPatch id opacity with
  | (none, _) => (.ok false, s)
  | (some step, patch) =>
    let (pushed, s) := s.push step patch
    (.ok pushed, s)

/-- The push of an offset. -/
def followOffset (id : LayerId) (offset : Offset) (s : Session σ ρ) :
    Except Error Bool × Session σ ρ :=
  match if s.followsOffset id then s.step? id else none with
  | none => (.ok false, s)
  | some step =>
    let (pushed, s) :=
      s.push step (Params.empty.insertPair "offset" offset.x offset.y)
    (.ok pushed, s)

theorem updateOpacity_eq (id : LayerId) (opacity : Float)
    (s : Session σ ρ) :
    s.updateOpacity id opacity =
      s.updating (Composition.setOpacity id opacity)
        (followOpacity id opacity) :=
  rfl

theorem updateOffset_eq (id : LayerId) (offset : Offset)
    (s : Session σ ρ) :
    s.updateOffset id offset =
      s.updating (Composition.setOffset id offset)
        (followOffset id offset) :=
  rfl

theorem exists_followOpacity_eq_ok (id : LayerId) (opacity : Float)
    (s : Session σ ρ) :
    ∃ pushed, (followOpacity id opacity s).1 = .ok pushed := by
  unfold followOpacity
  split <;> exact ⟨_, rfl⟩

theorem exists_followOffset_eq_ok (id : LayerId) (offset : Offset)
    (s : Session σ ρ) :
    ∃ pushed, (followOffset id offset s).1 = .ok pushed := by
  unfold followOffset
  split <;> exact ⟨_, rfl⟩

theorem fed_followOpacity (id : LayerId) (opacity : Float)
    (s : Session σ ρ) : s.Fed (followOpacity id opacity s).2 := by
  unfold followOpacity
  split
  · exact .refl s
  · exact fed_push _ _ s

theorem fed_followOffset (id : LayerId) (offset : Offset)
    (s : Session σ ρ) : s.Fed (followOffset id offset s).2 := by
  unfold followOffset
  split
  · exact .refl s
  · exact fed_push _ _ s

variable [TextRasterizer ρ]

/-- The push of a patch. -/
def followParams (id : LayerId) (patch : Params) (s : Session σ ρ) :
    Except Error Bool × Session σ ρ :=
  match s.step? id with
  | none => (.ok false, s)
  | some step =>
    let (pushed, s) := s.push step (s.bakePatch id patch)
    (.ok pushed, s.refreshText id step)

theorem updateParams_eq (id : LayerId) (patch : Params)
    (s : Session σ ρ) :
    s.updateParams id patch =
      s.updating (Composition.patchParams id patch)
        (followParams id patch) :=
  rfl

theorem exists_followParams_eq_ok (id : LayerId) (patch : Params)
    (s : Session σ ρ) :
    ∃ pushed, (followParams id patch s).1 = .ok pushed := by
  unfold followParams
  split <;> exact ⟨_, rfl⟩

theorem fed_followParams (id : LayerId) (patch : Params)
    (s : Session σ ρ) : s.Fed (followParams id patch s).2 := by
  unfold followParams
  split
  · exact .refl s
  · exact (fed_push _ _ s).trans (fed_refreshText _ _ _)

end Compositing.Session
