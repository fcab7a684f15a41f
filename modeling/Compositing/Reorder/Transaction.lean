/-
Compositing.Reorder.Transaction — reordering by drag and drop, whole or
not at all.

A drag takes a snapshot of the stack, a drop names a candidate order,
and processing compiles the candidate on trial before the stack is
touched. If the engine refuses, the snapshot is restored and users are
told why. If the structure of the stack has changed since the drag
began, nothing is applied.
-/
import Compositing.Reorder.Candidate
import Compositing.Session.Compile

namespace Compositing

/-- The stack when a drag began. -/
structure Snapshot where
  /-- The layer that is dragged. -/
  source : LayerId
  layers : List Layer
  revision : Nat

/-- A reordering in progress. -/
inductive Transaction where
  | idle
  | dragging (snapshot : Snapshot)
  | processing (snapshot : Snapshot) (candidate : List LayerId)
  deriving Inhabited

/-- What came of a processed drop. -/
inductive ReorderOutcome where
  | committed (order : List LayerId)
  | rolledBack (reason : String)
  /-- The structure of the stack has changed; nothing was applied. -/
  | superseded
  /-- There was no drop to process. -/
  | notProcessing
  deriving DecidableEq, Repr

namespace Transaction

/-- The word for the state of a reordering. -/
def word : Transaction → String
  | .idle => "idle"
  | .dragging _ => "dragging"
  | .processing _ _ => "processing"

section

variable {σ ρ : Type}

/-- Begin to drag a layer. The base, unknown layers and a second drag are
refused. -/
def dragStart (s : Session σ ρ) (id : LayerId) :
    Transaction → Bool × Transaction
  | .idle =>
    if (s.stack.get? id).isNone || s.stack.base? = some id then
      (false, .idle)
    else
      (true,
        .dragging
          { source := id, layers := s.layers, revision := s.revision })
  | t => (false, t)

end

/-- End a drag without a drop. -/
def release : Transaction → Transaction
  | .dragging _ => .idle
  | t => t

/-- Drop the dragged layer next to a target. The result says whether
there is something to process. -/
def drop (target : LayerId) (side : DropSide) :
    Transaction → Bool × Transaction
  | .dragging snapshot =>
    let order := snapshot.layers.map (·.id)
    match reorderCandidate order snapshot.source target side with
    | some candidate => (true, .processing snapshot candidate)
    | none => (false, .idle)
  | t => (false, t)

section

variable {σ ρ : Type} [EffectEngine σ] [TextRasterizer ρ]

/-- Restore a snapshot and tell users why. -/
def rollBack (snapshot : Snapshot) (reason : String) (s : Session σ ρ) :
    ReorderOutcome × Session σ ρ :=
  (.rolledBack reason,
    (s.setLayers snapshot.layers).2.log (.notify reason))

/-- Commit an order that the engine has accepted on trial. -/
def commit (candidate : List LayerId) (s : Session σ ρ) :
    Except Error CompileReport × Session σ ρ :=
  match s.commitOrder candidate with
  | (.ok (), s) => s.rebuild true
  | (.error e, s) => (.error e, s)

/-- Compile a candidate on trial, then commit it or restore the
snapshot. -/
def attempt (snapshot : Snapshot) (candidate : List LayerId)
    (s : Session σ ρ) : ReorderOutcome × Session σ ρ :=
  let trial := (s.programOf (s.stack.arranged candidate)).text
  match s.tryCompile trial with
  | (.error e, s) => rollBack snapshot e.message s
  | (.ok (), s) =>
    match commit candidate s with
    | (.ok _, s) => (.committed candidate, s)
    | (.error e, s) => rollBack snapshot e.message s

/-- Process a drop. -/
def process (s : Session σ ρ) :
    Transaction → ReorderOutcome × Transaction × Session σ ρ
  | .processing snapshot candidate =>
    if s.revision = snapshot.revision then
      let result := attempt snapshot candidate s
      (result.1, .idle, result.2)
    else (.superseded, .idle, s)
  | t => (.notProcessing, t, s)

/-- Drop and process at once; there is no outcome if the drop asks for
nothing. -/
def dropAndProcess (target : LayerId) (side : DropSide)
    (s : Session σ ρ) (t : Transaction) :
    Option ReorderOutcome × Transaction × Session σ ρ :=
  match t.drop target side with
  | (true, t) =>
    let result := t.process s
    (some result.1, result.2)
  | (false, t) => (none, t, s)

end

end Transaction

end Compositing
