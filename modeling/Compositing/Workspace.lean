/-
Compositing.Workspace — a session and the reorderings on it.

Everything that users can do is a `Command`, and `perform` carries one
out. A run of a workspace is a list of commands carried out in turn.
-/
import Compositing.Reorder.Transaction
import Compositing.Session.Update

namespace Compositing

/-- A session and the reorderings on it, by number. -/
structure Workspace (σ ρ : Type) where
  session : Session σ ρ
  transactions : List (Nat × Transaction) := []

/-- What users can do to a session. -/
inductive SessionCommand where
  | rebuild (force : Bool)
  | setLayers (layers : List Layer)
  | tryCompile (text : String)
  | updateParams (id : LayerId) (patch : Params)
  | updateOpacity (id : LayerId) (opacity : Float)
  | updateOffset (id : LayerId) (offset : Offset)
  | refreshVideo
  | addLayer (name : String) (source : LayerSource) (params : Params)
  | removeLayer (id : LayerId)
  | duplicateLayer (id : LayerId)
  | extractChild (child : LayerId)
  | setVisible (id : LayerId) (visible : Bool)
  | setChildVisible (child : LayerId) (visible : Bool)
  | setBlendMode (id : LayerId) (mode : BlendMode)
  | setEffect (id : LayerId) (effect : EffectId)
  | addChild (id : LayerId) (effect : EffectId) (params : Params)
  | removeChild (child : LayerId)
  | rename (id : LayerId) (name : String)
  | setLocked (id : LayerId) (locked : Bool)
  | mint

/-- What users can do to a reordering. -/
inductive ReorderCommand where
  | dragStart (id : LayerId)
  | release
  | drop (target : LayerId) (side : DropSide)
  | process
  | dropAndProcess (target : LayerId) (side : DropSide)

/-- What users can do. -/
inductive Command where
  | session (command : SessionCommand)
  | reorder (transaction : Nat) (command : ReorderCommand)

/-- What a command results in. -/
inductive Reply where
  | rebuilt (result : Except Error CompileReport)
  | done (result : Except Error Unit)
  | updated (result : Except Error Bool)
  | uploaded (count : Nat)
  | created (result : Except Error (Edited LayerId))
  | removedLayer (result : Except Error (Edited Layer))
  | removedChild (result : Except Error (Edited ChildEffect))
  | changed (result : Except Error (Edited Unit))
  | minted (id : LayerId)
  | dragging (accepted : Bool)
  | released
  | dropped (pending : Bool)
  | processed (outcome : ReorderOutcome)
  | droppedAndProcessed (outcome : Option ReorderOutcome)

/-- The result of an operation as a reply, beside what comes of it. -/
def answer {α β : Type} (tag : α → Reply) (result : α × β) : Reply × β :=
  (tag result.1, result.2)

variable {σ ρ : Type} [EffectEngine σ] [TextRasterizer ρ]

/-- Carry out what is to be done to a session. -/
def Session.perform (s : Session σ ρ) :
    SessionCommand → Reply × Session σ ρ
  | .rebuild force => answer .rebuilt (s.rebuild force)
  | .setLayers layers => answer .rebuilt (s.setLayers layers)
  | .tryCompile text => answer .done (s.tryCompile text)
  | .updateParams id patch => answer .updated (s.updateParams id patch)
  | .updateOpacity id opacity =>
    answer .updated (s.updateOpacity id opacity)
  | .updateOffset id offset => answer .updated (s.updateOffset id offset)
  | .refreshVideo => answer .uploaded s.refreshVideo
  | .addLayer name source params =>
    answer .created (s.edit (Composition.addLayer name source params))
  | .removeLayer id =>
    answer .removedLayer (s.edit (Composition.removeLayer id))
  | .duplicateLayer id =>
    answer .created (s.edit (Composition.duplicateLayer id))
  | .extractChild child =>
    answer .created (s.edit (Composition.extractChild child))
  | .setVisible id visible =>
    answer .changed (s.edit (Composition.setVisible id visible))
  | .setChildVisible child visible =>
    answer .changed (s.edit (Composition.setChildVisible child visible))
  | .setBlendMode id mode =>
    answer .changed (s.edit (Composition.setBlendMode id mode))
  | .setEffect id effect =>
    answer .changed (s.edit (Composition.setEffect id effect))
  | .addChild id effect params =>
    answer .created (s.edit (Composition.addChild id effect params))
  | .removeChild child =>
    answer .removedChild (s.edit (Composition.removeChild child))
  | .rename id name => answer .done (s.touch (Composition.rename id name))
  | .setLocked id locked =>
    answer .done (s.touch (Composition.setLocked id locked))
  | .mint => answer .minted s.mint

/-- Carry out what is to be done to a reordering. -/
def Transaction.perform (t : Transaction) (s : Session σ ρ) :
    ReorderCommand → Reply × Transaction × Session σ ρ
  | .dragStart id =>
    let (accepted, t) := t.dragStart s id
    (.dragging accepted, t, s)
  | .release => (.released, t.release, s)
  | .drop target side =>
    let (pending, t) := t.drop target side
    (.dropped pending, t, s)
  | .process => answer .processed (t.process s)
  | .dropAndProcess target side =>
    answer .droppedAndProcessed (t.dropAndProcess target side s)

namespace Workspace

/-- A reordering by number; one that was never used is idle. -/
def transaction (w : Workspace σ ρ) (n : Nat) : Transaction :=
  (Assoc.get? n w.transactions).getD .idle

/-- Carry out a command. -/
def perform (w : Workspace σ ρ) : Command → Reply × Workspace σ ρ
  | .session command =>
    let next := w.session.perform command
    (next.1, { w with session := next.2 })
  | .reorder n command =>
    let next := (w.transaction n).perform w.session command
    (next.1,
      { session := next.2.2
        transactions := Assoc.insert n next.2.1 w.transactions })

/-- Carry out commands in turn. -/
def run (w : Workspace σ ρ) : List Command → List Reply × Workspace σ ρ
  | [] => ([], w)
  | command :: rest =>
    let next := w.perform command
    let last := next.2.run rest
    (next.1 :: last.1, last.2)

end Workspace

end Compositing
