/-
Compositing.Session.Compile — bringing the pipeline up to date.

A rebuild compiles the program of the stack, loading first what the
engine does not know, and commits it only once the engine has accepted
it; when anything fails, the program that was committed before stays.
An edit applies first and recompiles then, so it stays applied even if
the recompile fails.
-/
import Compositing.Program.Calls
import Compositing.Session.Texture

namespace Compositing

/-- What came of a rebuild. -/
structure CompileReport where
  /-- The text was the one that runs already, so nothing was compiled. -/
  skipped : Bool
  /-- How many layers and child effects have a step. -/
  mapped : Nat
  deriving DecidableEq, Repr

/-- An edit that was applied, and what came of the recompile. -/
structure Edited (α : Type) where
  value : α
  compile : Except Error CompileReport

namespace Session

variable {σ ρ : Type} [EffectEngine σ] [TextRasterizer ρ]

/-- The effects of a text that the engine does not know. -/
def missingEffects (s : Session σ ρ) (text : String) : List EffectId :=
  (ProgramText.referenced text).filter fun effect =>
    !EffectEngine.isRegistered s.engine effect

/-- Load what a text needs. -/
def loadMissing (text : String) (s : Session σ ρ) :
    Except Error Unit × Session σ ρ :=
  match s.missingEffects text with
  | [] => (.ok (), s)
  | effect :: rest => s.requestLoad (effect :: rest)

/-- Load what a text needs, then compile it. -/
def compileText (text : String) (s : Session σ ρ) :
    Except Error Unit × Session σ ρ :=
  match s.loadMissing text with
  | (.ok (), s) => s.requestCompile text
  | (.error e, s) => (.error e, s)

/-- Compile a text on trial. If the engine accepts it, it runs the trial
and the step map is stale. -/
def tryCompile (text : String) (s : Session σ ρ) :
    Except Error Unit × Session σ ρ :=
  match s.compileText text with
  | (.ok (), s) => (.ok (), { s with stale := true })
  | (.error e, s) => (.error e, s)

/-- The step map of a program that the engine has just accepted. -/
def mapOf (s : Session σ ρ) (program : Program) : StepMap :=
  match EffectEngine.graph? s.engine with
  | some graph => StepMap.build program graph
  | none => {}

/-- Commit a program that the engine has just accepted. -/
def commit (program : Program) (s : Session σ ρ) :
    CompileReport × Session σ ρ :=
  let map := s.mapOf program
  let made : Commit :=
    { layers := s.layers
      program := program
      graph? := EffectEngine.graph? s.engine }
  let s :=
    { s with
      compiled := some { program := program, stepMap := map }
      stale := false
      generation := s.generation + 1 }
  ({ skipped := false, mapped := map.size },
    (s.log (.commit made)).syncTextures)

/-- What runs already, if it is the program and need not be compiled
again. -/
def unchanged? (s : Session σ ρ) (program : Program) : Option Compiled :=
  if s.stale || !s.config.changeDetection then none
  else s.compiled.filter fun c => c.program.text = program.text

/-- Compile the stack and commit its program. Unless forced to, nothing
is compiled when the text is the one that runs already. -/
def rebuild (force : Bool) (s : Session σ ρ) :
    Except Error CompileReport × Session σ ρ :=
  let program := s.programOf s.layers
  match if force then none else s.unchanged? program with
  | some c => (.ok { skipped := true, mapped := c.stepMap.size }, s)
  | none =>
    match s.compileText program.text with
    | (.ok (), s) =>
      let (report, s) := s.commit program
      (.ok report, s)
    | (.error e, s) => (.error e, s)

/-- Replace the whole stack. The text may stay the same while the
identities change, so it is compiled in any case. -/
def setLayers (layers : List Layer) (s : Session σ ρ) :
    Except Error CompileReport × Session σ ρ :=
  match LayerStack.ofLayers layers with
  | .error e => (.error e, s)
  | .ok stack =>
    let composition := Composition.ofStack s.composition.ids stack
    { s with composition := composition }.invalidate.rebuild true

/-- Reorder the stack; the caller rebuilds. -/
def commitOrder (order : List LayerId) (s : Session σ ρ) :
    Except Error Unit × Session σ ρ :=
  match s.stack.setOrder order with
  | .error e => (.error e, s)
  | .ok stack =>
    let composition := { s.composition with stack := stack }
    (.ok (), { s with composition := composition }.invalidate)

/-! ## Edits -/

/-- Apply an edit that concerns no program. -/
def touch {α : Type} (change : Edit α) (s : Session σ ρ) :
    Except Error α × Session σ ρ :=
  let (result, composition) := change s.composition
  (result, { s with composition := composition })

/-- Apply an edit and recompile. -/
def edit {α : Type} (change : Edit α) (s : Session σ ρ) :
    Except Error (Edited α) × Session σ ρ :=
  match s.touch change with
  | (.error e, s) => (.error e, s)
  | (.ok value, s) =>
    (s.invalidate.rebuild false).map
      (fun report => .ok { value := value, compile := report }) id

end Session

end Compositing
