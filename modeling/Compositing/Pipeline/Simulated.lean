/-
Compositing.Pipeline.Simulated — an engine and a rasterizer that run
nothing.

The simulated engine accepts or rejects what it is asked as its settings
say, and lays out one pass per call of an accepted program. With it a
session can be taken through every mixture of success and failure. The
simulated rasterizer gives each text a picture as wide as the text is
long.
-/
import Compositing.Pipeline.Engine
import Compositing.Program.Calls

namespace Compositing.Simulated

/-- How the engine answers. -/
structure Settings where
  registered : List EffectId :=
    [EffectId.solid, EffectId.media, EffectId.blend]
  /-- Loading fails. -/
  failLoads : Bool := false
  /-- Loading succeeds, but nothing is registered. -/
  ignoreLoads : Bool := false
  /-- Programs with one of these texts in them are rejected. -/
  reject : List String := []
  /-- Compiles with these numbers are rejected, counted from one. -/
  rejectCalls : List Nat := []
  stepBase : Nat := 0
  stepStride : Nat := 1
  stepDiv : Nat := 1
  /-- Calls with these indices get no pass. -/
  dropPasses : List Nat := []
  /-- The passes come in the opposite order. -/
  reverse : Bool := false
  /-- No graph is to be seen. -/
  noGraph : Bool := false
  /-- Parameters for these steps are refused. -/
  failPushSteps : List Nat := []
  /-- Uploads to these textures are refused. -/
  failTextures : List String := []

/-- A simulated engine. -/
structure Engine where
  manifest : Manifest
  settings : Settings := {}
  /-- How often it was asked to compile. -/
  compiles : Nat := 0
  graph : Option PipelineGraph := none

/-- A text occurs in another one. -/
def occursIn (part : List Char) : List Char → Bool
  | [] => part.isEmpty
  | c :: rest => part.isPrefixOf (c :: rest) || occursIn part rest

/-- The step of the call with index `i`. -/
def Settings.stepOf (s : Settings) (i : Nat) : Nat :=
  s.stepBase + s.stepStride * (i / s.stepDiv)

/-- One pass per call. -/
def Settings.layOut (s : Settings) (calls : List EffectId) :
    PipelineGraph :=
  let passes := calls.zipIdx.filterMap fun (effect, i) =>
    if i ∈ s.dropPasses then none
    else some { effect := effect, step := s.stepOf i }
  { passes := if s.reverse then passes.reverse else passes }

/-- Why the compile with number `n` is rejected, if it is. -/
def Settings.objection? (s : Settings) (n : Nat) (text : String) :
    Option String :=
  if n ∈ s.rejectCalls then
    some ("call " ++ toString n ++ " rejected")
  else
    match s.reject.find? fun part => occursIn part.toList text.toList with
    | some part => some ("rejected by '" ++ part ++ "'")
    | none =>
      let unknown := (ProgramText.calls text).find? fun effect =>
        effect ∉ s.registered
      unknown.map fun effect => "unknown effect " ++ effect.text

namespace Engine

/-- Register effects. -/
def load (effects : List EffectId) (e : Engine) :
    Except Error Unit × Engine :=
  if e.settings.failLoads then
    (.error (.reported .effectLoad "fetch failed"), e)
  else if e.settings.ignoreLoads then (.ok (), e)
  else
    let registered := e.settings.registered ++ effects
    (.ok (),
      { e with settings := { e.settings with registered := registered } })

/-- Compile a program; a rejected one leaves the graph as it was. -/
def compile (text : String) (e : Engine) : Except Error Unit × Engine :=
  let n := e.compiles + 1
  match e.settings.objection? n text with
  | some reason =>
    (.error (.reported .compile reason), { e with compiles := n })
  | none =>
    let graph := e.settings.layOut (ProgramText.calls text)
    (.ok (), { e with compiles := n, graph := some graph })

/-- Take parameters. -/
def apply (values : StepParams) (e : Engine) :
    Except Error Unit × Engine :=
  if values.any fun (step, _) => step ∈ e.settings.failPushSteps then
    (.error (.reported .engine "push failed"), e)
  else (.ok (), e)

/-- The extent of what a texture is filled from. -/
def extent : TextureSource → Extent
  | .media _ .image => { width := 640, height := 360 }
  | .media _ .video => { width := 1280, height := 720 }
  | .raster size => size

/-- Take a texture. -/
def upload (texture : String) (source : TextureSource) (e : Engine) :
    Except Error Extent × Engine :=
  if texture ∈ e.settings.failTextures then
    (.error (.reported .texture "upload failed"), e)
  else (.ok (extent source), e)

end Engine

instance : EffectEngine Engine where
  manifest e := e.manifest
  isRegistered e effect := effect ∈ e.settings.registered
  loadEffects := Engine.load
  compile := Engine.compile
  graph? e := if e.settings.noGraph then none else e.graph
  applyParams := Engine.apply
  uploadTexture texture source _ := Engine.upload texture source

/-- A simulated rasterizer. -/
structure Rasterizer where
  deriving Inhabited

/-- Draw the parameter `text`: eight by sixteen for each byte, and no
narrower than one byte. -/
def Rasterizer.draw (params : Params) : Except Error Extent :=
  let text :=
    match params.get? "text" with
    | some (.str s) => s
    | _ => ""
  if text = "fail" then .error (.reported .texture "no glyphs")
  else .ok { width := max text.utf8ByteSize 1 * 8, height := 16 }

instance : TextRasterizer Rasterizer where
  rasterize params r := (Rasterizer.draw params, r)

end Compositing.Simulated
