/-
Compositing.Program.Script — effect programs.

A program fills numbered buffers one after another and renders one of
them. Each statement runs one call on a buffer or out of nothing, or
blends content onto a backdrop; it writes one buffer. `text` is what an
engine compiles, `invocations` lists what the text calls, in the order
of the text.
-/
import Compositing.Layer.Basic
import Compositing.Program.Literal

namespace Compositing

/-- Why an effect is invoked. -/
inductive Role where
  /-- A transparent backdrop under a base that cannot take up its own
  opacity. -/
  | backdrop
  /-- A stand-in when no layer is visible. -/
  | blank
  /-- A layer's own content. -/
  | layer (id : LayerId)
  /-- A filter in a layer's chain. -/
  | child (layer child : LayerId)
  /-- A layer put onto what lies beneath. -/
  | blend (id : LayerId)
  deriving DecidableEq, Repr

/-- An effect that a program invokes, and why. -/
structure Invocation where
  effect : EffectId
  role : Role
  deriving DecidableEq

namespace Program

/-- The number of a buffer. -/
abbrev Buffer := Nat

/-- An effect applied to parameters. -/
structure Call where
  effect : EffectId
  params : Params
  role : Role

/-- How a layer is blended. -/
structure Mix where
  layer : LayerId
  weight : Float
  mode : BlendMode

/-- What a blend puts onto its backdrop. -/
inductive Content where
  /-- A buffer. -/
  | buffer (b : Buffer)
  /-- Calls one on another, the first of them on a buffer or out of
  nothing. -/
  | chain (input : Option Buffer) (first : Call) (rest : List Call)

/-- A statement of a program. -/
inductive Statement where
  | produce (input : Option Buffer) (call : Call) (target : Buffer)
  | blend (backdrop : Buffer) (mix : Mix) (content : Content)
    (target : Buffer)

end Program

/-- An effect program. -/
structure Program where
  /-- The namespaces that the program announces. -/
  namespaces : List String
  statements : List Program.Statement
  /-- The buffer that is rendered. -/
  output : Program.Buffer

namespace Program

/-! ## Invocations and buffers -/

/-- The invocation of a call. -/
def Call.invocation (c : Call) : Invocation :=
  { effect := c.effect, role := c.role }

/-- The calls inside blended content. -/
def Content.calls : Content → List Call
  | .buffer _ => []
  | .chain _ first rest => first :: rest

/-- What a statement invokes. A blend is written around its content, so
it comes first. -/
def Statement.invocations : Statement → List Invocation
  | .produce _ call _ => [call.invocation]
  | .blend _ mix content _ =>
    { effect := EffectId.blend, role := .blend mix.layer } ::
      content.calls.map Call.invocation

/-- The buffer that a statement writes. -/
def Statement.target : Statement → Buffer
  | .produce _ _ target => target
  | .blend _ _ _ target => target

/-- What the program invokes, in the order of its text. -/
def invocations (p : Program) : List Invocation :=
  p.statements.flatMap Statement.invocations

/-- How many buffers the program writes. -/
def bufferCount (p : Program) : Nat :=
  p.statements.length

/-- The base layer is blended onto a backdrop of its own. -/
def baseHasBlend (p : Program) : Bool :=
  p.invocations.any fun inv => inv.role = .backdrop

/-! ## Text -/

/-- The name of a buffer. -/
def bufferName (b : Buffer) : List Char :=
  'o' :: Decimal.natural b

/-- Reading a buffer. -/
def readText (b : Buffer) : List Char :=
  "read(".toList ++ bufferName b ++ [')']

/-- Reading a buffer for the call that follows, if there is one. -/
def inputText : Option Buffer → List Char
  | some b => readText b ++ ['.']
  | none => []

/-- The qualified name of an effect and the bracket of its arguments. -/
def headText (effect : EffectId) : List Char :=
  effect.space.toList ++ '.' :: (effect.name.toList ++ ['('])

/-- An argument by name. -/
def argumentText : String × Json.Value → List Char
  | (name, value) => name.toList ++ ':' :: ' ' :: literal value

/-- A call. -/
def Call.text (c : Call) : List Char :=
  headText c.effect ++
    Json.joinWith [',', ' '] (c.params.entries.map argumentText) ++ [')']

/-- Calls that follow another one. -/
def chainText : List Call → List Char
  | [] => []
  | c :: rest => '.' :: (c.text ++ chainText rest)

/-- Blended content. -/
def Content.text : Content → List Char
  | .buffer b => readText b
  | .chain input first rest =>
    inputText input ++ first.text ++ chainText rest

/-- A blend around its content. -/
def blendText (mix : Mix) (content : Content) : List Char :=
  headText EffectId.blend ++ "amount: ".toList ++ number mix.weight ++
    ", mode: ".toList ++ mix.mode.word.toList ++
    ", tex: ".toList ++ content.text ++ [')']

/-- Writing a buffer. -/
def writeText (b : Buffer) : List Char :=
  ".write(".toList ++ bufferName b ++ [')']

/-- A statement. -/
def Statement.text : Statement → List Char
  | .produce input call target =>
    inputText input ++ call.text ++ writeText target
  | .blend backdrop mix content target =>
    inputText (some backdrop) ++ blendText mix content ++ writeText target

/-- The first line. -/
def headerText (namespaces : List String) : List Char :=
  "search ".toList ++
    Json.joinWith [',', ' '] (namespaces.map String.toList)

/-- The last line. -/
def renderText (b : Buffer) : List Char :=
  "render(".toList ++ bufferName b ++ [')']

/-- The lines of a program. -/
def lines (p : Program) : List (List Char) :=
  headerText p.namespaces ::
    (p.statements.map Statement.text ++ [renderText p.output])

/-- The characters of a program; every line ends. -/
def chars (p : Program) : List Char :=
  p.lines.flatMap fun line => line ++ ['\n']

/-- The text of a program. -/
def text (p : Program) : String :=
  String.ofList p.chars

end Program

end Compositing
