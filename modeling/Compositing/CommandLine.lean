/-
Compositing.CommandLine — the command line.

`dsl` prints the program of a stack of layers, `effects` a listing of a
manifest. Arguments are read from left to right and the first fault or
call for help decides. Carrying out a request asks for the contents of
files and is otherwise a function of the arguments.
-/
import Compositing.Config
import Compositing.Layer.Document
import Compositing.Layer.Stack
import Compositing.Program.Synthesis

namespace Compositing.CommandLine

/-! ## Arguments -/

/-- Which effects are listed. -/
inductive Listing where
  | all
  | starter
  | layer
  deriving DecidableEq, Repr

namespace Listing

/-- The word for a listing. -/
def word : Listing → String
  | .all => "all"
  | .starter => "starter"
  | .layer => "layer"

/-- The listing of a word. -/
def ofWord? (word : String) : Option Listing :=
  [all, starter, layer].find? fun listing => listing.word = word

/-- The effects of a listing. -/
def effects (c : Catalog) : Listing → List EffectListing
  | .all => c.all
  | .starter => c.starters
  | .layer => c.filters

end Listing

/-- What the command line asks for. -/
inductive Request where
  | version
  | help
  /-- Print the program of the layers in a file. -/
  | program (layers : String) (manifest config : Option String)
    (invocations : Bool)
  /-- List the effects of the manifest in a file. -/
  | effects (manifest : String) (config : Option String)
    (listing : Listing)
  deriving DecidableEq, Repr

/-- Why the arguments are no request of a command. -/
inductive Stop where
  | help
  | misused
  deriving DecidableEq, Repr

/-- Options with their values; switches have none. -/
abbrev Options := List (String × Option String)

/-- The options that a command knows. -/
structure Grammar where
  /-- Options with a value, and whether they take it. -/
  valued : List (String × (String → Bool))
  switches : List String

/-- The test for values of an option, if it has a value. -/
def Grammar.test? (g : Grammar) (name : String) : Option (String → Bool) :=
  (g.valued.find? (·.1 = name)).map (·.2)

/-- The name of a long option, and its value behind an equals sign. -/
def splitOption (option : List Char) : String × Option String :=
  match option.dropWhile (· ≠ '=') with
  | [] => (String.ofList option, none)
  | _ :: value =>
    (String.ofList (option.takeWhile (· ≠ '=')),
      some (String.ofList value))

/-- The argument can be the value of the option before it. -/
def isPlainValue (arg : String) : Bool :=
  arg = "-" || arg.toList.head? != some '-'

/-- Add an option that must not come twice. -/
def addOption (found : Options) (name : String) (value : Option String) :
    Except Stop Options :=
  if found.any (·.1 = name) then .error .misused
  else .ok (found ++ [(name, value)])

/-- Add an option with its value, which must pass the test. -/
def addValue (test : String → Bool) (found : Options)
    (name value : String) : Except Stop Options :=
  if value != "" && test value then addOption found name (some value)
  else .error .misused

/-- Read the options of a command. -/
def readOptions (g : Grammar) (found : Options) :
    List String → Except Stop Options
  | [] => .ok found
  | arg :: rest =>
    match arg.toList with
    | '-' :: '-' :: [] => if rest.isEmpty then .ok found else .error .misused
    | '-' :: '-' :: option =>
      let (name, value) := splitOption option
      match g.test? name, value, rest with
      | some test, some value, rest =>
        match addValue test found name value with
        | .ok found => readOptions g found rest
        | .error stop => .error stop
      | some test, none, value :: rest =>
        if isPlainValue value then
          match addValue test found name value with
          | .ok found => readOptions g found rest
          | .error stop => .error stop
        else .error .misused
      | some _, none, [] => .error .misused
      | none, none, rest =>
        if name = "help" then .error .help
        else if g.switches.contains name then
          match addOption found name none with
          | .ok found => readOptions g found rest
          | .error stop => .error stop
        else .error .misused
      | none, some _, _ => .error .misused
    | '-' :: 'h' :: _ => .error .help
    | _ => .error .misused

/-- The value of an option. -/
def valueOf? (options : Options) (name : String) : Option String :=
  (options.find? (·.1 = name)).bind (·.2)

/-- Paths may be any text. -/
def isPath (_ : String) : Bool := true

/-- Read the arguments of `dsl`. -/
def readProgram (args : List String) : Except Stop Request := do
  let g : Grammar :=
    { valued :=
        [("layers", isPath), ("manifest", isPath), ("config", isPath)]
      switches := ["invocations"] }
  let options ← readOptions g [] args
  match valueOf? options "layers" with
  | some layers =>
    return .program layers (valueOf? options "manifest")
      (valueOf? options "config") (options.any (·.1 = "invocations"))
  | none => throw .misused

/-- Read the arguments of `effects`. Without a listing it is all. -/
def readEffects (args : List String) : Except Stop Request := do
  let g : Grammar :=
    { valued :=
        [("manifest", isPath), ("config", isPath),
          ("list", fun word => (Listing.ofWord? word).isSome)]
      switches := [] }
  let options ← readOptions g [] args
  let listing := (valueOf? options "list").bind Listing.ofWord?
  match valueOf? options "manifest" with
  | some manifest =>
    return .effects manifest (valueOf? options "config")
      (listing.getD .all)
  | none => throw .misused

/-- Read all arguments. -/
def readRequest : List String → Except Stop Request
  | "dsl" :: args => readProgram args
  | "effects" :: args => readEffects args
  | ["help"] | ["help", "dsl"] | ["help", "effects"] | ["help", "help"]
  | "--help" :: _ => .error .help
  | "--version" :: _ => .ok .version
  | arg :: _ =>
    match arg.toList with
    | '-' :: 'V' :: _ => .ok .version
    | '-' :: 'h' :: _ => .error .help
    | _ => .error .misused
  | [] => .error .misused

/-! ## Files -/

/-- What is found under a path. -/
inductive File where
  /-- Nothing that can be opened. -/
  | absent
  /-- Something that can be opened but holds no text. -/
  | noText
  | text (content : String)
  deriving DecidableEq, Repr, Inhabited

/-- Read the file of a setting; absent and unreadable files are told
alike. -/
def readText (files : String → File) (what path : String) :
    Except String String :=
  match files path with
  | .text content => .ok content
  | _ => .error ("read " ++ what ++ " '" ++ path ++ "'")

/-- Read a file of layers. -/
def readLayers (files : String → File) (path : String) :
    Except String (List Layer) :=
  match files path with
  | .absent => .error ("open layers '" ++ path ++ "'")
  | .noText => .error "parse layers JSON"
  | .text content =>
    (Json.Decode.text Layer.decodeList content).mapError fun _ =>
      "parse layers JSON"

/-- Read a file of layers as a stack. -/
def readStack (files : String → File) (path : String) :
    Except String LayerStack := do
  let layers ← readLayers files path
  (LayerStack.ofLayers layers).mapError Error.message

/-- Read a manifest; without a file it is empty. -/
def readManifest (files : String → File) :
    Option String → Except String Manifest
  | none => .ok {}
  | some path => do
    let content ← readText files "manifest" path
    (Manifest.ofText content).mapError Error.message

/-- Read settings; without a file they are the defaults. -/
def readConfig (files : String → File) :
    Option String → Except String Config
  | none => .ok {}
  | some path => do
    let content ← readText files "config" path
    (Config.ofText content).mapError Error.message

/-! ## Output -/

/-- How an invocation list names an identity. -/
def idText (id : LayerId) : String :=
  "LayerId(" ++ toString id.val ++ ")"

/-- How an invocation list names a role. -/
def roleText : Role → String
  | .backdrop => "Backdrop"
  | .blank => "Blank"
  | .layer id => "Layer(" ++ idText id ++ ")"
  | .child layer child =>
    "Child \x7b layer: " ++ idText layer ++ ", child: " ++ idText child ++
      " \x7d"
  | .blend id => "Blend(" ++ idText id ++ ")"

/-- A text filled up with blanks on the right. -/
def padTo (width : Nat) (text : String) : String :=
  text ++ String.ofList (List.replicate (width - text.length) ' ')

/-- A line of an invocation list. -/
def invocationLine (inv : Invocation) : String :=
  "  " ++ padTo 24 inv.effect.text ++ " " ++ roleText inv.role ++ "\n"

/-- The invocations of a program. -/
def invocationList (p : Program) : String :=
  "invocations:\n" ++ String.join (p.invocations.map invocationLine)

/-- A line of a listing. -/
def listingLine (l : EffectListing) : String :=
  if l.description = "" then l.id.text ++ "\n"
  else l.id.text ++ "\t" ++ l.description ++ "\n"

/-- The name of the program and its version. -/
def versionText : String := "stratum 0.1.0\n"

/-- How the program is used. -/
def helpText : String :=
  "Usage: stratum dsl --layers <LAYERS> [--manifest <MANIFEST>] " ++
    "[--config <CONFIG>] [--invocations]\n" ++
    "       stratum effects --manifest <MANIFEST> [--config <CONFIG>] " ++
    "[--list <all|starter|layer>]\n"

/-! ## Carrying out a request -/

/-- How a run ends. -/
inductive Outcome where
  | printed (out err : String)
  | failed (reason : String)
  | misused
  deriving DecidableEq, Repr

/-- The exit code of an outcome. -/
def Outcome.exitCode : Outcome → Nat
  | .printed _ _ => 0
  | .failed _ => 1
  | .misused => 2

/-- What a request prints, or why it fails. -/
def output (files : String → File) :
    Request → Except String (String × String)
  | .version => .ok (versionText, "")
  | .help => .ok (helpText, "")
  | .program layers manifest config invocations => do
    let stack ← readStack files layers
    let manifest ← readManifest files manifest
    let config ← readConfig files config
    let catalog : Catalog :=
      { manifest := manifest
        generatorNamespaces := config.generatorNamespaces }
    let p := Program.ofLayers catalog config.defaultGenerator stack.toList
    return (p.text, if invocations then invocationList p else "")
  | .effects manifest config listing => do
    let manifest ← readManifest files (some manifest)
    let config ← readConfig files config
    let catalog : Catalog :=
      { manifest := manifest
        generatorNamespaces := config.generatorNamespaces }
    return (String.join ((listing.effects catalog).map listingLine), "")

/-- The request of the arguments; help is one too. -/
def request? (args : List String) : Option Request :=
  match readRequest args with
  | .ok request => some request
  | .error .help => some .help
  | .error .misused => none

/-- Run the command line on some files. -/
def run (files : String → File) (args : List String) : Outcome :=
  match request? args with
  | none => .misused
  | some request =>
    match output files request with
    | .ok (out, err) => .printed out err
    | .error reason => .failed reason

/-- The files that a request may ask for. -/
def Request.paths : Request → List String
  | .version | .help => []
  | .program layers manifest config _ =>
    layers :: (manifest.toList ++ config.toList)
  | .effects manifest config _ => manifest :: config.toList

end Compositing.CommandLine
