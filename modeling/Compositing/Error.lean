/-
Compositing.Error — why an operation was refused.

Every refusal of the library is a cause of its own; what an engine, a
rasterizer or a caller reports comes as a kind and a text. `message` is
the text that users see: the name of the kind, then the cause.
-/
import Compositing.Effect.Id
import Compositing.Layer.Id
import Compositing.Json.DecodeError

namespace Compositing

/-- The area to which an error belongs. -/
inductive ErrorKind where
  | validation
  | compile
  | effectLoad
  | texture
  | engine
  | reorder
  | other
  deriving DecidableEq, Repr

/-- Why an operation was refused. -/
inductive Error where
  | emptyStack
  | nonFiniteOpacity (layer : LayerId)
  | duplicateId (id : LayerId)
  | unknownLayer (id : LayerId)
  | unknownChild (id : LayerId)
  | baseRemoval
  | mediaLayer (layer : LayerId)
  | lockedLayer (layer : LayerId)
  | effectId (fault : EffectId.Fault)
  | config (cause : Json.DecodeError)
  | manifest (cause : Json.DecodeError)
  /-- An ordering loses a layer or moves the base. -/
  | incompleteOrder
  /-- An ordering repeats a layer or names one that is not there. -/
  | foreignOrder
  | reported (kind : ErrorKind) (detail : String)
  deriving DecidableEq, Repr

/-- The cause without its kind. -/
def EffectId.Fault.detail : EffectId.Fault → String
  | .unqualified text =>
    "effect identifier '" ++ text ++ "' must be 'namespace/name'"
  | .notIdent space name =>
    "invalid effect identifier '" ++ space ++ "/" ++ name ++ "'"

namespace Error

/-- The area of the error. -/
def kind : Error → ErrorKind
  | .incompleteOrder | .foreignOrder => .reorder
  | .reported kind _ => kind
  | _ => .validation

/-- The cause without its kind. -/
def detail : Error → String
  | .emptyStack => "layer stack must contain at least the base layer"
  | .nonFiniteOpacity layer =>
    "layer " ++ layer.text ++ " has non-finite opacity"
  | .duplicateId id => "duplicate layer id " ++ id.text
  | .unknownLayer id => "unknown layer " ++ id.text
  | .unknownChild id => "unknown child effect " ++ id.text
  | .baseRemoval => "the base layer cannot be removed"
  | .mediaLayer layer =>
    "layer " ++ layer.text ++
      " is a media layer and has no effect to replace"
  | .lockedLayer layer => "layer " ++ layer.text ++ " is locked"
  | .effectId fault => fault.detail
  | .config cause => "config: " ++ cause.message
  | .manifest cause => "manifest: " ++ cause.message
  | .incompleteOrder =>
    "candidate ordering must keep every layer and the base at index 0"
  | .foreignOrder => "candidate ordering references unknown layers"
  | .reported _ detail => detail

/-- What stands in front of the cause. -/
def heading : ErrorKind → String
  | .validation => "validation error: "
  | .compile => "compile error: "
  | .effectLoad => "effect load error: "
  | .texture => "texture error: "
  | .engine => "engine error: "
  | .reorder => "reorder error: "
  | .other => ""

/-- The text of the error. -/
def message (e : Error) : String :=
  heading e.kind ++ e.detail

end Error

end Compositing
