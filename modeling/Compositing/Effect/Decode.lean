/-
Compositing.Effect.Decode — effect identifiers in JSON.

An identifier is written as a string. A string that is no identifier is
refused with the text that users see for it elsewhere.
-/
import Compositing.Error
import Compositing.Json.Decode

namespace Compositing.EffectId

/-- Read an identifier from its written form. -/
def read (text : String) : Except Json.DecodeError EffectId :=
  match ofText text with
  | .ok id => .ok id
  | .error fault => .error (.refused (Error.effectId fault).message)

/-- Read an identifier from a string. -/
def decode : Json.Decoder EffectId
  | .str s => read s
  | _ => .error .invalid

end Compositing.EffectId
