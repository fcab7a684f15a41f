/-
Compositing.Json.DecodeError — why typed data could not be read.

Four faults are named with the member or word they concern, and a text
that its own type refuses brings its own reason. Everything else, from a
syntax error to a value of the wrong type, is `invalid`.
-/
namespace Compositing.Json

/-- Why a document is not what was to be read. -/
inductive DecodeError where
  | missingField (name : String)
  | unknownField (name : String) (expected : List String)
  | duplicateField (name : String)
  | unknownVariant (name : String) (expected : List String)
  /-- A text was refused by the type it was to become. -/
  | refused (reason : String)
  | invalid
  deriving DecidableEq, Repr, Inhabited

/-- A name as messages quote it. -/
def quoteName (name : String) : String :=
  "\x60" ++ name ++ "\x60"

/-- The names that would have been right. -/
def expectedNames : List String → String
  | [a, b] => "expected " ++ quoteName a ++ " or " ++ quoteName b
  | names =>
    "expected one of " ++ ", ".intercalate (names.map quoteName)

/-- The text of the error. -/
def DecodeError.message : DecodeError → String
  | .missingField name => "missing field " ++ quoteName name
  | .unknownField name expected =>
    "unknown field " ++ quoteName name ++ ", " ++ expectedNames expected
  | .duplicateField name => "duplicate field " ++ quoteName name
  | .unknownVariant name expected =>
    "unknown variant " ++ quoteName name ++ ", " ++ expectedNames expected
  | .refused reason => reason
  | .invalid => "invalid"

end Compositing.Json
