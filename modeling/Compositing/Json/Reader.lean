/-
Compositing.Json.Reader — reading a document.

The tokens are folded into a stack of open arrays and objects. When a
token does not fit, reading stops: what was open is closed from the
inside out, each marked as not having reached its end.

An array or object inside 127 others is beyond the limit of nesting. It
is read to its end all the same, but has no value.
-/
import Compositing.Json.Token

namespace Compositing.Json

/-- An array or object that is still open; what it holds so far comes
last first. -/
inductive Frame where
  | items (done : List Document)
  | members (done : List (Option String × Document))
  /-- An object behind a key whose value is to come. -/
  | valueOf (key : Option String)
    (done : List (Option String × Document))
  deriving Inhabited

/-- What may come next. -/
inductive Expected where
  | value
  | firstItem
  | firstKey
  | key
  | colon
  | next
  deriving DecidableEq, Inhabited

/-- How far reading has come. -/
inductive Progress where
  | reading (frames : List Frame) (expected : Expected)
  /-- The document is complete; `clean` as long as nothing follows. -/
  | complete (doc : Document) (clean : Bool)
  /-- A token did not fit. -/
  | stopped (frames : List Frame)
  deriving Inhabited

/-- So many arrays and objects may stand inside one another. -/
def nestingLimit : Nat := 127

/-- The document that an open array or object is when its end is
reached, or when reading stops. -/
def Frame.document (closed : Bool) : Frame → Document
  | .items done => .arr done.reverse closed
  | .members done => .obj done.reverse closed
  | .valueOf key done => .obj ((key, .broken) :: done).reverse closed

/-- A value has been read. -/
def Progress.put (doc : Document) : List Frame → Progress
  | [] => .complete doc true
  | .items done :: rest => .reading (.items (doc :: done) :: rest) .next
  | .valueOf key done :: rest =>
    .reading (.members ((key, doc) :: done) :: rest) .next
  | .members done :: rest => .stopped (.members done :: rest)

/-- The innermost array or object ends. -/
def Progress.close (frame : Frame) (rest : List Frame) : Progress :=
  if rest.length < nestingLimit then
    .put (frame.document true) rest
  else .put .unreadable rest

/-- A token where a value may come. -/
def Progress.value (frames : List Frame) (stop : Progress) :
    Token → Progress
  | .openArray => .reading (.items [] :: frames) .firstItem
  | .openObject => .reading (.members [] :: frames) .firstKey
  | .text (some s) => .put (.str s) frames
  | .text none => .put .unreadable frames
  | .scalar doc => .put doc frames
  | _ => stop

/-- One token further. -/
def Progress.step (p : Progress) (token : Token) : Progress :=
  match p with
  | .stopped frames => .stopped frames
  | .complete doc _ => .complete doc false
  | .reading frames expected =>
    let stop := Progress.stopped frames
    match expected, frames, token with
    | .firstItem, .items done :: rest, .closeArray =>
      .close (.items done) rest
    | .firstItem, _, token => .value frames stop token
    | .value, _, token => .value frames stop token
    | .firstKey, .members done :: rest, .closeObject =>
      .close (.members done) rest
    | .firstKey, .members done :: rest, .text key
    | .key, .members done :: rest, .text key =>
      .reading (.valueOf key done :: rest) .colon
    | .colon, _, .colon => .reading frames .value
    | .next, .items _ :: _, .comma => .reading frames .value
    | .next, .members _ :: _, .comma => .reading frames .key
    | .next, .items done :: rest, .closeArray =>
      .close (.items done) rest
    | .next, .members done :: rest, .closeObject =>
      .close (.members done) rest
    | _, _, _ => stop

/-- Close what is open when reading stops. -/
def Frame.abandon : List Frame → Document
  | [] => .broken
  | frame :: rest => rest.foldl enclose (frame.document false)
where
  /-- An open array or object around a document that broke off. -/
  enclose (inner : Document) : Frame → Document
    | .items done => .arr (inner :: done).reverse false
    | .valueOf key done => .obj ((key, inner) :: done).reverse false
    | .members done => .obj done.reverse false

/-- What was read of a text. -/
structure Reading where
  document : Document
  /-- Nothing but white space follows the document. -/
  clean : Bool
  deriving Inhabited

/-- Read a text as JSON. -/
def read (text : String) : Reading :=
  match (Token.ofText text).foldl Progress.step (.reading [] .value) with
  | .complete doc clean => { document := doc, clean := clean }
  | .reading frames _ | .stopped frames =>
    { document := Frame.abandon frames, clean := false }

end Compositing.Json
