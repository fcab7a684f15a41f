/-
Compositing.Json.Decode — reading typed data from documents.

A record is read member by member in text order: `record` hands each
member to `put`, which fills a draft of the record, and then lets
`finish` look for what is missing. So the first fault of the text is the
one reported, and a missing member only after all present ones were
read. A record may also be written as an array of its members' values in
declaration order; then nothing tells which member is missing.
-/
import Compositing.Json.Document
import Compositing.Json.DecodeError
import Compositing.Json.Reader

namespace Compositing.Json

/-- A way to read typed data from a document. -/
abbrev Decoder (α : Type) := Document → Except DecodeError α

namespace Decode

/-- Read a text and decode it; nothing may follow the document. -/
def text {α : Type} (decode : Decoder α) (source : String) :
    Except DecodeError α := do
  let reading := read source
  let result ← decode reading.document
  if reading.clean then return result else throw .invalid

/-! ## Single values -/

/-- A truth value. -/
def bool : Decoder Bool
  | .bool b => .ok b
  | _ => .error .invalid

/-- A string. -/
def string : Decoder String
  | .str s => .ok s
  | _ => .error .invalid

/-- A floating-point number; integers are rounded. -/
def float : Decoder Float
  | .float x => .ok x
  | .int n => .ok (Value.roundInt n)
  | _ => .error .invalid

/-- Unsigned integers of 64 bits are below this bound. -/
def unsignedBound : Int := 0x10000000000000000

/-- An unsigned integer of 64 bits. -/
def unsigned : Decoder Nat
  | .int n => if 0 ≤ n ∧ n < unsignedBound then .ok n.toNat else .error .invalid
  | _ => .error .invalid

/-- `null` or a value. -/
def nullable {α : Type} (decode : Decoder α) : Decoder (Option α)
  | .null => .ok none
  | doc => some <$> decode doc

/-- An array, item by item. -/
def list {α : Type} (decode : Decoder α) : Decoder (List α)
  | .arr items closed => do
    let results ← items.mapM decode
    if closed then return results else throw .invalid
  | _ => .error .invalid

/-- Any value. -/
def value : Decoder Value := fun doc =>
  match doc.value? with
  | some v => .ok v
  | none => .error .invalid

/-- Nothing, as a text writes it. -/
def isNull : Document → Bool
  | .null => true
  | _ => false

/-- Nothing, in a value that has been gone through before: an empty
object counts too. -/
def isVoid : Document → Bool
  | .null => true
  | .obj [] closed => closed
  | _ => false

/-- One of several named constants. A constant may also be written as the
only key of an object, with nothing as its value. -/
def constant {α : Type} (nothing : Document → Bool) (names : List String)
    (find? : String → Option α) : Decoder α
  | .str name => named name
  | .obj ((some name, item) :: rest) closed => do
    let result ← named name
    if nothing item && rest.isEmpty && closed then return result
    else throw .invalid
  | _ => .error .invalid
where
  /-- The constant of a name. -/
  named (name : String) : Except DecodeError α :=
    match find? name with
    | some a => .ok a
    | none => .error (.unknownVariant name names)

/-- A value that has been gone through before: if it is an object, it has
no more than one member. -/
def single {α : Type} (decode : Decoder α) : Decoder α
  | .obj (_ :: _ :: _) _ => .error .invalid
  | doc => decode doc

/-! ## Records -/

/-- Fill a member of a draft that must not be filled twice. -/
def once {α : Type} (name : String) (filled : Option α)
    (decode : Decoder α) (doc : Document) :
    Except DecodeError (Option α) :=
  match filled with
  | some _ => .error (.duplicateField name)
  | none => some <$> decode doc

/-- Pass over a member that the record does not have. -/
def skip {δ : Type} (draft : δ) (doc : Document) : Except DecodeError δ :=
  if doc.isComplete then .ok draft else .error .invalid

/-- The value of a member that the record must have. -/
def required {α : Type} (missing : String → DecodeError)
    (name : String) : Option α → Except DecodeError α
  | some a => .ok a
  | none => .error (missing name)

/-- The next member of an object in text order. -/
def member {δ : Type}
    (put : δ → String → Document → Except DecodeError δ) (draft : δ) :
    Option String × Document → Except DecodeError δ
  | (some key, doc) => put draft key doc
  | (none, _) => .error .invalid

/-- A record, from an object or from an array of its members' values. -/
def record {δ α : Type} (names : List String) (start : δ)
    (put : δ → String → Document → Except DecodeError δ)
    (finish : (String → DecodeError) → δ → Except DecodeError α) :
    Decoder α
  | .obj members closed => do
    let draft ← members.foldlM (member put) start
    if closed then finish .missingField draft else throw .invalid
  | .arr items closed => do
    let draft ← (names.zip items).foldlM
      (fun draft (name, doc) => put draft name doc) start
    if closed && items.length ≤ names.length then
      finish (fun _ => .invalid) draft
    else throw .invalid
  | _ => .error .invalid

end Decode

end Compositing.Json
