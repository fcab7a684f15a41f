/-
Compositing.Layer.Document — layers in JSON.

Every record is read member by member in text order. The source of a
layer is told apart by its member `kind`, which may come at any place,
so its members are first gone through for the kind and then read again
for what that kind has. A layer is read from a text or from a value that
stands on its own; the two tell a blend mode with two names apart.
-/
import Compositing.Effect.Decode
import Compositing.Layer.Basic

namespace Compositing

open Json (Value Document DecodeError Decoder)

/-- Read an identity. -/
def LayerId.decode : Decoder LayerId := fun doc => do
  let n ← Json.Decode.unsigned doc
  if h : n < LayerId.bound then return ⟨n, h⟩ else throw .invalid

/-- An identity as written. -/
def LayerId.document (id : LayerId) : Document :=
  .int id.val

/-- Read a blend mode. -/
def BlendMode.decode : Decoder BlendMode :=
  Json.Decode.constant Json.Decode.isNull (all.map word) ofWord?

/-- Read a blend mode from a document that has been gone through
before. -/
def BlendMode.decodeSettled : Decoder BlendMode :=
  Json.Decode.single decode

/-- The blend mode that a value stands for. -/
def BlendMode.ofValue (v : Value) : Except DecodeError BlendMode :=
  decodeSettled (.ofValue v)

/-- Read a kind of media. It stands in a source, whose members are gone
through before they are read. -/
def MediaKind.decode : Decoder MediaKind :=
  Json.Decode.single
    (Json.Decode.constant Json.Decode.isVoid (all.map word) ofWord?)

/-! ## Offsets -/

namespace Offset

/-- The members read so far. -/
structure Draft where
  x : Option Float := none
  y : Option Float := none

/-- Read one member. -/
def Draft.put (d : Draft) (key : String) (doc : Document) :
    Except DecodeError Draft :=
  match key with
  | "x" => do
    let v ← Json.Decode.once key d.x Json.Decode.float doc
    return { d with x := v }
  | "y" => do
    let v ← Json.Decode.once key d.y Json.Decode.float doc
    return { d with y := v }
  | _ => Json.Decode.skip d doc

/-- Look for what is missing. -/
def Draft.finish (missing : String → DecodeError) (d : Draft) :
    Except DecodeError Offset := do
  let x ← Json.Decode.required missing "x" d.x
  let y ← Json.Decode.required missing "y" d.y
  return { x := x, y := y }

/-- Read an offset. -/
def decode : Decoder Offset :=
  Json.Decode.record ["x", "y"] {} Draft.put Draft.finish

/-- An offset as written. -/
def document (o : Offset) : Document :=
  .record [("x", .ofFloat o.x), ("y", .ofFloat o.y)]

end Offset

/-! ## Sources -/

namespace LayerSource

/-- The two kinds of sources. -/
inductive Tag where
  | media
  | effect
  deriving DecidableEq, Repr

/-- Read the kind of a source. It is a plain string. -/
def Tag.decode : Decoder Tag
  | .str "media" => .ok .media
  | .str "effect" => .ok .effect
  | .str name => .error (.unknownVariant name ["media", "effect"])
  | _ => .error .invalid

/-- Go through one member for the kind; every other one must have a
value. -/
def readTag (found : Option Tag) (key : String) (doc : Document) :
    Except DecodeError (Option Tag) :=
  if key = "kind" then Json.Decode.once key found Tag.decode doc
  else do
    let _ ← Json.Decode.value doc
    return found

/-- The members of a media source read so far. -/
structure MediaDraft where
  reference : Option String := none
  kind : Option MediaKind := none

/-- Read one member of a media source. -/
def MediaDraft.put (d : MediaDraft) (key : String) (doc : Document) :
    Except DecodeError MediaDraft :=
  match key with
  | "reference" => do
    let v ← Json.Decode.once key d.reference Json.Decode.string doc
    return { d with reference := v }
  | "media_kind" => do
    let v ← Json.Decode.once key d.kind MediaKind.decode doc
    return { d with kind := v }
  | _ => .ok d

/-- Look for what is missing. -/
def MediaDraft.finish (missing : String → DecodeError) (d : MediaDraft) :
    Except DecodeError LayerSource := do
  let reference ← Json.Decode.required missing "reference" d.reference
  let kind ← Json.Decode.required missing "media_kind" d.kind
  return .media reference kind

/-- Read one member of an effect source; so far there is its effect. -/
def putEffect (d : Option (Option EffectId)) (key : String)
    (doc : Document) : Except DecodeError (Option (Option EffectId)) :=
  match key with
  | "effect" =>
    Json.Decode.once key d (Json.Decode.nullable EffectId.decode) doc
  | _ => .ok d

/-- Read the rest of a source whose kind is known. -/
def decodeAs : Tag → Decoder LayerSource
  | .media =>
    Json.Decode.record ["reference", "media_kind"] {} MediaDraft.put
      MediaDraft.finish
  | .effect =>
    Json.Decode.record ["effect"] none putEffect fun _ d =>
      .ok (.effect (d.getD none))

/-- Read a source. As an array it begins with the kind. -/
def decode : Decoder LayerSource
  | .obj members closed => do
    let found ← members.foldlM (Json.Decode.member readTag) none
    if closed then
      let tag ← Json.Decode.required .missingField "kind" found
      decodeAs tag (.obj members true)
    else throw .invalid
  | .arr (head :: rest) closed => do
    let tag ← Tag.decode head
    let _ ← rest.mapM Json.Decode.value
    if closed then decodeAs tag (.arr rest true) else throw .invalid
  | .arr [] true => .error (.missingField "kind")
  | _ => .error .invalid

/-- A source as written; the kind comes first. -/
def document : LayerSource → Document
  | .media reference kind =>
    .record
      [("kind", .str "media"), ("reference", .str reference),
        ("media_kind", .str kind.word)]
  | .effect chosen =>
    .record
      [("kind", .str "effect"),
        ("effect",
          match chosen with
          | some id => .str id.text
          | none => .null)]

end LayerSource

/-! ## Child effects -/

namespace ChildEffect

/-- The members of a child effect. -/
def fields : List String := ["id", "effect", "params", "visible"]

/-- The members read so far. -/
structure Draft where
  id : Option LayerId := none
  effect : Option EffectId := none
  params : Option Params := none
  visible : Option Bool := none

/-- Read one member. -/
def Draft.put (d : Draft) (key : String) (doc : Document) :
    Except DecodeError Draft :=
  match key with
  | "id" => do
    let v ← Json.Decode.once key d.id LayerId.decode doc
    return { d with id := v }
  | "effect" => do
    let v ← Json.Decode.once key d.effect EffectId.decode doc
    return { d with effect := v }
  | "params" => do
    let v ← Json.Decode.once key d.params Params.decode doc
    return { d with params := v }
  | "visible" => do
    let v ← Json.Decode.once key d.visible Json.Decode.bool doc
    return { d with visible := v }
  | _ => Json.Decode.skip d doc

/-- Look for what is missing. -/
def Draft.finish (missing : String → DecodeError) (d : Draft) :
    Except DecodeError ChildEffect := do
  let id ← Json.Decode.required missing "id" d.id
  let effect ← Json.Decode.required missing "effect" d.effect
  .ok
    { id := id
      effect := effect
      params := d.params.getD Params.empty
      visible := d.visible.getD true }

/-- Read a child effect. -/
def decode : Decoder ChildEffect :=
  Json.Decode.record fields {} Draft.put Draft.finish

/-- A child effect as written. -/
def document (c : ChildEffect) : Document :=
  .record
    [("id", c.id.document), ("effect", .str c.effect.text),
      ("params", c.params.document), ("visible", .bool c.visible)]

end ChildEffect

/-! ## Layers -/

namespace Layer

/-- The members of a layer. -/
def fields : List String :=
  ["id", "name", "visible", "opacity", "blend_mode", "locked", "offset",
    "source", "params", "children"]

/-- The members read so far. -/
structure Draft where
  id : Option LayerId := none
  name : Option String := none
  visible : Option Bool := none
  opacity : Option Float := none
  blendMode : Option BlendMode := none
  locked : Option Bool := none
  offset : Option Offset := none
  source : Option LayerSource := none
  params : Option Params := none
  children : Option (List ChildEffect) := none

/-- Read one member, a blend mode in the given way. -/
def Draft.put (mode : Decoder BlendMode) (d : Draft) (key : String)
    (doc : Document) : Except DecodeError Draft :=
  match key with
  | "id" => do
    let v ← Json.Decode.once key d.id LayerId.decode doc
    return { d with id := v }
  | "name" => do
    let v ← Json.Decode.once key d.name Json.Decode.string doc
    return { d with name := v }
  | "visible" => do
    let v ← Json.Decode.once key d.visible Json.Decode.bool doc
    return { d with visible := v }
  | "opacity" => do
    let v ← Json.Decode.once key d.opacity Json.Decode.float doc
    return { d with opacity := v }
  | "blend_mode" => do
    let v ← Json.Decode.once key d.blendMode mode doc
    return { d with blendMode := v }
  | "locked" => do
    let v ← Json.Decode.once key d.locked Json.Decode.bool doc
    return { d with locked := v }
  | "offset" => do
    let v ← Json.Decode.once key d.offset Offset.decode doc
    return { d with offset := v }
  | "source" => do
    let v ← Json.Decode.once key d.source LayerSource.decode doc
    return { d with source := v }
  | "params" => do
    let v ← Json.Decode.once key d.params Params.decode doc
    return { d with params := v }
  | "children" => do
    let v ← Json.Decode.once key d.children
      (Json.Decode.list ChildEffect.decode) doc
    return { d with children := v }
  | _ => Json.Decode.skip d doc

/-- Look for what is missing; all but the identity and the source have a
default. -/
def Draft.finish (missing : String → DecodeError) (d : Draft) :
    Except DecodeError Layer := do
  let id ← Json.Decode.required missing "id" d.id
  let source ← Json.Decode.required missing "source" d.source
  let base : Layer := { id := id, source := source }
  .ok
    { id := id
      name := d.name.getD base.name
      visible := d.visible.getD base.visible
      opacity := d.opacity.getD base.opacity
      blendMode := d.blendMode.getD base.blendMode
      locked := d.locked.getD base.locked
      offset := d.offset.getD base.offset
      source := source
      params := d.params.getD base.params
      children := d.children.getD base.children }

/-- Read a layer, its blend mode in the given way. -/
def decodeWith (mode : Decoder BlendMode) : Decoder Layer :=
  Json.Decode.record fields {} (Draft.put mode) Draft.finish

/-- Read a layer. -/
def decode : Decoder Layer :=
  decodeWith BlendMode.decode

/-- The layer that a value stands for. -/
def ofValue (v : Value) : Except DecodeError Layer :=
  decodeWith BlendMode.decodeSettled (.ofValue v)

/-- Read a list of layers. -/
def decodeList : Decoder (List Layer) :=
  Json.Decode.list decode

/-- A layer as written. -/
def document (l : Layer) : Document :=
  .record
    [("id", l.id.document), ("name", .str l.name),
      ("visible", .bool l.visible), ("opacity", .ofFloat l.opacity),
      ("blend_mode", .str l.blendMode.word), ("locked", .bool l.locked),
      ("offset", l.offset.document), ("source", l.source.document),
      ("params", l.params.document),
      ("children", .list (l.children.map (·.document)))]

/-- A list of layers as written. -/
def listDocument (layers : List Layer) : Document :=
  .list (layers.map document)

end Layer

end Compositing
