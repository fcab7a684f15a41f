/-
Compositing.Effect.Manifest — what an engine publishes about its effects.

A manifest maps effect identifiers to information, in identifier order.
In a text each identifier is a member key; of a repeated one the last
entry counts.
-/
import Compositing.Effect.Decode

namespace Compositing

open Json (Document DecodeError)

/-- What is published about one effect. -/
structure EffectInfo where
  /-- The effect can begin a layer. -/
  starter : Bool := false
  description : String := ""
  tags : List String := []
  /-- The slot of the raster texture that the effect samples, if it is
  fed from outside. -/
  externalTexture : Option String := none
  deriving DecidableEq, Repr, Inhabited

namespace EffectInfo

/-- The members of an information record. -/
def fields : List String :=
  ["starter", "description", "tags", "externalTexture"]

/-- The members read so far. -/
structure Draft where
  starter : Option Bool := none
  description : Option String := none
  tags : Option (List String) := none
  externalTexture : Option (Option String) := none

/-- Read one member. -/
def Draft.put (d : Draft) (key : String) (doc : Document) :
    Except DecodeError Draft :=
  match key with
  | "starter" => do
    let v ← Json.Decode.once key d.starter Json.Decode.bool doc
    return { d with starter := v }
  | "description" => do
    let v ← Json.Decode.once key d.description Json.Decode.string doc
    return { d with description := v }
  | "tags" => do
    let v ← Json.Decode.once key d.tags
      (Json.Decode.list Json.Decode.string) doc
    return { d with tags := v }
  | "externalTexture" => do
    let v ← Json.Decode.once key d.externalTexture
      (Json.Decode.nullable Json.Decode.string) doc
    return { d with externalTexture := v }
  | _ => Json.Decode.skip d doc

/-- Read an information record; every member may be absent. -/
def decode : Json.Decoder EffectInfo :=
  Json.Decode.record fields {} Draft.put fun _ d =>
    .ok
      { starter := d.starter.getD false
        description := d.description.getD ""
        tags := d.tags.getD []
        externalTexture := d.externalTexture.getD none }

/-- An information record as written; the texture only if there is one. -/
def document (info : EffectInfo) : Document :=
  let texture :=
    match info.externalTexture with
    | some slot => [("externalTexture", Document.str slot)]
    | none => []
  .record <|
    [("starter", .bool info.starter),
      ("description", .str info.description),
      ("tags", .list (info.tags.map .str))] ++ texture

end EffectInfo

/-- The published effects, by identifier. -/
structure Manifest where
  effects : List (EffectId × EffectInfo) := []
  ascending : Assoc.Ascending effects := by exact Assoc.ascending_nil

namespace Manifest

instance : Inhabited Manifest := ⟨{}⟩

/-- Publish an effect, in place of what was published of it before. -/
def insert (m : Manifest) (id : EffectId) (info : EffectInfo) :
    Manifest :=
  { effects := Assoc.insert id info m.effects
    ascending := Assoc.insert_ascending m.ascending }

/-- What is published about an effect. -/
def get? (m : Manifest) (id : EffectId) : Option EffectInfo :=
  Assoc.get? id m.effects

/-- Read one entry of a manifest. -/
def put (m : Manifest) (key : String) (doc : Document) :
    Except DecodeError Manifest := do
  let id ← EffectId.read key
  let info ← EffectInfo.decode doc
  return m.insert id info

/-- Read a manifest, entry by entry. -/
def decode : Json.Decoder Manifest
  | .obj members closed => do
    let m ← members.foldlM (Json.Decode.member put) {}
    if closed then return m else throw .invalid
  | _ => .error .invalid

/-- A manifest as written. -/
def document (m : Manifest) : Document :=
  .record (m.effects.map fun (id, info) => (id.text, info.document))

/-- Read the text of a manifest. -/
def ofText (text : String) : Except Error Manifest :=
  (Json.Decode.text decode text).mapError .manifest

end Manifest

end Compositing
