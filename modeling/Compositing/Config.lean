/-
Compositing.Config — settings of a session.

Every setting has a default, and a member that is no setting is refused.
-/
import Compositing.Effect.Decode

namespace Compositing

open Json (Document DecodeError)

/-- Settings of a session. -/
structure Config where
  /-- A recompile is left out when the program text is the one that runs
  already. -/
  changeDetection : Bool := true
  /-- The effect of effect layers that name none. -/
  defaultGenerator : EffectId := EffectId.noise
  /-- Effects of these namespaces generate without reading. -/
  generatorNamespaces : List String := ["synth"]
  /-- Passed on with every texture upload. -/
  flipY : Bool := true
  deriving DecidableEq

namespace Config

/-- The names of the settings. -/
def fields : List String :=
  ["change_detection", "default_generator", "generator_namespaces",
    "flip_y"]

/-- The settings read so far. -/
structure Draft where
  changeDetection : Option Bool := none
  defaultGenerator : Option EffectId := none
  generatorNamespaces : Option (List String) := none
  flipY : Option Bool := none

/-- Read one setting. -/
def Draft.put (d : Draft) (key : String) (doc : Document) :
    Except DecodeError Draft :=
  match key with
  | "change_detection" => do
    let v ← Json.Decode.once key d.changeDetection Json.Decode.bool doc
    return { d with changeDetection := v }
  | "default_generator" => do
    let v ← Json.Decode.once key d.defaultGenerator
      EffectId.decode doc
    return { d with defaultGenerator := v }
  | "generator_namespaces" => do
    let v ← Json.Decode.once key d.generatorNamespaces
      (Json.Decode.list Json.Decode.string) doc
    return { d with generatorNamespaces := v }
  | "flip_y" => do
    let v ← Json.Decode.once key d.flipY Json.Decode.bool doc
    return { d with flipY := v }
  | _ => .error (.unknownField key fields)

/-- Read settings; every one may be absent. -/
def decode : Json.Decoder Config :=
  Json.Decode.record fields {} Draft.put fun _ d =>
    let base : Config := {}
    .ok
      { changeDetection := d.changeDetection.getD base.changeDetection
        defaultGenerator := d.defaultGenerator.getD base.defaultGenerator
        generatorNamespaces :=
          d.generatorNamespaces.getD base.generatorNamespaces
        flipY := d.flipY.getD base.flipY }

/-- Settings as written. -/
def document (c : Config) : Document :=
  .record
    [("change_detection", .bool c.changeDetection),
      ("default_generator", .str c.defaultGenerator.text),
      ("generator_namespaces",
        .list (c.generatorNamespaces.map .str)),
      ("flip_y", .bool c.flipY)]

/-- Read the text of settings. -/
def ofText (text : String) : Except Error Config :=
  (Json.Decode.text decode text).mapError .config

end Config

end Compositing
