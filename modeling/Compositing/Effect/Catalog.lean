/-
Compositing.Effect.Catalog — what a manifest says about using an effect.

A catalog is a manifest together with the namespaces whose effects are
generators. It sorts every effect into one class, on which depend how a
layer of that effect is written in a program and in which listing the
effect appears.
-/
import Compositing.Effect.Manifest

namespace Compositing

/-- How an effect takes part in a program. -/
inductive EffectClass where
  /-- The flat colour. -/
  | solid
  /-- Media from outside. -/
  | media
  /-- A generator that samples a rasterized text. -/
  | text
  /-- Produces a buffer out of nothing. -/
  | generator
  /-- Reads the buffer before it. -/
  | filter
  /-- A compositing operator. -/
  | compositor
  deriving DecidableEq, Repr

namespace EffectClass

/-- Effects of the class produce a buffer without reading one. -/
def isStandalone : EffectClass → Bool
  | .solid | .media | .text | .generator => true
  | .filter | .compositor => false

/-- Effects of the class are moved by the offset of their layer. -/
def hasOffset : EffectClass → Bool
  | .media | .text => true
  | _ => false

/-- The word for a class. -/
def word : EffectClass → String
  | .solid => "solid"
  | .media => "media"
  | .text => "text"
  | .generator => "generator"
  | .filter => "filter"
  | .compositor => "compositor"

end EffectClass

/-- An entry of a listing. -/
structure EffectListing where
  id : EffectId
  description : String
  tags : List String
  deriving DecidableEq

/-- A manifest and the namespaces of generators. -/
structure Catalog where
  manifest : Manifest
  generatorNamespaces : List String

/-- The texture slot that media layers are fed through. -/
def mediaSlot : String := "imageTex"

namespace Catalog

/-- What is published about an effect. -/
def info? (c : Catalog) (id : EffectId) : Option EffectInfo :=
  c.manifest.get? id

/-- The slot of the raster texture that an effect samples. -/
def externalTexture? (c : Catalog) (id : EffectId) : Option String :=
  (c.info? id).bind (·.externalTexture)

/-- The effect generates: by its namespace, or because the manifest
marks it. -/
def isGenerator (c : Catalog) (id : EffectId) : Bool :=
  c.generatorNamespaces.contains id.space ||
    (c.info? id).any (·.starter)

/-- The class of an effect; the first test that applies decides. -/
def classify (c : Catalog) (id : EffectId) : EffectClass :=
  if id = EffectId.solid then .solid
  else if id = EffectId.media then .media
  else if id.space = EffectId.mixerSpace then .compositor
  else if (c.externalTexture? id).isSome then .text
  else if c.isGenerator id then .generator
  else .filter

/-- The texture slot that is fed from outside the program, if any. -/
def textureSlot? (c : Catalog) (id : EffectId) : Option String :=
  match c.classify id with
  | .media => some mediaSlot
  | .text => c.externalTexture? id
  | _ => none

/-- Effects of the built-in namespaces appear in no listing. -/
def isInternal (id : EffectId) : Bool :=
  id.space = EffectId.mediaSpace || id.space = EffectId.mixerSpace

/-- The published effects that pass a test, by identifier. -/
def listing (c : Catalog) (keep : EffectId → Bool) : List EffectListing :=
  (c.manifest.effects.filter fun (id, _) => keep id).map fun (id, info) =>
    { id := id, description := info.description, tags := info.tags }

/-- Every effect that users see. -/
def all (c : Catalog) : List EffectListing :=
  c.listing fun id => !isInternal id

/-- Effects that can begin a layer. -/
def starters (c : Catalog) : List EffectListing :=
  c.listing fun id =>
    !isInternal id &&
      (c.classify id = .generator || c.classify id = .text)

/-- Filters for a layer's own chain. -/
def filters (c : Catalog) : List EffectListing :=
  c.listing fun id => !isInternal id && c.classify id = .filter

end Catalog

end Compositing
