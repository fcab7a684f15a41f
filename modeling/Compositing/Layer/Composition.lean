/-
Compositing.Layer.Composition — editing a stack.

A composition is a stack together with the source of new identities. An
edit gives a result and the composition afterwards; an edit that is
refused changes no layer. Nothing here knows of engines: the same edits
give the same layers whatever a pipeline makes of them.
-/
import Compositing.Layer.Stack

namespace Compositing

/-- A stack and the source of new identities. -/
structure Composition where
  stack : LayerStack
  ids : IdSource
  deriving Inhabited

/-- A change of a composition that may be refused. -/
abbrev Edit (α : Type) := Composition → Except Error α × Composition

namespace Composition

/-- The composition of a stack; identities in it are not handed out
again. -/
def ofStack (ids : IdSource) (stack : LayerStack) : Composition :=
  { stack := stack, ids := ids.observeAll stack.allIds }

/-- The layers bottom to top. -/
def layers (c : Composition) : List Layer :=
  c.stack.toList

/-- Hand out an identity. -/
def mint (c : Composition) : LayerId × Composition :=
  let (id, ids) := c.ids.mint
  (id, { c with ids := ids })

/-- Change one layer. -/
def editLayer (id : LayerId) (f : Layer → Layer) : Edit Unit := fun c =>
  match c.stack.get? id with
  | some _ => (.ok (), { c with stack := c.stack.modify id f })
  | none => (.error (.unknownLayer id), c)

/-- Change one child effect. -/
def editChild (child : LayerId) (f : ChildEffect → ChildEffect) :
    Edit Unit := fun c =>
  match c.stack.findChild child with
  | some (owner, index) =>
    (.ok (), { c with stack := c.stack.modifyChild owner index f })
  | none => (.error (.unknownChild child), c)

/-! ## Layers -/

/-- Put a new layer on top. -/
def addLayer (name : String) (source : LayerSource) (params : Params) :
    Edit LayerId := fun c =>
  let (id, c) := c.mint
  let l : Layer :=
    { id := id, name := name, source := source, params := params }
  (.ok id, { c with stack := c.stack.insert c.stack.order.length l })

/-- Take a layer out. The base cannot be removed. -/
def removeLayer (id : LayerId) : Edit Layer := fun c =>
  if c.stack.base? = some id then (.error .baseRemoval, c)
  else
    match c.stack.remove id with
    | some (l, stack) => (.ok l, { c with stack := stack })
    | none => (.error (.unknownLayer id), c)

/-- A copy of a layer under new identities, its own first. -/
def copyOf (l : Layer) (c : Composition) : Layer × Composition :=
  let (id, ids) := c.ids.mint
  let (children, ids) :=
    IdSource.mintEach (fun id child => { child with id := id }) l.children
      ids
  ({ l with id := id, name := l.name ++ " copy", children := children },
    { c with ids := ids })

/-- Put a copy of a layer directly above it. -/
def duplicateLayer (id : LayerId) : Edit LayerId := fun c =>
  match c.stack.position? id, c.stack.get? id with
  | some index, some l =>
    let (copy, c) := copyOf l c
    (.ok copy.id, { c with stack := c.stack.insert (index + 1) copy })
  | _, _ => (.error (.unknownLayer id), c)

/-- Give a layer another effect and no parameters. A media layer has no
effect to replace. -/
def setEffect (id : LayerId) (effect : EffectId) : Edit Unit := fun c =>
  match c.stack.get? id with
  | some l =>
    if l.media?.isSome then (.error (.mediaLayer id), c)
    else
      editLayer id
        (fun l =>
          { l with source := .effect (some effect), params := Params.empty })
        c
  | none => (.error (.unknownLayer id), c)

/-- Show or hide a layer. -/
def setVisible (id : LayerId) (visible : Bool) : Edit Unit :=
  editLayer id fun l => { l with visible := visible }

/-- Change how a layer is blended. -/
def setBlendMode (id : LayerId) (mode : BlendMode) : Edit Unit :=
  editLayer id fun l => { l with blendMode := mode }

/-- Give a layer another name. -/
def rename (id : LayerId) (name : String) : Edit Unit :=
  editLayer id fun l => { l with name := name }

/-- Lock a layer in its place, or unlock it. -/
def setLocked (id : LayerId) (locked : Bool) : Edit Unit :=
  editLayer id fun l => { l with locked := locked }

/-- Set the opacity of a layer, brought into 0 … 100. -/
def setOpacity (id : LayerId) (opacity : Float) : Edit Unit :=
  editLayer id fun l => { l with opacity := clampOpacity opacity }

/-- Move a layer. A locked layer does not move. -/
def setOffset (id : LayerId) (offset : Offset) : Edit Unit := fun c =>
  match c.stack.get? id with
  | some l =>
    if l.locked then (.error (.lockedLayer id), c)
    else editLayer id (fun l => { l with offset := offset }) c
  | none => (.error (.unknownLayer id), c)

/-- Set parameters of a layer, or of a child effect if no layer has the
identity. -/
def patchParams (id : LayerId) (patch : Params) : Edit Unit := fun c =>
  match c.stack.get? id, c.stack.findChild id with
  | some _, _ =>
    editLayer id (fun l => { l with params := l.params.extend patch }) c
  | none, some _ =>
    editChild id
      (fun child => { child with params := child.params.extend patch }) c
  | none, none => (.error (.unknownLayer id), c)

/-! ## Child effects -/

/-- Put a filter at the end of a layer's chain. The identity is handed
out even if there is no such layer. -/
def addChild (id : LayerId) (effect : EffectId) (params : Params) :
    Edit LayerId := fun c =>
  let (child, c) := c.mint
  let added : ChildEffect :=
    { id := child, effect := effect, params := params }
  match editLayer id
      (fun l => { l with children := l.children ++ [added] }) c with
  | (.ok (), c) => (.ok child, c)
  | (.error e, c) => (.error e, c)

/-- A child effect with its owner and its place in the chain. -/
def locate (c : Composition) (child : LayerId) :
    Option (LayerId × Nat × ChildEffect) := do
  let (owner, index) ← c.stack.findChild child
  let l ← c.stack.get? owner
  let found ← l.children[index]?
  return (owner, index, found)

/-- Take a child effect out of its chain. -/
def dropChild (c : Composition) (owner : LayerId) (index : Nat) :
    Composition :=
  { c with
    stack := c.stack.modify owner fun l =>
      { l with children := l.children.eraseIdx index } }

/-- Take a child effect out. -/
def removeChild (child : LayerId) : Edit ChildEffect := fun c =>
  match c.locate child with
  | some (owner, index, found) => (.ok found, c.dropChild owner index)
  | none => (.error (.unknownChild child), c)

/-- Show or hide a child effect. -/
def setChildVisible (child : LayerId) (visible : Bool) : Edit Unit :=
  editChild child fun found => { found with visible := visible }

/-- Lift a child effect out of its chain: it becomes a filter layer
directly above its owner. -/
def extractChild (child : LayerId) : Edit LayerId := fun c =>
  match c.locate child with
  | some (owner, index, found) =>
    let position := (c.stack.position? owner).getD 0
    let ownerName := ((c.stack.get? owner).map (·.name)).getD ""
    let (id, c) := (c.dropChild owner index).mint
    let l : Layer :=
      { id := id
        name := ownerName ++ " " ++ found.effect.name
        visible := found.visible
        source := .effect (some found.effect)
        params := found.params }
    (.ok id, { c with stack := c.stack.insert (position + 1) l })
  | none => (.error (.unknownChild child), c)

end Composition

end Compositing
