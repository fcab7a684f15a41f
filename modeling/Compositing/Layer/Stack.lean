/-
Compositing.Layer.Stack — an ordered stack of layers.

The layers are kept in an arena by identity; their order, bottom to top,
is a list of identities beside it, so that reordering moves no layer.
The layer at index 0 is the base. `toList` is the view of the stack as
the plain list of its layers.

`ofLayers` accepts a list exactly when it has a layer, every opacity is
a finite number and no identity of a layer or child effect comes twice.
-/
import Compositing.Error
import Compositing.Layer.Basic

namespace Compositing

/-- An ordered stack of layers. -/
structure LayerStack where
  /-- The layers by identity. -/
  arena : List (LayerId × Layer)
  /-- The identities bottom to top. -/
  order : List LayerId

namespace LayerStack

instance : Inhabited LayerStack := ⟨{ arena := [], order := [] }⟩

/-! ## Making a stack -/

/-- Check that identities are new; the result are all seen so far. -/
def checkIds (seen : List LayerId) :
    List LayerId → Except Error (List LayerId)
  | [] => .ok seen
  | id :: rest =>
    if id ∈ seen then .error (.duplicateId id)
    else checkIds (id :: seen) rest

/-- Check layer by layer: first the opacity, then the identities. -/
def checkLayers (seen : List LayerId) : List Layer → Except Error Unit
  | [] => .ok ()
  | l :: rest =>
    if l.opacity.isFinite then
      match checkIds seen l.ids with
      | .ok seen => checkLayers seen rest
      | .error e => .error e
    else .error (.nonFiniteOpacity l.id)

/-- The stack of a list of layers. -/
def ofLayers (layers : List Layer) : Except Error LayerStack :=
  match layers with
  | [] => .error .emptyStack
  | _ :: _ =>
    match checkLayers [] layers with
    | .ok () =>
      .ok
        { arena := Assoc.ofList (layers.map fun l => (l.id, l))
          order := layers.map (·.id) }
    | .error e => .error e

/-! ## Looking into a stack -/

/-- The layer of an identity. -/
def get? (s : LayerStack) (id : LayerId) : Option Layer :=
  Assoc.get? id s.arena

/-- The identity of the base layer. -/
def base? (s : LayerStack) : Option LayerId :=
  s.order.head?

/-- How many layers there are. -/
def size (s : LayerStack) : Nat :=
  s.order.length

/-- There are no layers. -/
def isEmpty (s : LayerStack) : Bool :=
  s.order.isEmpty

/-- The index of a layer in the order. -/
def position? (s : LayerStack) (id : LayerId) : Option Nat :=
  s.order.findIdx? (· = id)

/-- The layers under some order of identities; unknown ones are left
out. -/
def arranged (s : LayerStack) (order : List LayerId) : List Layer :=
  order.filterMap s.get?

/-- The layers bottom to top. -/
def toList (s : LayerStack) : List Layer :=
  s.arranged s.order

/-- All identities in use, of layers and of child effects. -/
def allIds (s : LayerStack) : List LayerId :=
  s.arena.flatMap fun (_, l) => l.ids

/-- The layer that owns a child effect, and the child's index there. -/
def findChild (s : LayerStack) (child : LayerId) :
    Option (LayerId × Nat) :=
  s.toList.findSome? fun l =>
    (l.children.findIdx? (·.id = child)).map fun i => (l.id, i)

/-! ## Changing a stack -/

/-- Change one layer in place. -/
def modify (s : LayerStack) (id : LayerId) (f : Layer → Layer) :
    LayerStack :=
  { s with arena := Assoc.modify id f s.arena }

/-- Change one child effect in place. -/
def modifyChild (s : LayerStack) (owner : LayerId) (index : Nat)
    (f : ChildEffect → ChildEffect) : LayerStack :=
  s.modify owner fun l => { l with children := l.children.modify index f }

/-- Put a layer in at an index, or on top if the stack is lower. -/
def insert (s : LayerStack) (index : Nat) (l : Layer) : LayerStack :=
  { arena := Assoc.insert l.id l s.arena
    order := s.order.insertIdx (min index s.order.length) l.id }

/-- Take a layer out. -/
def remove (s : LayerStack) (id : LayerId) : Option (Layer × LayerStack) :=
  match s.position? id, s.get? id with
  | some index, some l =>
    some
      (l,
        { arena := Assoc.erase id s.arena
          order := s.order.eraseIdx index })
  | _, _ => none

/-- Reorder the layers. The new order must be one of the same layers with
the same base. -/
def setOrder (s : LayerStack) (order : List LayerId) :
    Except Error LayerStack :=
  if order.length ≠ s.order.length ∨ order.head? ≠ s.order.head? then
    .error .incompleteOrder
  else if order.Nodup ∧ ∀ id ∈ order, id ∈ s.order then
    .ok { s with order := order }
  else .error .foreignOrder

end LayerStack

end Compositing
