/-
Compositing.Layer.Params — parameters of an effect.

Parameters are JSON values by name, in ascending order of the names, and
so are the members of every object inside them. The order is part of the
type: parameters are equal exactly when their entries are.
-/
import Compositing.Json.Decode

namespace Compositing

open Json (Value Document DecodeError)

/-- Parameters by name. -/
structure Params where
  entries : List (String × Value)
  ordered : (Value.obj entries).Ordered

namespace Params

@[ext]
theorem ext {p q : Params} (h : p.entries = q.entries) : p = q := by
  cases p
  cases q
  simp only at h
  subst h
  rfl

/-- No parameters. -/
def empty : Params :=
  { entries := [], ordered := ⟨Assoc.ascending_nil, trivial⟩ }

instance : Inhabited Params := ⟨empty⟩

/-- The value of a parameter. -/
def get? (p : Params) (name : String) : Option Value :=
  Assoc.get? name p.entries

/-- Set a parameter. -/
def insert (p : Params) (name : String) (value : Value)
    (h : value.Ordered) : Params :=
  { entries := Assoc.insert name value p.entries
    ordered :=
      ⟨Assoc.insert_ascending p.ordered.1,
        Value.orderedMembers_insert h p.ordered.2⟩ }

/-- Set a parameter to a number. -/
def insertFloat (p : Params) (name : String) (x : Float) : Params :=
  p.insert name (.ofFloat x) (Value.ordered_ofFloat x)

/-- Set a parameter to a pair of numbers. -/
def insertPair (p : Params) (name : String) (x y : Float) : Params :=
  p.insert name (.arr [.ofFloat x, .ofFloat y])
    ⟨Value.ordered_ofFloat x, Value.ordered_ofFloat y, trivial⟩

/-- Set every parameter of a patch. -/
def extend (p patch : Params) : Params :=
  { entries := Assoc.insertAll p.entries patch.entries
    ordered :=
      ⟨Assoc.insertAll_ascending p.ordered.1 patch.entries,
        Value.orderedMembers_insertAll p.ordered.2 patch.ordered.2⟩ }

/-- The parameters that an object lists. -/
def ofValue? : (v : Value) → v.Ordered → Option Params
  | .obj entries, h => some { entries := entries, ordered := h }
  | _, _ => none

/-- Read parameters: any object whose members all have values. -/
def decode : Json.Decoder Params := fun doc =>
  match h : doc.value? with
  | some v =>
    match ofValue? v (Document.ordered_of_value? h) with
    | some p => .ok p
    | none => .error .invalid
  | none => .error .invalid

/-- Parameters as a value. -/
def value (p : Params) : Value :=
  .obj p.entries

/-- Parameters as written. -/
def document (p : Params) : Document :=
  .ofValue p.value

end Params

end Compositing
