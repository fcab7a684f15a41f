/-
Compositing.Json.Value — JSON values.

Integers and floating-point numbers stay distinct, and the members of an
object are listed by ascending key. `Value.Ordered` says so of every
object inside a value; it is what reading a text produces and what makes
one list of members stand for one object.
-/
import Compositing.Assoc

namespace Compositing.Json

/-- A JSON value. -/
inductive Value where
  | null
  | bool (b : Bool)
  | int (n : Int)
  | float (x : Float)
  | str (s : String)
  | arr (items : List Value)
  | obj (members : List (String × Value))
  deriving Inhabited

namespace Value

mutual

/-- Every object in the value lists its members by ascending key. -/
def Ordered : Value → Prop
  | .arr items => OrderedItems items
  | .obj members => Assoc.Ascending members ∧ OrderedMembers members
  | _ => True

/-- Every object in every item is ordered. -/
def OrderedItems : List Value → Prop
  | [] => True
  | item :: rest => Ordered item ∧ OrderedItems rest

/-- Every object in every member's value is ordered. -/
def OrderedMembers : List (String × Value) → Prop
  | [] => True
  | (_, value) :: rest => Ordered value ∧ OrderedMembers rest

end

theorem orderedItems_iff : ∀ {items : List Value},
    OrderedItems items ↔ ∀ item ∈ items, Ordered item
  | [] => by simp [OrderedItems]
  | item :: rest => by
    have ih := @orderedItems_iff rest
    simp [OrderedItems, ih]

theorem orderedMembers_iff : ∀ {members : List (String × Value)},
    OrderedMembers members ↔ ∀ e ∈ members, Ordered e.2
  | [] => by simp [OrderedMembers]
  | (key, value) :: rest => by
    have ih := @orderedMembers_iff rest
    simp [OrderedMembers, ih]

/-- Setting a member to an ordered value keeps the members ordered. -/
theorem orderedMembers_insert {key : String} {value : Value}
    {members : List (String × Value)} (hv : Ordered value)
    (hm : OrderedMembers members) :
    OrderedMembers (Assoc.insert key value members) := by
  rw [orderedMembers_iff] at hm ⊢
  intro e he
  rcases Assoc.mem_of_mem_insert he with h | h
  · exact h ▸ hv
  · exact hm e h

/-- Setting several members to ordered values keeps the members
ordered. -/
theorem orderedMembers_insertAll {patch : List (String × Value)} :
    ∀ {members : List (String × Value)}, OrderedMembers members →
      OrderedMembers patch →
      OrderedMembers (Assoc.insertAll members patch) := by
  induction patch with
  | nil => exact fun hm _ => hm
  | cons e rest ih =>
    intro members hm hp
    exact ih (orderedMembers_insert hp.1 hm) hp.2

/-- A floating-point number as a value. JSON has no text for an infinite
number or for one that is none, so these become `null`. -/
def ofFloat (x : Float) : Value :=
  if x.isFinite then .float x else .null

/-- An integer rounded to the nearest floating-point number. -/
def roundInt (n : Int) : Float :=
  if n < 0 then -(Float.ofScientific n.natAbs false 0)
  else Float.ofScientific n.natAbs false 0

/-- The number that a value is, as a floating-point number. -/
def number? : Value → Option Float
  | .int n => some (roundInt n)
  | .float x => some x
  | _ => none

theorem ordered_ofFloat (x : Float) : (ofFloat x).Ordered := by
  unfold ofFloat
  split <;> trivial

end Value

end Compositing.Json
