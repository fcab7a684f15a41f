/-
Compositing.Json.Document — JSON as it stands in a text.

A document keeps what a value forgets: the order of members, repeated
keys, and how far a text goes before it stops being JSON. Readers of
typed data walk a document in text order, so that of several faults the
first in the text is the one reported.

`value?` forgets the difference: members are put in key order and of
several with one key the last counts. What it returns is `Ordered`
(`ordered_of_value?`).
-/
import Compositing.Json.Value

namespace Compositing.Json

/-- A JSON text, as far as it goes. -/
inductive Document where
  | null
  | bool (b : Bool)
  | int (n : Int)
  | float (x : Float)
  | str (s : String)
  /-- An array; `closed` says that its end was reached. -/
  | arr (items : List Document) (closed : Bool)
  /-- An object; a key that is no Unicode text is `none`. -/
  | obj (members : List (Option String × Document)) (closed : Bool)
  /-- Well-formed, but without a value: a number that is too large, a
  string that is no Unicode text, or nesting beyond the limit. -/
  | unreadable
  /-- The text stops being JSON here. -/
  | broken
  deriving Inhabited

namespace Document

mutual

/-- The value of a document, unless some part has none. -/
def value? : Document → Option Value
  | .null => some .null
  | .bool b => some (.bool b)
  | .int n => some (.int n)
  | .float x => some (.float x)
  | .str s => some (.str s)
  | .arr items closed =>
    if closed then (values? items).map .arr else none
  | .obj members closed =>
    if closed then
      (memberValues? members).map fun ms => .obj (Assoc.ofList ms)
    else none
  | .unreadable => none
  | .broken => none

/-- The values of the items of an array. -/
def values? : List Document → Option (List Value)
  | [] => some []
  | item :: rest =>
    match value? item, values? rest with
    | some v, some vs => some (v :: vs)
    | _, _ => none

/-- The values of the members of an object, in text order. -/
def memberValues? :
    List (Option String × Document) → Option (List (String × Value))
  | [] => some []
  | (key, item) :: rest =>
    match key, value? item, memberValues? rest with
    | some k, some v, some vs => some ((k, v) :: vs)
    | _, _, _ => none

end

mutual

/-- The document that writes a value. -/
def ofValue : Value → Document
  | .null => .null
  | .bool b => .bool b
  | .int n => .int n
  | .float x => .float x
  | .str s => .str s
  | .arr items => .arr (ofItems items) true
  | .obj members => .obj (ofMembers members) true

/-- The documents that write the items of an array. -/
def ofItems : List Value → List Document
  | [] => []
  | item :: rest => ofValue item :: ofItems rest

/-- The members that write the members of an object. -/
def ofMembers :
    List (String × Value) → List (Option String × Document)
  | [] => []
  | (key, value) :: rest => (some key, ofValue value) :: ofMembers rest

end

/-- A finite number is written as one, any other as `null`. -/
def ofFloat (x : Float) : Document :=
  if x.isFinite then .float x else .null

/-- An array of documents. -/
def list (items : List Document) : Document :=
  .arr items true

/-- An object with the given members. -/
def record (members : List (String × Document)) : Document :=
  .obj (members.map fun (key, item) => (some key, item)) true

/-- The text reads on behind this document: what stands inside need not
have a value, but it is well-formed to its end. -/
def isComplete : Document → Bool
  | .arr _ closed => closed
  | .obj _ closed => closed
  | .broken => false
  | _ => true

/-! ## Values of documents are ordered -/

mutual

theorem ordered_of_value? :
    ∀ {doc : Document} {v : Value}, doc.value? = some v → v.Ordered
  | .null, _, h | .bool _, _, h | .int _, _, h | .float _, _, h
  | .str _, _, h => by
    simp only [value?, Option.some.injEq] at h
    subst h
    trivial
  | .arr items closed, _, h => by
    simp only [value?, Option.ite_none_right_eq_some,
      Option.map_eq_some_iff] at h
    obtain ⟨_, vs, hvs, rfl⟩ := h
    exact orderedItems_of_values? hvs
  | .obj members closed, _, h => by
    simp only [value?, Option.ite_none_right_eq_some,
      Option.map_eq_some_iff] at h
    obtain ⟨_, ms, hms, rfl⟩ := h
    refine ⟨Assoc.ofList_ascending ms, ?_⟩
    exact Value.orderedMembers_insertAll trivial (orderedMembers_of_values? hms)
  | .unreadable, _, h | .broken, _, h => by simp [value?] at h

theorem orderedItems_of_values? :
    ∀ {items : List Document} {vs : List Value},
      values? items = some vs → Value.OrderedItems vs
  | [], _, h => by
    simp only [values?, Option.some.injEq] at h
    subst h
    trivial
  | item :: rest, _, h => by
    unfold values? at h
    split at h
    · rename_i v vs hv hvs
      simp only [Option.some.injEq] at h
      subst h
      exact ⟨ordered_of_value? hv, orderedItems_of_values? hvs⟩
    · simp at h

theorem orderedMembers_of_values? :
    ∀ {members : List (Option String × Document)}
      {ms : List (String × Value)},
      memberValues? members = some ms → Value.OrderedMembers ms
  | [], _, h => by
    simp only [memberValues?, Option.some.injEq] at h
    subst h
    trivial
  | (key, item) :: rest, _, h => by
    unfold memberValues? at h
    split at h
    · rename_i k v vs hv hvs
      simp only [Option.some.injEq] at h
      subst h
      exact ⟨ordered_of_value? hv, orderedMembers_of_values? hvs⟩
    · simp at h

end

end Document

end Compositing.Json
