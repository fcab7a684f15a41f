/-
Compositing.Reorder.Candidate — the order that a drop asks for.

A layer is taken out of the order and put back next to a target. The
base keeps its place: it cannot be moved, and nothing goes below it.
-/
import Compositing.Layer.Id

namespace Compositing

/-- The side of the target on which a layer is dropped. -/
inductive DropSide where
  | above
  | below
  deriving DecidableEq, Repr

namespace DropSide

/-- The word for a side. -/
def word : DropSide → String
  | .above => "above"
  | .below => "below"

/-- The side of a word. -/
def ofWord? (word : String) : Option DropSide :=
  [above, below].find? fun side => side.word = word

end DropSide

/-- An order with `source` moved next to `target`. There is none for an
unknown layer, for the base, and for a move that changes nothing. -/
def reorderCandidate (order : List LayerId) (source target : LayerId)
    (side : DropSide) : Option (List LayerId) :=
  if source = target ∨ order.head? = some source ∨ source ∉ order then none
  else
    let others := order.erase source
    match others.findIdx? (· = target) with
    | none => none
    | some place =>
      let index :=
        match side with
        | .above => place + 1
        | .below => max place 1
      let moved := others.insertIdx index source
      if moved = order then none else some moved

end Compositing
