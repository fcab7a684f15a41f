/-
Compositing.Layer.Id — identities of layers and child effects.

Layers and child effects draw from one space of identities, so that
either can be looked up in a step map. An `IdSource` hands out each
identity once; `observe` moves it past identities from elsewhere.
-/
namespace Compositing

/-- Identities are below this bound. -/
def LayerId.bound : Nat := 0x10000000000000000

/-- The identity of a layer or a child effect. -/
structure LayerId where
  val : Nat
  val_lt : val < LayerId.bound
  deriving DecidableEq, Repr

namespace LayerId

/-- The identity with a number. There is none at or past the bound, so
the numbers start over there. -/
def ofNat (n : Nat) : LayerId :=
  ⟨n % bound, Nat.mod_lt n (by decide)⟩

instance : Inhabited LayerId := ⟨ofNat 0⟩

instance : Ord LayerId := ⟨compareOn val⟩

instance : Std.TransOrd LayerId :=
  inferInstanceAs (Std.TransCmp (compareOn val))

instance : Std.LawfulEqOrd LayerId where
  eq_of_compare {a b} h := by
    have same : compare a.val b.val = .eq := h
    have := Std.LawfulEqCmp.eq_of_compare same
    cases a
    cases b
    simp only at this
    subst this
    rfl

/-- The form in which messages name it. -/
def text (id : LayerId) : String :=
  "#" ++ toString id.val

end LayerId

/-- The next identity to hand out. -/
structure IdSource where
  next : Nat
  deriving DecidableEq, Repr, Inhabited

namespace IdSource

/-- Nothing has been handed out. -/
def fresh : IdSource := { next := 0 }

/-- Hand out an identity. -/
def mint (ids : IdSource) : LayerId × IdSource :=
  (.ofNat ids.next, { next := ids.next + 1 })

/-- Move past an identity from elsewhere. There is nothing past the
largest one, so the source stays there. -/
def observe (ids : IdSource) (seen : LayerId) : IdSource :=
  { next := max ids.next (min (seen.val + 1) (LayerId.bound - 1)) }

/-- Move past several identities. -/
def observeAll (ids : IdSource) (seen : List LayerId) : IdSource :=
  seen.foldl observe ids

/-- Hand out as many identities as there are items, in their order. -/
def mintEach {α β : Type} (f : LayerId → α → β) :
    List α → IdSource → List β × IdSource
  | [], ids => ([], ids)
  | a :: rest, ids =>
    let (id, ids) := ids.mint
    let (bs, ids) := mintEach f rest ids
    (f id a :: bs, ids)

end IdSource

end Compositing
