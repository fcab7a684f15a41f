/-
Compositing.Effect.Id — identifiers of effects.

An effect is named by a namespace and a name, written `namespace/name`.
Both are identifiers: an ASCII letter or underscore, then letters,
digits and underscores. That they are is part of the type, so every
effect of a layer or a program can be written as a call.

Identifiers are ordered by namespace, then by name.
-/
import Compositing.Text.Blank

namespace Compositing

/-- A character that may begin an identifier. -/
def isIdentStart (c : Char) : Bool :=
  c.isAlpha || c = '_'

/-- A character that may continue an identifier. -/
def isIdentRest (c : Char) : Bool :=
  c.isAlphanum || c = '_'

/-- The text is an identifier. -/
def isIdent : List Char → Bool
  | [] => false
  | c :: rest => isIdentStart c && rest.all isIdentRest

/-- The identifier of an effect. -/
structure EffectId where
  space : String
  name : String
  space_isIdent : isIdent space.toList = true
  name_isIdent : isIdent name.toList = true
  deriving DecidableEq

namespace EffectId

/-- Why a text is no effect identifier. -/
inductive Fault where
  /-- There is no slash between a namespace and a name. -/
  | unqualified (text : String)
  /-- The namespace or the name is no identifier. -/
  | notIdent (space name : String)
  deriving DecidableEq, Repr

/-- The identifier with the given namespace and name. -/
def ofParts (space name : String) : Except Fault EffectId :=
  if h : isIdent space.toList = true ∧ isIdent name.toList = true then
    .ok ⟨space, name, h.1, h.2⟩
  else .error (.notIdent space name)

/-- Read `namespace/name`; white space around it does not count. The
first slash divides. -/
def ofText (text : String) : Except Fault EffectId :=
  let trimmed := Text.trim text.toList
  match trimmed.dropWhile (· ≠ '/') with
  | [] => .error (.unqualified text)
  | _ :: name =>
    ofParts (String.ofList (trimmed.takeWhile (· ≠ '/')))
      (String.ofList name)

/-- The written form. -/
def text (id : EffectId) : String :=
  id.space ++ "/" ++ id.name

instance : Ord EffectId :=
  ⟨compareLex (compareOn space) (compareOn name)⟩

theorem compare_def (a b : EffectId) :
    compare a b = (compare a.space b.space).then (compare a.name b.name) :=
  rfl

instance : Std.TransOrd EffectId :=
  inferInstanceAs
    (Std.TransCmp (compareLex (compareOn space) (compareOn name)))

instance : Std.LawfulEqOrd EffectId where
  eq_of_compare {a b} h := by
    rw [compare_def, Ordering.then_eq_eq] at h
    have hs := Std.LawfulEqCmp.eq_of_compare h.1
    have hn := Std.LawfulEqCmp.eq_of_compare h.2
    cases a
    cases b
    simp only at hs hn
    subst hs hn
    rfl

/-! ## Built-in effects -/

/-- The namespace of the flat colour and of media sources. -/
def mediaSpace : String := "media"

/-- The namespace of compositing operators. -/
def mixerSpace : String := "mixer"

/-- A flat colour; the only effect whose alpha takes up the opacity of a
base layer. -/
def solid : EffectId :=
  ⟨mediaSpace, "solid", by decide, by decide⟩

/-- An image or a video from outside. -/
def media : EffectId :=
  ⟨mediaSpace, "media", by decide, by decide⟩

/-- The operator that composites a layer onto what lies beneath. -/
def blend : EffectId :=
  ⟨mixerSpace, "blend", by decide, by decide⟩

/-- The generator of effect layers that name no effect. -/
def noise : EffectId :=
  ⟨"synth", "noise", by decide, by decide⟩

end EffectId

end Compositing
