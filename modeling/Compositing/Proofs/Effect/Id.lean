/-
Compositing.Proofs.Effect.Id — identifiers of effects as texts.

The text of an identifier has no white space and no other slash than the
one that divides it. So it reads as this identifier, and so does just any
text that shows it with white space around (`ofText_eq_ok_iff`).
-/
import Compositing.Effect.Decode
import Compositing.Proofs.Program.Tokens

namespace Compositing

open Json (Document)

namespace Text

/-- A text without white space is not trimmed. -/
theorem trim_eq_self {text : List Char}
    (h : ∀ c ∈ text, isBlank c = false) : trim text = text := by
  have kept : ∀ {text : List Char}, (∀ c ∈ text, isBlank c = false) →
      text.dropWhile isBlank = text := by
    rintro (_ | ⟨c, rest⟩) h
    · rfl
    · rw [List.dropWhile_cons_of_neg]
      simp [h c List.mem_cons_self]
  rw [trim, kept h, kept fun c mem => h c (List.mem_reverse.mp mem),
    List.reverse_reverse]

end Text

/-- The characters of identifiers lie between `0` and `z`. -/
theorem toNat_of_isIdentRest {c : Char} (h : isIdentRest c = true) :
    48 ≤ c.toNat ∧ c.toNat ≤ 122 := by
  delta isIdentRest Char.isAlphanum Char.isAlpha Char.isUpper Char.isLower
    Char.isDigit at h
  simp only [Bool.or_eq_true, Bool.and_eq_true, decide_eq_true_eq, ge_iff_le,
    UInt32.le_iff_toNat_le, Char.toNat_val] at h
  rcases h with ((h | h) | h) | rfl
  · exact ⟨Nat.le_trans (by decide) h.1, Nat.le_trans h.2 (by decide)⟩
  · exact ⟨Nat.le_trans (by decide) h.1, Nat.le_trans h.2 (by decide)⟩
  · exact ⟨h.1, Nat.le_trans h.2 (by decide)⟩
  · decide

theorem isBlank_of_isIdentRest {c : Char} (h : isIdentRest c = true) :
    Text.isBlank c = false := by
  have code := toNat_of_isIdentRest h
  simp only [Text.isBlank, Text.blankRanges, List.any_cons, List.any_nil,
    Bool.or_eq_false_iff, decide_eq_false_iff_not, and_true]
  omega

namespace EffectId

theorem toList_text (id : EffectId) :
    id.text.toList = id.space.toList ++ '/' :: id.name.toList := by
  simp [text, String.toList_append]

theorem trim_text (id : EffectId) :
    Text.trim id.text.toList = id.text.toList := by
  refine Text.trim_eq_self fun c mem => ?_
  rw [toList_text, List.mem_append, List.mem_cons] at mem
  rcases mem with mem | rfl | mem
  · exact isBlank_of_isIdentRest
      (ProgramText.isIdentRest_of_mem id.space_isIdent mem)
  · decide
  · exact isBlank_of_isIdentRest
      (ProgramText.isIdentRest_of_mem id.name_isIdent mem)

/-- A text is read as the identifier that is written in it, apart from white
space at its ends. -/
theorem ofText_eq_ok_iff {s : String} {id : EffectId} :
    ofText s = .ok id ↔ Text.trim s.toList = id.text.toList := by
  rw [toList_text]
  unfold ofText
  generalize Text.trim s.toList = t
  constructor
  · intro h
    simp only at h
    have halves := List.takeWhile_append_dropWhile
      (p := fun c => decide (c ≠ '/')) (l := t)
    split at h
    · cases h
    · rename_i c name eq
      have slash := List.head?_dropWhile_not (fun c => decide (c ≠ '/')) t
      rw [eq] at slash halves
      obtain rfl : c = '/' := by simpa using slash
      unfold ofParts at h
      split at h
      · cases h
        simp only [String.toList_ofList]
        exact halves.symm
      · cases h
  · rintro rfl
    have other : ∀ c ∈ id.space.toList, decide (c ≠ '/') = true := by
      intro c mem
      refine decide_eq_true ?_
      rintro rfl
      cases ProgramText.isIdentRest_of_mem id.space_isIdent mem
    simp only [List.dropWhile_append_of_pos other,
      List.takeWhile_append_of_pos other]
    have both := And.intro id.space_isIdent id.name_isIdent
    simp [ofParts, both]

/-- The text of an identifier reads as this identifier. -/
theorem decode_text (id : EffectId) : decode (.str id.text) = .ok id := by
  rw [decode, read, ofText_eq_ok_iff.mpr id.trim_text]

/-- What reads as an identifier is a string that shows it, with white space
at the ends. -/
theorem of_decode_eq_ok {doc : Document} {id : EffectId}
    (h : decode doc = .ok id) :
    ∃ text : String, doc = .str text ∧
      Text.trim text.toList = id.text.toList := by
  cases doc with
  | str text =>
    simp only [decode, read] at h
    split at h
    · rename_i found eq
      cases h
      exact ⟨text, rfl, ofText_eq_ok_iff.mp eq⟩
    · cases h
  | _ => cases h

end EffectId

end Compositing
