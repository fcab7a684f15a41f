/-
Compositing.Proofs.Program.Tokens — cutting text into tokens, piece by
piece.

`read` is what one piece of text does to a scan: the tokens that end in
it and the mode behind it. Pieces compose (`tokensFrom_append`), so the
text of a program can be followed in the pieces it is written in:

* outside quotes a text without quotes never gets into any (`read_isOpen`),
  and its dots and brackets are the only ones that become tokens
  (`sign_mem_of_mem_read`);
* an escaped string stays in its quotes (`read_escaped`);
* an identifier is one word (`read_ident`);
* a breaking character ends whatever stands before it (`tokensFrom_break`).
-/
import Compositing.Program.Calls
import Compositing.Program.Literal
import Mathlib.Tactic.SplitIfs

namespace Compositing.ProgramText

/-! ## Reading a piece of text -/

/-- The tokens that end in a piece of text, and the mode behind it. -/
def read : Mode → List Char → List Token × Mode
  | mode, [] => ([], mode)
  | mode, c :: rest =>
    ((step mode c).1 ++ (read (step mode c).2 rest).1,
      (read (step mode c).2 rest).2)

theorem tokensFrom_append (mode : Mode) (piece rest : List Char) :
    tokensFrom mode (piece ++ rest) =
      (read mode piece).1 ++ tokensFrom (read mode piece).2 rest := by
  induction piece generalizing mode with
  | nil => rfl
  | cons c piece ih =>
    rw [List.cons_append, tokensFrom, ih]
    simp only [read, List.append_assoc]

/-- The tokens of a text are those that end in it and that its end
ends. -/
theorem tokens_eq (chars : List Char) :
    tokens chars =
      (read .between chars).1 ++ finish (read .between chars).2 := by
  have whole := tokensFrom_append .between chars []
  rwa [List.append_nil] at whole

/-! ## Outside quotes -/

/-- What is read next is not in quotes. -/
def Mode.isOpen : Mode → Bool
  | .between | .word _ | .number => true
  | .quoted | .escaped => false

/-- The character that makes a token a dot or an opening bracket. -/
def Token.sign? : Token → Option Char
  | .dot => some '.'
  | .openBracket => some '('
  | .word _ | .other => none

theorem first_isOpen {c : Char} (h : c ≠ '"') :
    (first c).2.isOpen = true := by
  unfold first
  split_ifs <;> rfl

theorem step_isOpen {mode : Mode} {c : Char} (ho : mode.isOpen = true)
    (hc : c ≠ '"') : (step mode c).2.isOpen = true := by
  cases mode with
  | between => exact first_isOpen hc
  | word back =>
    simp only [step]
    split
    · rfl
    · exact first_isOpen hc
  | number =>
    simp only [step]
    split
    · rfl
    · exact first_isOpen hc
  | quoted => cases ho
  | escaped => cases ho

/-- A text without quotes does not get into any. -/
theorem read_isOpen {mode : Mode} {piece : List Char}
    (ho : mode.isOpen = true) (hq : '"' ∉ piece) :
    (read mode piece).2.isOpen = true := by
  induction piece generalizing mode with
  | nil => exact ho
  | cons c piece ih =>
    rw [List.mem_cons, not_or] at hq
    exact ih (step_isOpen ho (Ne.symm hq.1)) hq.2

theorem sign_of_mem_first {c s : Char} {t : Token} (ht : t ∈ (first c).1)
    (hs : t.sign? = some s) : c = s := by
  unfold first at ht
  split_ifs at ht with h1 h2 h3 h4 h5 h6
  · cases ht
  · cases ht
  · cases ht
  · rw [List.mem_singleton.mp ht] at hs
    exact h4.trans (Option.some.inj hs)
  · rw [List.mem_singleton.mp ht] at hs
    exact h5.trans (Option.some.inj hs)
  · cases ht
  · rw [List.eq_of_mem_replicate ht] at hs
    cases hs

theorem sign_of_mem_step {mode : Mode} {c s : Char} {t : Token}
    (ht : t ∈ (step mode c).1) (hs : t.sign? = some s) : c = s := by
  cases mode with
  | between => exact sign_of_mem_first ht hs
  | word back =>
    simp only [step] at ht
    split at ht
    · cases ht
    · rcases List.mem_cons.mp ht with rfl | ht
      · cases hs
      · exact sign_of_mem_first ht hs
  | number =>
    simp only [step] at ht
    split at ht
    · cases ht
    · rcases List.mem_cons.mp ht with rfl | ht
      · cases hs
      · exact sign_of_mem_first ht hs
  | quoted =>
    simp only [step] at ht
    split_ifs at ht
    · rw [List.mem_singleton.mp ht] at hs
      cases hs
    · cases ht
    · cases ht
  | escaped => cases ht

/-- Every dot and every opening bracket among the tokens stands in the
text. -/
theorem sign_mem_of_mem_read {mode : Mode} {piece : List Char} {s : Char}
    {t : Token} (ht : t ∈ (read mode piece).1) (hs : t.sign? = some s) :
    s ∈ piece := by
  induction piece generalizing mode with
  | nil => cases ht
  | cons c piece ih =>
    rcases List.mem_append.mp ht with h | h
    · rw [sign_of_mem_step h hs]
      exact List.mem_cons_self
    · exact List.mem_cons_of_mem _ (ih h)

theorem sign_of_mem_finish {mode : Mode} {t : Token}
    (ht : t ∈ finish mode) : t.sign? = none := by
  cases mode with
  | between => cases ht
  | word _ => rw [List.mem_singleton.mp ht]; rfl
  | number => rw [List.mem_singleton.mp ht]; rfl
  | quoted => rw [List.mem_singleton.mp ht]; rfl
  | escaped => rw [List.mem_singleton.mp ht]; rfl

/-! ## Ends of tokens -/

/-- The character is part of no token before it and of none behind it. -/
def IsBreak (c : Char) : Prop :=
  isIdentRest c = false ∧ isNumberRest c = false ∧
    (first c).2 = .between

instance : DecidablePred IsBreak := fun _ => instDecidableAnd

/-- Outside quotes such a character ends what stands before it. -/
theorem tokensFrom_break {mode : Mode} {c : Char} (hb : IsBreak c)
    (ho : mode.isOpen = true) (rest : List Char) :
    tokensFrom mode (c :: rest) =
      finish mode ++ (first c).1 ++ tokensFrom .between rest := by
  obtain ⟨hi, hn, hm⟩ := hb
  cases mode with
  | between => simp only [tokensFrom, step, finish, hm, List.nil_append]
  | word back => simp [tokensFrom, step, finish, hi, hm]
  | number => simp [tokensFrom, step, finish, hn, hm]
  | quoted => cases ho
  | escaped => cases ho

/-! ## Quotes -/

theorem hexDigit_cases (n : Nat) :
    Json.hexDigit n ≠ '"' ∧ Json.hexDigit n ≠ '\\' := by
  have h : ∀ d < 16, Nat.digitChar d ≠ '"' ∧ Nat.digitChar d ≠ '\\' := by
    decide
  exact h (n % 16) (Nat.mod_lt n (by decide))

/-- In quotes, a character that is neither a quote nor a backslash is
passed over. -/
theorem read_quoted_cons {c : Char} (hq : c ≠ '"') (hb : c ≠ '\\')
    (piece : List Char) :
    read .quoted (c :: piece) = read .quoted piece := by
  simp [read, step, hq, hb]

/-- In quotes, a backslash and what stands behind it are passed over. -/
theorem read_quoted_escape (c : Char) (piece : List Char) :
    read .quoted ('\\' :: c :: piece) = read .quoted piece := by
  simp [read, step]

theorem read_escapeChar (c : Char) (piece : List Char) :
    read .quoted (Json.escapeChar c ++ piece) = read .quoted piece := by
  unfold Json.escapeChar
  split_ifs with h1 h2 h3 h4 h5 h6 h7 h8
  · exact read_quoted_escape _ piece
  · exact read_quoted_escape _ piece
  · exact read_quoted_escape _ piece
  · exact read_quoted_escape _ piece
  · exact read_quoted_escape _ piece
  · exact read_quoted_escape _ piece
  · exact read_quoted_escape _ piece
  · have high := hexDigit_cases (c.toNat / 16)
    have low := hexDigit_cases c.toNat
    simp only [List.cons_append, List.nil_append]
    rw [read_quoted_escape, read_quoted_cons (by decide) (by decide),
      read_quoted_cons (by decide) (by decide),
      read_quoted_cons high.1 high.2, read_quoted_cons low.1 low.2]
  · exact read_quoted_cons h1 h2 piece

/-- An escaped string stays in its quotes. -/
theorem read_escaped (chars : List Char) :
    read .quoted (chars.flatMap Json.escapeChar) = ([], .quoted) := by
  induction chars with
  | nil => rfl
  | cons c chars ih => rw [List.flatMap_cons, read_escapeChar, ih]

/-- A string in quotes is one token. -/
theorem tokensFrom_quote (s : String) (rest : List Char) :
    tokensFrom .between (Json.quote s ++ rest) =
      .other :: tokensFrom .between rest := by
  have opening : step .between '"' = ([], .quoted) := by decide
  have closing : step .quoted '"' = ([.other], .between) := by decide
  rw [Json.quote, List.cons_append, tokensFrom, opening,
    List.append_assoc, tokensFrom_append, read_escaped,
    List.singleton_append, tokensFrom, closing]
  rfl

/-! ## Words -/

theorem read_word (back : List Char) {piece : List Char}
    (h : ∀ c ∈ piece, isIdentRest c = true) :
    read (.word back) piece = ([], .word (piece.reverse ++ back)) := by
  induction piece generalizing back with
  | nil => rfl
  | cons c piece ih =>
    rw [List.forall_mem_cons] at h
    simp [read, step, h.1, ih (c :: back) h.2]

theorem first_isIdentStart {c : Char} (h : isIdentStart c = true) :
    first c = ([], .word [c]) := by
  rw [first, if_pos h]

theorem isIdentRest_of_mem {word : List Char} (h : isIdent word = true)
    {c : Char} (hc : c ∈ word) : isIdentRest c = true := by
  cases word with
  | nil => cases hc
  | cons d rest =>
    rw [isIdent, Bool.and_eq_true, List.all_eq_true] at h
    rcases List.mem_cons.mp hc with rfl | hc
    · have start := h.1
      simp only [isIdentStart, isIdentRest, Char.isAlphanum,
        Bool.or_eq_true] at start ⊢
      exact start.imp .inl id
    · exact h.2 c hc

/-- An identifier is read as one word. -/
theorem read_ident {word : List Char} (h : isIdent word = true) :
    read .between word = ([], .word word.reverse) := by
  cases word with
  | nil => cases h
  | cons c rest =>
    rw [isIdent, Bool.and_eq_true, List.all_eq_true] at h
    simp [read, step, first_isIdentStart h.1, read_word [c] h.2]

/-- An identifier is a word where something else follows. -/
theorem tokensFrom_ident {word : List Char} {c : Char}
    (h : isIdent word = true) (hi : isIdentRest c = false)
    (hm : (first c).2 = .between) (rest : List Char) :
    tokensFrom .between (word ++ c :: rest) =
      .word word :: (first c).1 ++ tokensFrom .between rest := by
  rw [tokensFrom_append, read_ident h]
  simp [tokensFrom, step, hi, hm]

/-- A text that begins as an identifier does begins with a word. -/
theorem tokensFrom_isIdentStart {c : Char} (h : isIdentStart c = true)
    (rest : List Char) :
    ∃ word later,
      tokensFrom .between (c :: rest) = .word word :: later := by
  have word_first : ∀ back : List Char, ∃ word later,
      tokensFrom (.word back) rest = .word word :: later := by
    induction rest with
    | nil => exact fun back => ⟨back.reverse, [], rfl⟩
    | cons d rest ih =>
      intro back
      by_cases hd : isIdentRest d = true
      · obtain ⟨word, later, eq⟩ := ih (d :: back)
        exact ⟨word, later, by simp [tokensFrom, step, hd, eq]⟩
      · exact ⟨back.reverse, _, by simp [tokensFrom, step, hd]; rfl⟩
  obtain ⟨word, later, eq⟩ := word_first [c]
  exact ⟨word, later, by
    simp [tokensFrom, step, first_isIdentStart h, eq]⟩

end Compositing.ProgramText
