/-
Compositing.Proofs.Program.Yields — the calls that a piece of text adds.

`Yields piece effects` says that a piece of text holds exactly these
calls, whatever text follows it. Pieces that yield something may be put
one behind another (`Yields.append`). Some texts do so only together
with the character that ends them: `Silent text` says that a text with
any closing character behind it holds no call. A text that ends outside
quotes and holds no call itself is silent (`Harmless.silent`). Words,
numbers and names without quotes and brackets are (`Silent.of_plain`).
-/
import Compositing.Program.Script
import Compositing.Proofs.Program.Chains

namespace Compositing.ProgramText

/-! ## Calls in tokens -/

/-- A call begins with a word, a dot, a word and an opening bracket. -/
theorem callAt?_eq_none {before : Before} {ts : List Token}
    (h : ∀ space name later,
      ts ≠ .word space :: .dot :: .word name :: .openBracket :: later) :
    callAt? before ts = none := by
  unfold callAt?
  split
  · rfl
  · exact absurd rfl (h _ _ _)
  · rfl

/-- Only a word and a dot before a token matter. -/
theorem callAt?_anything {before : Before} (h : before ≠ .wordDot)
    (ts : List Token) : callAt? before ts = callAt? .anything ts := by
  refine Option.ext fun effect => ?_
  rw [callAt?_eq_some, callAt?_eq_some]
  exact and_congr_left fun _ => ⟨fun _ => Before.noConfusion, fun _ => h⟩

/-- A word that does not stand behind a word and a dot is read as if
nothing stood before it. -/
theorem callsFrom_word {before : Before} (h : before ≠ .wordDot)
    (word : List Char) (later : List Token) :
    callsFrom before (.word word :: later) =
      callsFrom .anything (.word word :: later) := by
  rw [callsFrom, callsFrom, callAt?_anything h]
  rfl

/-- A call does not reach over a token that is no part of one. -/
theorem callAt?_append_other (before : Before) (ts rest : List Token) :
    callAt? before (ts ++ .other :: rest) = callAt? before ts := by
  refine Option.ext fun effect => ?_
  rw [callAt?_eq_some, callAt?_eq_some]
  refine and_congr_right fun _ => ⟨?_, ?_⟩
  · rintro ⟨later, eq⟩
    rcases List.append_eq_append_iff.mp eq with
      ⟨middle, call, behind⟩ | ⟨middle, before, behind⟩
    · -- The token would stand within the call or be its bracket.
      cases middle with
      | nil => cases behind
      | cons t middle =>
        cases behind
        have mem : Token.other ∈
            dotted [effect.space.toList, effect.name.toList] :=
          call ▸ List.mem_append_right _ List.mem_cons_self
        simp [dotted] at mem
    · cases middle with
      | nil => cases behind
      | cons t middle =>
        cases behind
        exact ⟨middle, before⟩
  · rintro ⟨later, rfl⟩
    exact ⟨later ++ .other :: rest, by simp⟩

/-- A token that is no part of a call divides those before it from those
behind it. -/
theorem callsFrom_append_other (before : Before) (ts rest : List Token) :
    callsFrom before (ts ++ .other :: rest) =
      callsFrom before ts ++ callsFrom .anything rest := by
  induction ts generalizing before with
  | nil => cases before <;> rfl
  | cons t ts ih =>
    rw [List.cons_append, callsFrom, ih, callsFrom, ← List.cons_append,
      callAt?_append_other, List.append_assoc]

/-- Tokens without brackets hold no call. -/
theorem callsFrom_eq_nil {before : Before} {ts : List Token}
    (h : .openBracket ∉ ts) : callsFrom before ts = [] := by
  induction ts generalizing before with
  | nil => rfl
  | cons t ts ih =>
    have no_call : callAt? before (t :: ts) = none := by
      refine callAt?_eq_none fun space name later eq => ?_
      rw [eq] at h
      exact h (by simp)
    rw [callsFrom, no_call, ih fun mem => h (List.mem_cons_of_mem _ mem)]
    rfl

/-- Tokens without dots and brackets hold no call, and a word behind them
is read as if nothing stood before it. -/
theorem callsFrom_unsigned {before : Before} (hb : before ≠ .wordDot)
    {ts : List Token} (h : ∀ t ∈ ts, t.sign? = none) (word : List Char)
    (later : List Token) :
    callsFrom before (ts ++ .word word :: later) =
      callsFrom .anything (.word word :: later) := by
  induction ts generalizing before with
  | nil => exact callsFrom_word hb word later
  | cons t ts ih =>
    rw [List.forall_mem_cons] at h
    have no_call :
        callAt? before (t :: (ts ++ .word word :: later)) = none := by
      refine callAt?_eq_none fun space name later' eq => ?_
      cases ts with
      | nil => cases eq
      | cons t' ts =>
        rw [List.cons_append, List.cons.injEq, List.cons.injEq] at eq
        rw [eq.2.1, List.forall_mem_cons] at h
        cases h.2.1
    have next : before.next t ≠ .wordDot := by
      cases t with
      | word _ => exact Before.noConfusion
      | other => cases before <;> exact Before.noConfusion
      | dot => cases h.1
      | openBracket => cases h.1
    rw [List.cons_append, callsFrom, no_call, ih next h.2]
    rfl

/-! ## Pieces of text -/

/-- The calls of a text that nothing stands before. -/
def scan (chars : List Char) : List EffectId :=
  callsFrom .anything (tokens chars)

/-- The piece of text holds exactly these calls, whatever follows it. -/
def Yields (piece : List Char) (effects : List EffectId) : Prop :=
  ∀ rest, scan (piece ++ rest) = effects ++ scan rest

namespace Yields

theorem nil : Yields [] [] := fun _ => rfl

theorem append {a b : List Char} {ea eb : List EffectId}
    (ha : Yields a ea) (hb : Yields b eb) :
    Yields (a ++ b) (ea ++ eb) := by
  intro rest
  rw [List.append_assoc, ha, hb, List.append_assoc]

/-- A piece that holds no call in front of another one. -/
theorem silent_append {a b : List Char} {eb : List EffectId}
    (ha : Yields a []) (hb : Yields b eb) : Yields (a ++ b) eb :=
  ha.append hb

/-- Pieces one behind another hold their calls one behind another. -/
theorem flatMap {α : Type} {piece : α → List Char}
    {effects : α → List EffectId} {items : List α}
    (h : ∀ x ∈ items, Yields (piece x) (effects x)) :
    Yields (items.flatMap piece) (items.flatMap effects) := by
  induction items with
  | nil => exact nil
  | cons x items ih =>
    rw [List.forall_mem_cons] at h
    exact h.1.append (ih h.2)

/-- White space, and a dot that no word stands before, hold no call. -/
theorem of_first {c : Char}
    (h : first c = ([], .between) ∨ first c = ([.dot], .between)) :
    Yields [c] [] := by
  intro rest
  unfold scan tokens
  rw [List.singleton_append, tokensFrom, step]
  rcases h with h | h
  · rw [h]
    rfl
  · rw [h]
    rfl

theorem blank : Yields [' '] [] := of_first (.inl (by decide))

theorem newline : Yields ['\n'] [] := of_first (.inl (by decide))

theorem dot : Yields ['.'] [] := of_first (.inr (by decide))

/-- The name of a function and its bracket are no qualified call. -/
theorem function {word : List Char} (h : isIdent word = true) :
    Yields (word ++ ['(']) [] := by
  intro rest
  unfold scan tokens
  rw [List.append_assoc, List.singleton_append,
    tokensFrom_ident h (by decide) (by decide)]
  rfl

/-- The qualified name of an effect and its bracket are a call of it. -/
theorem head (effect : EffectId) :
    Yields (Program.headText effect) [effect] := by
  intro rest
  have parts : EffectId.ofParts (String.ofList effect.space.toList)
      (String.ofList effect.name.toList) = .ok effect := by
    simp only [String.ofList_toList]
    exact dif_pos ⟨effect.space_isIdent, effect.name_isIdent⟩
  have dot : first '.' = ([.dot], .between) := by decide
  have bracket : first '(' = ([.openBracket], .between) := by decide
  unfold scan tokens Program.headText
  rw [List.append_assoc, List.cons_append, List.append_assoc,
    List.singleton_append,
    tokensFrom_ident effect.space_isIdent (by decide) (by decide), dot,
    tokensFrom_ident effect.name_isIdent (by decide) (by decide), bracket]
  simp only [List.cons_append, List.nil_append, callsFrom, callAt?, parts]
  rfl

end Yields

/-! ## Text that begins with a word -/

/-- The text begins as an identifier does. -/
def BeginsWord (text : List Char) : Prop :=
  ∃ c rest, text = c :: rest ∧ isIdentStart c = true

theorem BeginsWord.append {a : List Char} (h : BeginsWord a)
    (b : List Char) : BeginsWord (a ++ b) := by
  obtain ⟨c, rest, rfl, hc⟩ := h
  exact ⟨c, rest ++ b, rfl, hc⟩

theorem BeginsWord.of_isIdent {word : List Char}
    (h : isIdent word = true) : BeginsWord word := by
  cases word with
  | nil => cases h
  | cons c rest =>
    rw [isIdent, Bool.and_eq_true] at h
    exact ⟨c, rest, rfl, h.1⟩

/-- A line without quotes, opening brackets and dots holds no call, and
it does not hide the calls of the next line. -/
theorem scan_line {line : List Char} (hq : '"' ∉ line) (hb : '(' ∉ line)
    (hd : '.' ∉ line) {rest : List Char} (hw : BeginsWord rest) :
    scan (line ++ '\n' :: rest) = scan rest := by
  obtain ⟨c, later, rfl, hc⟩ := hw
  obtain ⟨word, ts, eq⟩ := tokensFrom_isIdentStart hc later
  have isOpen := @read_isOpen .between line rfl hq
  have unsigned : ∀ t ∈ (read .between line).1 ++
      finish (read .between line).2, t.sign? = none := by
    intro t ht
    rcases List.mem_append.mp ht with ht | ht
    · cases hs : t with
      | word _ => rfl
      | other => rfl
      | dot => exact absurd (sign_mem_of_mem_read (hs ▸ ht) rfl) hd
      | openBracket => exact absurd (sign_mem_of_mem_read (hs ▸ ht) rfl) hb
    · exact sign_of_mem_finish ht
  have newline : first '\n' = ([], .between) := by decide
  unfold scan tokens
  rw [tokensFrom_append, tokensFrom_break (by decide) isOpen, newline, eq,
    List.append_nil, ← List.append_assoc,
    callsFrom_unsigned (by decide) unsigned]

/-! ## Texts that a character closes -/

/-- The character is a token of its own, neither a dot nor an opening
bracket. -/
def Closes (c : Char) : Prop :=
  IsBreak c ∧ (first c).1 = [.other]

instance : DecidablePred Closes := fun _ => instDecidableAnd

theorem closes_comma : Closes ',' := by decide

/-- The text has no quotes and no opening bracket. -/
def Plain (text : List Char) : Prop :=
  '"' ∉ text ∧ '(' ∉ text

instance : DecidablePred Plain := fun _ => instDecidableAnd

/-- The text, closed by whatever closes it, holds no call. -/
def Silent (text : List Char) : Prop :=
  ∀ c, Closes c → Yields (text ++ [c]) []

theorem Plain.append {a b : List Char} (ha : Plain a) (hb : Plain b) :
    Plain (a ++ b) := by
  simp only [Plain, List.mem_append, not_or]
  exact ⟨⟨ha.1, hb.1⟩, ⟨ha.2, hb.2⟩⟩

theorem Plain.cons {c : Char} {b : List Char} (hq : c ≠ '"')
    (hb : c ≠ '(') (h : Plain b) : Plain (c :: b) := by
  simp only [Plain, List.mem_cons, not_or]
  exact ⟨⟨Ne.symm hq, h.1⟩, ⟨Ne.symm hb, h.2⟩⟩

/-- The text ends outside quotes and holds no call. -/
def Harmless (text : List Char) : Prop :=
  (read .between text).2.isOpen = true ∧ scan text = []

instance : DecidablePred Harmless := fun _ => instDecidableAnd

/-- What closes a text that ends outside quotes divides it from what
follows. -/
theorem scan_closed {text : List Char}
    (ho : (read .between text).2.isOpen = true) {c : Char} (hc : Closes c)
    (rest : List Char) :
    scan (text ++ c :: rest) = scan text ++ scan rest := by
  unfold scan
  rw [tokens_eq text, tokens, tokensFrom_append,
    tokensFrom_break hc.1 ho, hc.2, List.append_assoc, ← List.append_assoc,
    List.singleton_append, callsFrom_append_other]
  rfl

theorem Harmless.silent {text : List Char} (h : Harmless text) :
    Silent text := by
  intro c hc rest
  rw [List.append_assoc, List.singleton_append, scan_closed h.1 hc, h.2]

theorem Plain.harmless {text : List Char} (h : Plain text) :
    Harmless text := by
  refine ⟨read_isOpen rfl h.1, callsFrom_eq_nil fun mem => ?_⟩
  rw [tokens_eq] at mem
  rcases List.mem_append.mp mem with mem | mem
  · exact h.2 (sign_mem_of_mem_read mem rfl)
  · cases sign_of_mem_finish mem

namespace Silent

/-- A text without quotes and opening brackets holds no call. -/
theorem of_plain {text : List Char} (h : Plain text) : Silent text :=
  h.harmless.silent

theorem nil : Silent [] := of_plain (by decide)

theorem append {a b : List Char} (ha : Yields a []) (hb : Silent b) :
    Silent (a ++ b) := by
  intro c hc
  rw [List.append_assoc]
  exact ha.silent_append (hb c hc)

/-- Silent texts between separators that close each of them. -/
theorem joinWith {c : Char} {blank : List Char} (hc : Closes c)
    (hb : Yields blank []) {texts : List (List Char)}
    (h : ∀ text ∈ texts, Silent text) :
    Silent (Json.joinWith (c :: blank) texts) := by
  induction texts with
  | nil => exact nil
  | cons text texts ih =>
    rw [List.forall_mem_cons] at h
    cases texts with
    | nil => exact h.1
    | cons next texts =>
      have closed := (h.1 c hc).silent_append hb
      rw [List.append_assoc, List.singleton_append] at closed
      exact append closed (ih h.2)

end Silent

end Compositing.ProgramText
