/-
Compositing.Proofs.Program.Literals — values in program text, token by
token.

A value in program text is read as the tokens that its shape gives
(`literalTokens`), and the scan goes on behind it as if the text began
there (`tokens_literal_append`). A string is one token whatever its
characters are, and so is the key of a member. The digits of a number are
one token; a sign is another, and an exponent, which only numbers inside
objects have, brings its own sign and digits. No token of a value is a dot
or an opening bracket, so a value holds no call (`Silent.literal`).

`ReadsAs text ts` says this of any piece of text. Of what follows the piece
only the first character matters: it has to break, or it would go on with a
number or a word.
-/
import Compositing.Proofs.Program.Yields
import Mathlib.Data.List.Forall2

namespace Compositing.ProgramText

open Json (Value)

/-! ## The tokens of a value -/

/-- The token of a sign, which only what is negative has. -/
def signTokens (negative : Bool) : List Token :=
  if negative then [.other] else []

/-- The tokens of a number in program text, where zero and what is not
finite have no sign. -/
def numberTokens (x : Float) : List Token :=
  signTokens (x.isFinite && x != 0.0 && Decimal.isNegative x) ++ [.other]

/-- Compact JSON writes the number without an exponent. -/
def isPositional (x : Float) : Bool :=
  let leading := ((Decimal.size x).shortest .toEven).leading
  decide (-5 ≤ leading ∧ leading ≤ 15)

/-- The tokens of a number in compact JSON. The letter of an exponent
belongs to the digits before it; its sign and digits are tokens of their
own. -/
def compactNumberTokens (x : Float) : List Token :=
  signTokens (Decimal.isNegative x) ++
    if isPositional x then [.other] else [.other, .other, .other]

mutual

/-- The tokens of a value. Those of a number are given, for it is written
in two ways; inside an object it is compact JSON. -/
def valueTokens (number : Float → List Token) : Value → List Token
  | .null => [.word "null".toList]
  | .bool b => [.word (if b then "true".toList else "false".toList)]
  | .int n => signTokens (n < 0) ++ [.other]
  | .float x => number x
  | .str _ => [.other]
  | .arr items =>
    .other :: ([.other].intercalate (itemTokens number items) ++ [.other])
  | .obj members =>
    .other :: ([.other].intercalate (memberTokens members) ++ [.other])

/-- The tokens of the items of an array. -/
def itemTokens (number : Float → List Token) :
    List Value → List (List Token)
  | [] => []
  | item :: rest => valueTokens number item :: itemTokens number rest

/-- The tokens of the members of an object: a key, a colon, a value. -/
def memberTokens : List (String × Value) → List (List Token)
  | [] => []
  | (_, value) :: rest =>
    (.other :: .other :: valueTokens compactNumberTokens value) ::
      memberTokens rest

end

/-- The tokens of a value in program text. -/
def literalTokens (v : Value) : List Token :=
  valueTokens numberTokens v

/-! ## Pieces of text -/

theorem Closes.tokens_cons {c : Char} (hc : Closes c) (rest : List Char) :
    tokens (c :: rest) = .other :: tokens rest := by
  rw [tokens, tokensFrom_break hc.1 rfl, hc.2]
  rfl

/-- In front of a breaking character the text is read as these tokens,
none of which is a dot or an opening bracket. -/
structure ReadsAs (text : List Char) (ts : List Token) : Prop where
  unsigned : ∀ t ∈ ts, t.sign? = none
  followed : ∀ {c : Char}, IsBreak c → ∀ rest,
    tokens (text ++ c :: rest) = ts ++ tokens (c :: rest)

namespace ReadsAs

variable {a b text : List Char} {ts us : List Token} {c : Char}

/-- A text that ends outside quotes is read as it is by itself. -/
theorem of_isOpen (ho : (read .between text).2.isOpen = true)
    (unsigned : ∀ t ∈ tokens text, t.sign? = none) :
    ReadsAs text (tokens text) where
  unsigned := unsigned
  followed hc rest := by
    have begun :=
      tokensFrom_break hc (rfl : Mode.between.isOpen = true) rest
    rw [tokens, tokensFrom_append, tokensFrom_break hc ho, tokens_eq text,
      tokens, begun]
    simp only [finish, List.nil_append, List.append_assoc]

theorem nil : ReadsAs [] [] where
  unsigned _ mem := nomatch mem
  followed _ _ := rfl

/-- A string in quotes is one token. -/
theorem quote (s : String) : ReadsAs (Json.quote s) [.other] where
  unsigned := by decide
  followed _ _ := tokensFrom_quote s _

/-- A closing character is a token between what it divides. -/
theorem closed (ha : ReadsAs a ts) (hc : Closes c) (hb : ReadsAs b us) :
    ReadsAs (a ++ c :: b) (ts ++ .other :: us) where
  unsigned := by
    rw [List.forall_mem_append, List.forall_mem_cons]
    exact ⟨ha.unsigned, rfl, hb.unsigned⟩
  followed hd rest := by
    rw [List.append_assoc, List.cons_append, ha.followed hc.1,
      hc.tokens_cons, hb.followed hd, List.append_assoc, List.cons_append]

/-- A closing character in front of a text is a token of its own. -/
theorem cons (hc : Closes c) (hb : ReadsAs b us) :
    ReadsAs (c :: b) (.other :: us) :=
  nil.closed hc hb

/-- A text between characters that close it. -/
theorem enclosed {opening closing : Char} (ho : Closes opening)
    (h : ReadsAs text ts) (hc : Closes closing) :
    ReadsAs (opening :: (text ++ [closing])) (.other :: (ts ++ [.other])) :=
  cons ho (h.closed hc nil)

/-- A blank in front of a text is no token. -/
theorem blank (h : ReadsAs b us) : ReadsAs (' ' :: b) us where
  unsigned := h.unsigned
  followed := h.followed

/-- Texts with commas between them, and behind these what is passed
over. -/
theorem joinWith {blanks : List Char}
    (skip : ∀ {b us}, ReadsAs b us → ReadsAs (blanks ++ b) us)
    {texts : List (List Char)} {tokenLists : List (List Token)}
    (h : List.Forall₂ ReadsAs texts tokenLists) :
    ReadsAs (Json.joinWith (',' :: blanks) texts)
      ([.other].intercalate tokenLists) := by
  induction h with
  | nil => exact nil
  | cons head tail ih =>
    cases tail with
    | nil =>
      rw [List.intercalate_singleton]
      exact head
    | cons _ _ =>
      have divided := head.closed closes_comma (skip ih)
      rw [List.intercalate_cons_cons, List.append_assoc,
        List.singleton_append, Json.joinWith, List.append_assoc,
        List.cons_append]
      · exact divided
      · exact List.cons_ne_nil _ _

/-- A text that is read in this way holds no call. -/
theorem silent (h : ReadsAs text ts) : Silent text := by
  intro c hc rest
  have no_bracket : .openBracket ∉ ts := fun mem =>
    nomatch h.unsigned _ mem
  unfold scan
  rw [List.append_assoc, List.singleton_append, h.followed hc.1,
    hc.tokens_cons, callsFrom_append_other, callsFrom_eq_nil no_bracket]

end ReadsAs

/-! ## Numerals -/

/-- The text is a digit, and behind it what goes on with a number. -/
def IsNumeral : List Char → Prop
  | [] => False
  | c :: rest => c.isDigit = true ∧ ∀ d ∈ rest, isNumberRest d = true

theorem isNumberRest_of_isDigit {c : Char} (h : c.isDigit = true) :
    isNumberRest c = true := by
  simp [isNumberRest, Char.isAlphanum, h]

theorem isIdentStart_of_isDigit {c : Char} (h : c.isDigit = true) :
    isIdentStart c = false := by
  have below : c.toNat ≤ '9'.toNat := (Char.isDigit_iff_toNat.mp h).2
  have no_underscore : c ≠ '_' := by
    rintro rfl
    exact absurd h (by decide)
  delta isIdentStart Char.isAlpha Char.isUpper Char.isLower
  simp only [Bool.or_eq_false_iff, Bool.and_eq_false_iff,
    decide_eq_false_iff_not, ge_iff_le, UInt32.le_iff_toNat_le,
    Char.toNat_val]
  refine ⟨⟨fun upper => ?_, .inl fun lower => ?_⟩, no_underscore⟩
  · exact absurd (Nat.le_trans upper.1 below) (by decide)
  · exact absurd (Nat.le_trans lower below) (by decide)

theorem first_isDigit {c : Char} (h : c.isDigit = true) :
    first c = ([], .number) := by
  rw [first, isIdentStart_of_isDigit h, h]
  rfl

theorem read_number {piece : List Char}
    (h : ∀ c ∈ piece, isNumberRest c = true) :
    read .number piece = ([], .number) := by
  induction piece with
  | nil => rfl
  | cons c piece ih =>
    rw [List.forall_mem_cons] at h
    simp [read, step, h.1, ih h.2]

namespace IsNumeral

variable {a b text : List Char}

theorem isNumberRest_of_mem (h : IsNumeral text) {c : Char}
    (hc : c ∈ text) : isNumberRest c = true := by
  cases text with
  | nil => cases h
  | cons d rest =>
    rcases List.mem_cons.mp hc with rfl | hc
    · exact isNumberRest_of_isDigit h.1
    · exact h.2 c hc

theorem append (ha : IsNumeral a)
    (hb : ∀ c ∈ b, isNumberRest c = true) : IsNumeral (a ++ b) := by
  cases a with
  | nil => cases ha
  | cons c rest => exact ⟨ha.1, List.forall_mem_append.mpr ⟨ha.2, hb⟩⟩

theorem take (h : IsNumeral text) {n : Nat} (hn : 0 < n) :
    IsNumeral (text.take n) := by
  cases text with
  | nil => cases h
  | cons c rest =>
    cases n with
    | zero => cases hn
    | succ n => exact ⟨h.1, fun d hd => h.2 d (List.mem_of_mem_take hd)⟩

theorem of_digits (hne : text ≠ []) (h : ∀ c ∈ text, c.isDigit = true) :
    IsNumeral text := by
  cases text with
  | nil => exact absurd rfl hne
  | cons c rest =>
    rw [List.forall_mem_cons] at h
    exact ⟨h.1, fun d hd => isNumberRest_of_isDigit (h.2 d hd)⟩

/-- A numeral is one token. -/
theorem readsAs (h : IsNumeral text) : ReadsAs text [.other] := by
  cases text with
  | nil => cases h
  | cons c rest =>
    have number : read .between (c :: rest) = ([], .number) := by
      simp [read, step, first_isDigit h.1, read_number h.2]
    have alone : tokens (c :: rest) = [.other] := by
      rw [tokens_eq, number]
      rfl
    rw [← alone]
    refine .of_isOpen (by rw [number]; rfl) ?_
    rw [alone]
    decide

theorem plain (h : IsNumeral text) : Plain text :=
  ⟨fun hq => absurd (h.isNumberRest_of_mem hq) (by decide),
    fun hb => absurd (h.isNumberRest_of_mem hb) (by decide)⟩

theorem natural (n : Nat) : IsNumeral (Decimal.natural n) :=
  of_digits Nat.toDigits_ne_nil fun _ =>
    Nat.isDigit_of_mem_toDigits (by decide) (by decide)

theorem positional (d : Decimal.Scaled) : IsNumeral d.positional := by
  have digits := natural d.digits
  have zeros (n : Nat) : ∀ c ∈ List.replicate n '0',
      isNumberRest c = true := by
    intro c hc
    rw [List.eq_of_mem_replicate hc]
    decide
  unfold Decimal.Scaled.positional
  dsimp only
  split_ifs with whole inside
  · exact digits.append (zeros _)
  · refine (digits.take (Nat.sub_pos_of_lt inside)).append ?_
    exact List.forall_mem_cons.mpr ⟨by decide,
      fun c hc => digits.isNumberRest_of_mem (List.mem_of_mem_drop hc)⟩
  · refine ⟨by decide, List.forall_mem_cons.mpr ⟨by decide, ?_⟩⟩
    exact List.forall_mem_append.mpr
      ⟨zeros _, fun c hc => digits.isNumberRest_of_mem hc⟩

/-- Digits before an exponent are one token with its letter. -/
theorem withExponent (h : IsNumeral text) {sign : Char} (hs : Closes sign)
    (n : Nat) :
    ReadsAs (text ++ 'e' :: sign :: Decimal.natural n)
      [.other, .other, .other] := by
  have lettered : IsNumeral (text ++ ['e']) :=
    h.append (List.forall_mem_singleton.mpr (by decide))
  rw [List.append_cons]
  exact lettered.readsAs.closed hs (natural n).readsAs

end IsNumeral

namespace ReadsAs

/-! ## Numbers -/

theorem sign (negative : Bool) {text : List Char} {ts : List Token}
    (h : ReadsAs text ts) :
    ReadsAs (if negative then '-' :: text else text)
      (signTokens negative ++ ts) := by
  cases negative with
  | false => exact h
  | true => exact cons (by decide) h

theorem integer (n : Int) :
    ReadsAs (Decimal.integer n) (signTokens (n < 0) ++ [.other]) := by
  have signed := sign (n < 0) (IsNumeral.natural n.natAbs).readsAs
  simp only [decide_eq_true_eq] at signed
  exact signed

/-- A number in program text. -/
theorem number (x : Float) :
    ReadsAs (Program.number x) (numberTokens x) := by
  have size := (IsNumeral.positional ((Decimal.size x).shortest .up)).readsAs
  unfold Program.number numberTokens
  split
  case isTrue h =>
    rw [h, Bool.true_and]
    exact sign _ size
  case isFalse h =>
    rw [Bool.not_eq_true] at h
    rw [h, Bool.false_and]
    exact (IsNumeral.natural 0).readsAs

theorem scientific (d : Decimal.Scaled) :
    ReadsAs d.scientific [.other, .other, .other] := by
  have digits := IsNumeral.natural d.digits
  unfold Decimal.Scaled.scientific
  refine IsNumeral.withExponent ?_ ?_ _
  · generalize Decimal.natural d.digits = text at digits
    match text, digits with
    | [_], h => exact h
    | _ :: _ :: _, h =>
      exact ⟨h.1, List.forall_mem_cons.mpr ⟨by decide, h.2⟩⟩
  · split <;> decide

/-- A number in compact JSON. -/
theorem floatText (x : Float) :
    ReadsAs (Json.floatText x) (compactNumberTokens x) := by
  unfold Json.floatText compactNumberTokens isPositional
  simp only [decide_eq_true_eq]
  refine sign _ ?_
  have places : ∀ c ∈ ['.', '0'], isNumberRest c = true :=
    List.forall_mem_cons.mpr
      ⟨by decide, List.forall_mem_singleton.mpr (by decide)⟩
  split_ifs
  · exact ((IsNumeral.positional _).append places).readsAs
  · exact (IsNumeral.positional _).readsAs
  · exact scientific _

/-! ## Values -/

mutual

/-- A value as compact JSON. -/
theorem compact : ∀ v : Value,
    ReadsAs v.compact (valueTokens compactNumberTokens v)
  | .null => of_isOpen (by decide) (by decide)
  | .bool true => of_isOpen (by decide) (by decide)
  | .bool false => of_isOpen (by decide) (by decide)
  | .int n => integer n
  | .float x => floatText x
  | .str s => quote s
  | .arr items =>
    enclosed (by decide) (joinWith id (compactItems items)) (by decide)
  | .obj members =>
    enclosed (by decide) (joinWith id (compactMembers members)) (by decide)

theorem compactItems : ∀ items : List Value,
    List.Forall₂ ReadsAs (Value.compactItems items)
      (itemTokens compactNumberTokens items)
  | [] => .nil
  | item :: rest => .cons (compact item) (compactItems rest)

theorem compactMembers : ∀ members : List (String × Value),
    List.Forall₂ ReadsAs (Value.compactMembers members)
      (memberTokens members)
  | [] => .nil
  | (key, value) :: rest =>
    .cons ((quote key).closed (by decide) (compact value))
      (compactMembers rest)

end

mutual

/-- A value in program text. -/
theorem literal : ∀ v : Value, ReadsAs (Program.literal v) (literalTokens v)
  | .null => compact .null
  | .bool b => compact (.bool b)
  | .int n => integer n
  | .float x => number x
  | .str s => quote s
  | .arr items =>
    enclosed (by decide) (joinWith blank (literals items)) (by decide)
  | .obj members => compact (.obj members)

theorem literals : ∀ items : List Value,
    List.Forall₂ ReadsAs (Program.literals items)
      (itemTokens numberTokens items)
  | [] => .nil
  | item :: rest => .cons (literal item) (literals rest)

end

end ReadsAs

/-- A value is read as its tokens, none of them a dot or an opening
bracket, wherever a comma or a closing bracket follows; what follows is
read as if the text began there. A string is one token whatever follows
it. -/
theorem tokens_literal_append (v : Value) {rest : List Char}
    (h : rest.head? = some ',' ∨ rest.head? = some ')') :
    tokens (Program.literal v ++ rest) =
        literalTokens v ++ tokens rest ∧
      (.dot ∉ literalTokens v ∧ .openBracket ∉ literalTokens v) ∧
      ∀ (s : String) (later : List Char),
        tokens (Program.literal (.str s) ++ later) =
          .other :: tokens later := by
  have value := ReadsAs.literal v
  refine ⟨?_, ⟨fun mem => ?_, fun mem => ?_⟩, tokensFrom_quote⟩
  · cases rest with
    | nil => simp at h
    | cons c rest =>
      have breaks : IsBreak c := by
        rcases h with h | h
        · cases h
          decide
        · cases h
          decide
      exact value.followed breaks rest
  · exact nomatch value.unsigned _ mem
  · exact nomatch value.unsigned _ mem

/-- A dot and a bracket in a string, a backslash at its end and a number
with an exponent have no part in what follows. -/
theorem tokens_literal_append_nested :
    let v : Value :=
      .arr [.str "a.b(\"\\", .obj [("\\é", .float (-1e-7))], .null]
    let rest := ").write(o0)".toList
    rest.head? = some ')' ∧
      tokens (Program.literal v ++ rest) =
        List.replicate 12 .other ++ [.word "null".toList, .other] ++
          tokens rest := by
  intro v rest
  have shape : literalTokens v =
      List.replicate 12 .other ++ [.word "null".toList, .other] := by
    decide +kernel
  have closed : rest.head? = some ')' := by decide
  exact ⟨closed, shape ▸ (tokens_literal_append v (.inr closed)).1⟩

/-! ## Texts without calls -/

/-- A number in program text is plain. -/
theorem Plain.number (x : Float) : Plain (Program.number x) := by
  have size := (IsNumeral.positional ((Decimal.size x).shortest .up)).plain
  unfold Program.number Decimal.plain Decimal.signed
  split_ifs
  · exact cons (by decide) (by decide) size
  · exact size
  · decide

theorem Plain.natural (n : Nat) : Plain (Decimal.natural n) :=
  (IsNumeral.natural n).plain

/-- A value in program text holds no call. -/
theorem Silent.literal (v : Value) : Silent (Program.literal v) :=
  (ReadsAs.literal v).silent

end Compositing.ProgramText
