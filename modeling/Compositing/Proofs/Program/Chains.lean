/-
Compositing.Proofs.Program.Chains — which dotted chains of words a scan
takes for calls.

A chain is a run of words with dots between them and an opening bracket
behind it, from its first word on (`ChainAt`). `calls_of_chains` says for
every text which of its chains are calls: those of two words, each once
and in the order of the text, and nothing else. In a longer chain the last
two words stand behind a word and a dot, and the scan passes such a pair
over, so a longer chain is no call at all.

A scan is followed by the places at which it finds something
(`spotsFrom`); what stands before a place decides as much as what stands
behind it (`mem_spotsFrom`).
-/
import Compositing.Proofs.Program.Tokens
import Mathlib.Data.List.Induction

namespace Compositing.ProgramText

/-! ## The words of a text -/

/-- What has been read of a word is an identifier. -/
def Mode.Legible : Mode → Prop
  | .word back => isIdent back.reverse = true
  | .between | .number | .quoted | .escaped => True

/-- The words among some tokens are identifiers. -/
def Legible (ts : List Token) : Prop :=
  ∀ word, .word word ∈ ts → isIdent word = true

theorem legible_nil : Legible [] :=
  fun _ mem => absurd mem List.not_mem_nil

theorem legible_singleton {t : Token} (h : ∀ word, t ≠ .word word) :
    Legible [t] :=
  fun word mem => absurd (List.mem_singleton.mp mem).symm (h word)

theorem Legible.append {ts ts' : List Token} (h : Legible ts)
    (h' : Legible ts') : Legible (ts ++ ts') :=
  fun word mem => (List.mem_append.mp mem).elim (h word) (h' word)

theorem isIdent_concat {word : List Char} {c : Char}
    (h : isIdent word = true) (hc : isIdentRest c = true) :
    isIdent (word ++ [c]) = true := by
  cases word with
  | nil => cases h
  | cons d rest =>
    rw [isIdent, Bool.and_eq_true] at h
    rw [List.cons_append, isIdent, List.all_append, h.1, h.2, List.all_cons,
      hc]
    rfl

theorem legible_finish {mode : Mode} (hm : mode.Legible) :
    Legible (finish mode) := by
  cases mode with
  | between => exact legible_nil
  | word back =>
    intro word mem
    rw [Token.word.inj (List.mem_singleton.mp mem)]
    exact hm
  | number => exact legible_singleton (by simp)
  | quoted => exact legible_singleton (by simp)
  | escaped => exact legible_singleton (by simp)

theorem legible_first (c : Char) :
    Legible (first c).1 ∧ (first c).2.Legible := by
  unfold first
  split_ifs with start
  · exact ⟨legible_nil, show isIdent [c] = true by simp [isIdent, start]⟩
  · exact ⟨legible_nil, trivial⟩
  · exact ⟨legible_nil, trivial⟩
  · exact ⟨legible_singleton (by simp), trivial⟩
  · exact ⟨legible_singleton (by simp), trivial⟩
  · exact ⟨legible_nil, trivial⟩
  · refine ⟨fun word mem => ?_, trivial⟩
    cases List.eq_of_mem_replicate mem

/-- A character read on ends only words that are identifiers, and leaves
one behind. -/
theorem legible_step {mode : Mode} (hm : mode.Legible) (c : Char) :
    Legible (step mode c).1 ∧ (step mode c).2.Legible := by
  have first := legible_first c
  have ended := (legible_finish hm).append first.1
  cases mode with
  | between => exact first
  | word back =>
    simp only [step]
    split
    case isTrue hc =>
      refine ⟨legible_nil, ?_⟩
      show isIdent (c :: back).reverse = true
      rw [List.reverse_cons]
      exact isIdent_concat hm hc
    case isFalse => exact ⟨ended, first.2⟩
  | number =>
    simp only [step]
    split
    case isTrue => exact ⟨legible_nil, trivial⟩
    case isFalse => exact ⟨ended, first.2⟩
  | quoted =>
    simp only [step]
    split_ifs
    · exact ⟨legible_singleton (by simp), trivial⟩
    · exact ⟨legible_nil, trivial⟩
    · exact ⟨legible_nil, trivial⟩
  | escaped => exact ⟨legible_nil, trivial⟩

theorem legible_tokensFrom {mode : Mode} (hm : mode.Legible)
    (chars : List Char) : Legible (tokensFrom mode chars) := by
  induction chars generalizing mode with
  | nil => exact legible_finish hm
  | cons c rest ih =>
    have step := legible_step hm c
    exact step.1.append (ih step.2)

/-- Every word of a text is an identifier. -/
theorem legible_tokens (chars : List Char) : Legible (tokens chars) :=
  have nothing_read : Mode.between.Legible := trivial
  legible_tokensFrom nothing_read chars

/-! ## Chains -/

/-- Words with dots between them. -/
def dotted : List (List Char) → List Token
  | [] => []
  | [word] => [.word word]
  | word :: next :: rest => .word word :: .dot :: dotted (next :: rest)

/-- Tokens that end in a word and a dot: a word behind them is not the
first of its chain. -/
def LeadsOn (earlier : List Token) : Prop :=
  ∃ front word, earlier = front ++ [.word word, .dot]

/-- At this place of the tokens a chain of two or more words begins, and
an opening bracket stands behind it. -/
def ChainAt (ts : List Token) (i : Nat) (words : List (List Char)) :
    Prop :=
  2 ≤ words.length ∧ ∃ earlier later,
    ts = earlier ++ (dotted words ++ .openBracket :: later) ∧
      earlier.length = i ∧ ¬ LeadsOn earlier

theorem mem_dotted {word : List Char} :
    ∀ {words : List (List Char)}, word ∈ words →
      .word word ∈ dotted words
  | [_], mem => by
    rw [List.mem_singleton.mp mem]
    exact List.mem_cons_self
  | first :: next :: rest, mem => by
    rcases List.mem_cons.mp mem with rfl | mem
    · exact List.mem_cons_self
    · exact List.mem_cons_of_mem _ (List.mem_cons_of_mem _ (mem_dotted mem))

theorem ChainAt.isIdent {chars : List Char} {i : Nat}
    {words : List (List Char)} (h : ChainAt (tokens chars) i words)
    {word : List Char} (mem : word ∈ words) : isIdent word = true := by
  obtain ⟨-, earlier, later, eq, -, -⟩ := h
  refine legible_tokens chars word ?_
  rw [eq]
  exact List.mem_append_right _ (List.mem_append_left _ (mem_dotted mem))

/-- A word inside a chain is its first one or stands behind a word and a
dot. -/
theorem leadsOn_of_dotted {word : List Char} {later rest : List Token} :
    ∀ {words : List (List Char)} {middle : List Token},
      dotted words ++ .openBracket :: later = middle ++ .word word :: rest →
      middle.length < 2 * words.length → middle = [] ∨ LeadsOn middle
  | _, [], _, _ => .inl rfl
  | [_], [_], eq, _ => by cases eq
  | [_], _ :: _ :: _, _, short => by
    simp only [List.length_cons, List.length_nil] at short
    omega
  | _ :: _ :: _, [_], eq, _ => by cases eq
  | head :: next :: words, _ :: _ :: middle, eq, short => by
    simp only [dotted, List.cons_append, List.cons.injEq] at eq
    obtain ⟨rfl, rfl, eq⟩ := eq
    have shorter : middle.length < 2 * (next :: words).length := by
      simp only [List.length_cons] at short ⊢
      omega
    right
    rcases leadsOn_of_dotted eq shorter with rfl | ⟨front, last, rfl⟩
    · exact ⟨[], head, rfl⟩
    · exact ⟨.word head :: .dot :: front, last, rfl⟩

theorem dotted_inj {later later' : List Token} :
    ∀ {words words' : List (List Char)},
      dotted words ++ .openBracket :: later =
        dotted words' ++ .openBracket :: later' → words = words'
  | [], [], _ => rfl
  | [], [_], eq => by cases eq
  | [], _ :: _ :: _, eq => by cases eq
  | [_], [], eq => by cases eq
  | [_], [_], eq => by cases eq; rfl
  | [_], _ :: _ :: _, eq => by cases eq
  | _ :: _ :: _, [], eq => by cases eq
  | _ :: _ :: _, [_], eq => by cases eq
  | _ :: next :: words, _ :: next' :: words', eq => by
    simp only [dotted, List.cons_append, List.cons.injEq,
      Token.word.injEq, true_and] at eq
    rw [eq.1, dotted_inj eq.2]

theorem dotted_cons {word : List Char} {words : List (List Char)} :
    ∃ rest, dotted (word :: words) = .word word :: rest := by
  cases words with
  | nil => exact ⟨[], rfl⟩
  | cons next words => exact ⟨_, rfl⟩

/-- Chains do not overlap: one that begins within another is that one. -/
theorem ChainAt.unique {ts : List Token} {i j : Nat}
    {words words' : List (List Char)} (h : ChainAt ts i words)
    (h' : ChainAt ts j words') (from_i : i ≤ j)
    (within : j < i + 2 * words.length) : i = j ∧ words = words' := by
  obtain ⟨-, earlier, later, rfl, rfl, -⟩ := h
  obtain ⟨two, earlier', later', eq, rfl, whole⟩ := h'
  obtain ⟨word, words', rfl⟩ :=
    List.exists_cons_of_length_pos (Nat.lt_of_lt_of_le Nat.two_pos two)
  obtain ⟨middle, rfl⟩ : earlier <+: earlier' :=
    List.prefix_of_prefix_length_le (List.prefix_append _ _)
      ⟨_, eq.symm⟩ from_i
  rw [List.append_assoc, List.append_cancel_left_eq] at eq
  obtain ⟨rest, begins⟩ := @dotted_cons word words'
  have cut := eq
  rw [begins, List.cons_append] at cut
  rw [List.length_append, Nat.add_lt_add_iff_left] at within
  rcases leadsOn_of_dotted cut within with rfl | ⟨front, last, rfl⟩
  · exact ⟨by rw [List.append_nil], dotted_inj eq⟩
  · exact absurd ⟨_, last, (List.append_assoc ..).symm⟩ whole

/-! ## What a scan finds, and where -/

namespace Before

theorem next_eq_word {before : Before} {t : Token} :
    before.next t = .word ↔ ∃ word, t = .word word := by
  cases t with
  | word word => exact ⟨fun _ => ⟨word, rfl⟩, fun _ => rfl⟩
  | dot => cases before <;> simp [next]
  | openBracket => cases before <;> simp [next]
  | other => cases before <;> simp [next]

theorem next_eq_wordDot {before : Before} {t : Token} :
    before.next t = .wordDot ↔ before = .word ∧ t = .dot := by
  cases t with
  | word word => cases before <;> simp [next]
  | dot => cases before <;> simp [next]
  | openBracket => cases before <;> simp [next]
  | other => cases before <;> simp [next]

/-- What stands before a token that stands behind these. -/
def behind (earlier : List Token) : Before :=
  earlier.foldl next .anything

theorem behind_concat (earlier : List Token) (t : Token) :
    behind (earlier ++ [t]) = (behind earlier).next t := by
  rw [behind, List.foldl_append]
  rfl

theorem behind_eq_word {earlier : List Token} :
    behind earlier = .word ↔
      ∃ front word, earlier = front ++ [.word word] := by
  constructor
  · intro h
    cases earlier using List.reverseRecOn with
    | nil => cases h
    | append_singleton front t =>
      rw [behind_concat, next_eq_word] at h
      obtain ⟨word, rfl⟩ := h
      exact ⟨front, word, rfl⟩
  · rintro ⟨front, word, rfl⟩
    rw [behind_concat, next_eq_word]
    exact ⟨word, rfl⟩

/-- Two tokens back is as far as a scan looks. -/
theorem behind_eq_wordDot {earlier : List Token} :
    behind earlier = .wordDot ↔ LeadsOn earlier := by
  constructor
  · intro h
    cases earlier using List.reverseRecOn with
    | nil => cases h
    | append_singleton front t =>
      rw [behind_concat, next_eq_wordDot, behind_eq_word] at h
      obtain ⟨⟨front, word, rfl⟩, rfl⟩ := h
      exact ⟨front, word, List.append_assoc ..⟩
  · rintro ⟨front, word, rfl⟩
    rw [List.append_cons, behind_concat, next_eq_wordDot, behind_eq_word]
    exact ⟨⟨front, word, rfl⟩, rfl⟩

end Before

theorem ofParts_eq_ok {space name : List Char} {effect : EffectId} :
    EffectId.ofParts (String.ofList space) (String.ofList name) =
        .ok effect ↔
      space = effect.space.toList ∧ name = effect.name.toList := by
  constructor
  · intro h
    unfold EffectId.ofParts at h
    split at h
    · cases h
      exact ⟨String.toList_ofList.symm, String.toList_ofList.symm⟩
    · cases h
  · rintro ⟨rfl, rfl⟩
    rw [String.ofList_toList, String.ofList_toList]
    exact dif_pos ⟨effect.space_isIdent, effect.name_isIdent⟩

/-- Two identifiers name an effect. -/
theorem exists_ofParts_eq_ok {space name : List Char}
    (hs : isIdent space = true) (hn : isIdent name = true) :
    ∃ effect, EffectId.ofParts (String.ofList space)
      (String.ofList name) = .ok effect := by
  rw [← String.toList_ofList (l := space)] at hs
  rw [← String.toList_ofList (l := name)] at hn
  exact ⟨_, dif_pos ⟨hs, hn⟩⟩

/-- A call begins where two dotted words and an opening bracket stand,
unless a word and a dot stand before them. -/
theorem callAt?_eq_some {before : Before} {ts : List Token}
    {effect : EffectId} :
    callAt? before ts = some effect ↔
      before ≠ .wordDot ∧ ∃ later,
        ts = dotted [effect.space.toList, effect.name.toList] ++
          .openBracket :: later := by
  have named {space name : List Char} :
      (EffectId.ofParts (String.ofList space)
          (String.ofList name)).toOption = some effect ↔
        space = effect.space.toList ∧ name = effect.name.toList := by
    rw [← ofParts_eq_ok]
    cases EffectId.ofParts (String.ofList space) (String.ofList name) with
    | ok _ => simp [Except.toOption]
    | error _ => simp [Except.toOption]
  constructor
  · intro h
    unfold callAt? at h
    split at h
    · cases h
    · next apart =>
      obtain ⟨rfl, rfl⟩ := named.mp h
      exact ⟨fun eq => apart eq, _, rfl⟩
    · cases h
  · rintro ⟨apart, later, rfl⟩
    cases before with
    | anything => exact named.mpr ⟨rfl, rfl⟩
    | word => exact named.mpr ⟨rfl, rfl⟩
    | wordDot => exact absurd rfl apart

/-- The calls in tokens that stand behind others, with the places at which
they begin. -/
def spotsFrom : Nat → Before → List Token → List (Nat × EffectId)
  | _, _, [] => []
  | i, before, token :: rest =>
    (callAt? before (token :: rest)).toList.map (Prod.mk i) ++
      spotsFrom (i + 1) (before.next token) rest

theorem map_snd_spotsFrom (i : Nat) (before : Before) (ts : List Token) :
    (spotsFrom i before ts).map Prod.snd = callsFrom before ts := by
  induction ts generalizing i before with
  | nil => rfl
  | cons t ts ih =>
    rw [spotsFrom, callsFrom, List.map_append, ih, List.map_map]
    congr 1
    exact List.map_id _

/-- Something is found at a place exactly if a call begins there, read
behind all that stands before it. -/
theorem mem_spotsFrom {i j : Nat} {before : Before} {ts : List Token}
    {effect : EffectId} :
    (j, effect) ∈ spotsFrom i before ts ↔
      ∃ earlier later, ts = earlier ++ later ∧ i + earlier.length = j ∧
        callAt? (earlier.foldl Before.next before) later = some effect := by
  induction ts generalizing i before with
  | nil =>
    constructor
    · intro mem
      cases mem
    · rintro ⟨earlier, later, eq, -, call⟩
      obtain ⟨rfl, rfl⟩ := List.append_eq_nil_iff.mp eq.symm
      cases before <;> cases call
  | cons t ts ih =>
    rw [spotsFrom, List.mem_append, ih]
    constructor
    · rintro (here | ⟨earlier, later, rfl, place, call⟩)
      · obtain ⟨_, mem, same⟩ := List.mem_map.mp here
        cases same
        exact ⟨[], t :: ts, rfl, rfl, Option.mem_toList.mp mem⟩
      · exact ⟨t :: earlier, later, rfl, by
          rw [List.length_cons]; omega, call⟩
    · rintro ⟨earlier, later, eq, place, call⟩
      cases earlier with
      | nil =>
        obtain rfl : i = j := place
        obtain rfl : t :: ts = later := eq
        exact .inl
          (List.mem_map.mpr ⟨effect, Option.mem_toList.mpr call, rfl⟩)
      | cons t' earlier =>
        cases eq
        exact .inr ⟨earlier, later, rfl, by
          rw [List.length_cons] at place; omega, call⟩

theorem spotsFrom_ascend (i : Nat) (before : Before) (ts : List Token) :
    (spotsFrom i before ts).Pairwise (·.1 < ·.1) := by
  induction ts generalizing i before with
  | nil => exact .nil
  | cons t ts ih =>
    refine List.pairwise_append.mpr ⟨?_, ih _ _, ?_⟩
    · cases callAt? before (t :: ts) with
      | none => exact .nil
      | some effect => exact List.pairwise_singleton _ _
    · rintro ⟨j, _⟩ here ⟨k, _⟩ later
      obtain ⟨_, -, same⟩ := List.mem_map.mp here
      obtain ⟨_, _, -, place, -⟩ := mem_spotsFrom.mp later
      cases same
      show i < k
      omega

/-- What is found in a whole text begins at the chains of two words. -/
theorem mem_spots_iff {i : Nat} {ts : List Token} {effect : EffectId} :
    (i, effect) ∈ spotsFrom 0 .anything ts ↔
      ChainAt ts i [effect.space.toList, effect.name.toList] := by
  rw [mem_spotsFrom]
  constructor
  · rintro ⟨earlier, behind, rfl, place, call⟩
    obtain ⟨apart, later, rfl⟩ := callAt?_eq_some.mp call
    exact ⟨Nat.le_refl 2, earlier, later, rfl,
      (Nat.zero_add _).symm.trans place,
      mt Before.behind_eq_wordDot.mpr apart⟩
  · rintro ⟨-, earlier, later, rfl, place, whole⟩
    have apart := mt Before.behind_eq_wordDot.mp whole
    exact ⟨earlier, _, rfl, (Nat.zero_add _).trans place,
      callAt?_eq_some.mpr ⟨apart, later, rfl⟩⟩

/-! ## Chains and calls -/

/-- How the calls found in tokens, with their places, stand to the chains
among the tokens. -/
structure Reported (ts : List Token) (spots : List (Nat × EffectId)) :
    Prop where
  /-- They are found from left to right, no two at one place. -/
  ascend : spots.Pairwise (·.1 < ·.1)
  /-- The words of every chain are identifiers. -/
  isIdent : ∀ i words, ChainAt ts i words →
    ∀ word ∈ words, Compositing.isIdent word = true
  /-- Every chain of two words names an effect, and is found as a call of
  it. -/
  of_pair : ∀ i space name, ChainAt ts i [space, name] →
    ∃ effect,
      EffectId.ofParts (String.ofList space) (String.ofList name) =
        .ok effect ∧ (i, effect) ∈ spots
  /-- Nothing else is found. -/
  only : ∀ i effect, (i, effect) ∈ spots →
    ChainAt ts i [effect.space.toList, effect.name.toList]
  /-- Within a longer chain and its bracket nothing is found. -/
  none_of_longer : ∀ i words, ChainAt ts i words → 2 < words.length →
    ∀ j effect, i ≤ j → j < i + 2 * words.length → (j, effect) ∉ spots

/-- In every text the calls are the chains of two words, in the order of
the text; a longer chain is none. -/
theorem calls_of_chains (text : String) :
    ∃ spots, calls text = spots.map Prod.snd ∧
      Reported (tokens text.toList) spots := by
  refine ⟨spotsFrom 0 .anything (tokens text.toList),
    (map_snd_spotsFrom ..).symm, ?_⟩
  constructor
  case ascend => exact spotsFrom_ascend ..
  case isIdent => exact fun i words chain word mem => chain.isIdent mem
  case of_pair =>
    intro i space name chain
    have isIdent : isIdent space = true ∧ isIdent name = true :=
      ⟨chain.isIdent (by simp), chain.isIdent (by simp)⟩
    obtain ⟨effect, named⟩ := exists_ofParts_eq_ok isIdent.1 isIdent.2
    obtain ⟨rfl, rfl⟩ := ofParts_eq_ok.mp named
    exact ⟨effect, named, mem_spots_iff.mpr chain⟩
  case only => exact fun i effect => mem_spots_iff.mp
  case none_of_longer =>
    intro i words chain longer j effect from_i within found
    have same := (chain.unique (mem_spots_iff.mp found) from_i within).2
    rw [same] at longer
    exact absurd longer (Nat.lt_irrefl 2)

/-- In a chain of three words the last two are no call. -/
theorem no_call_of_three_words :
    ChainAt (tokens "a.b.c(".toList) 0 [['a'], ['b'], ['c']] ∧
      calls "a.b.c(" = [] := by
  refine ⟨⟨by decide, [], [], by decide +kernel, rfl, ?_⟩,
    by decide +kernel⟩
  rintro ⟨front, word, eq⟩
  simp at eq

end Compositing.ProgramText
