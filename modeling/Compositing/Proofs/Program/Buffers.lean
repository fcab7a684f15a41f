/-
Compositing.Proofs.Program.Buffers — which buffers the lines of a program
read and write.

A line consists of pieces (`text_eq_pieces`), which tell the buffers that
synthesis itself reads and writes from whatever stands in parameters.
Statements are `Numbered` from `n` on when each writes the next buffer and
reads only buffers before it. `Uses` says that all buffers of a range are
read. `numbered_stackStatements` and `uses_stackStatements` are the two
for the statements of a stack, `length_stackStatements` counts them.
-/
import Mathlib.Data.List.Basic
import Compositing.Proofs.Program.Invocations

namespace Compositing.Program

/-! ## Pieces of a line -/

/-- A part of a line: a buffer that is read or written, or other text. -/
inductive Piece where
  | read (b : Buffer)
  | write (b : Buffer)
  | other (text : List Char)

namespace Piece

/-- How a piece is written. -/
def text : Piece → List Char
  | .read b => readText b
  | .write b => writeText b
  | .other text => text

/-- The buffer that the piece reads. -/
def read? : Piece → Option Nat
  | .read b => some b
  | _ => none

/-- The buffer that the piece writes. -/
def write? : Piece → Option Nat
  | .write b => some b
  | _ => none

end Piece

/-- The pieces of an input. -/
def inputPieces : Option Buffer → List Piece
  | some b => [.read b, .other ['.']]
  | none => []

/-- The pieces of blended content. -/
def Content.pieces : Content → List Piece
  | .buffer b => [.read b]
  | .chain input first rest =>
    inputPieces input ++ [.other (first.text ++ chainText rest)]

/-- A blend up to its content. -/
def blendHead (mix : Mix) : List Char :=
  headText EffectId.blend ++ "amount: ".toList ++ number mix.weight ++
    ", mode: ".toList ++ mix.mode.word.toList ++ ", tex: ".toList

/-- The pieces of a line. -/
def Statement.pieces : Statement → List Piece
  | .produce input call target =>
    inputPieces input ++ [.other call.text, .write target]
  | .blend backdrop mix content target =>
    inputPieces (some backdrop) ++ .other (blendHead mix) ::
      (content.pieces ++ [.other [')'], .write target])

theorem inputText_eq_pieces (input : Option Buffer) :
    inputText input = (inputPieces input).flatMap Piece.text := by
  cases input with
  | none => rfl
  | some b => simp [inputText, inputPieces, Piece.text]

theorem contentText_eq_pieces (content : Content) :
    content.text = content.pieces.flatMap Piece.text := by
  cases content with
  | buffer b => simp [Content.text, Content.pieces, Piece.text]
  | chain input first rest =>
    simp [Content.text, Content.pieces, Piece.text, inputText_eq_pieces]

/-- A line is its pieces written one behind the other. -/
theorem text_eq_pieces (s : Statement) :
    s.text = s.pieces.flatMap Piece.text := by
  cases s with
  | produce input call target =>
    simp [Statement.text, Statement.pieces, Piece.text, inputText_eq_pieces]
  | blend backdrop mix content target =>
    simp [Statement.text, Statement.pieces, Piece.text, inputText_eq_pieces,
      blendText, blendHead, contentText_eq_pieces]

/-- Buffers of one name are one buffer. -/
theorem bufferName_inj {a b : Buffer} (h : bufferName a = bufferName b) :
    a = b := by
  have digits : Nat.toDigits 10 a = Nat.toDigits 10 b := (List.cons.inj h).2
  calc
    a = Nat.ofDigitChars 10 (Nat.toDigits 10 a) 0 :=
      Nat.ofDigitChars_ten_toDigits.symm
    _ = Nat.ofDigitChars 10 (Nat.toDigits 10 b) 0 := by rw [digits]
    _ = b := Nat.ofDigitChars_ten_toDigits

/-! ## Reads and writes -/

/-- The buffers that a line reads. -/
def Statement.reads (s : Statement) : List Nat :=
  s.pieces.filterMap Piece.read?

/-- The buffers that a line writes. -/
def Statement.writes (s : Statement) : List Nat :=
  s.pieces.filterMap Piece.write?

/-- The buffers that blended content reads. -/
def Content.reads : Content → List Nat
  | .buffer b => [b]
  | .chain input _ _ => input.toList

@[simp]
theorem reads_produce (input : Option Buffer) (call : Call)
    (target : Buffer) :
    (Statement.produce input call target).reads = input.toList := by
  cases input <;> rfl

@[simp]
theorem reads_blend (backdrop : Buffer) (mix : Mix) (content : Content)
    (target : Buffer) :
    (Statement.blend backdrop mix content target).reads =
      backdrop :: content.reads := by
  cases content with
  | buffer b => rfl
  | chain input first rest => cases input <;> rfl

/-- A line writes its target and nothing else. -/
@[simp]
theorem writes_eq (s : Statement) : s.writes = [s.target] := by
  cases s with
  | produce input call target => cases input <;> rfl
  | blend backdrop mix content target =>
    cases content with
    | buffer b => rfl
    | chain input first rest => cases input <;> rfl

/-! ## Statements in order -/

/-- Each statement writes the next buffer, from `n` on, and reads only
buffers before its own. -/
def Numbered : Nat → List Statement → Prop
  | _, [] => True
  | n, s :: rest =>
    s.target = n ∧ (∀ b ∈ s.reads, b < n) ∧ Numbered (n + 1) rest

theorem numbered_append {a b : List Statement} :
    ∀ {n : Nat},
      Numbered n (a ++ b) ↔ Numbered n a ∧ Numbered (n + a.length) b := by
  induction a with
  | nil => simp [Numbered]
  | cons s rest ih =>
    intro n
    have shift : n + 1 + rest.length = n + (rest.length + 1) := by omega
    simp only [List.cons_append, Numbered, ih, List.length_cons, shift,
      and_assoc]

/-- The buffers that numbered statements write. -/
theorem Numbered.targets {ss : List Statement} :
    ∀ {n : Nat}, Numbered n ss →
      ss.map Statement.target = List.range' n ss.length := by
  induction ss with
  | nil => simp
  | cons s rest ih =>
    rintro n ⟨target, -, more⟩
    rw [List.map_cons, ih more, target, List.length_cons, List.range'_succ]

/-- Among statements numbered from zero on, each one is numbered by how
many precede it. -/
theorem Numbered.of_split {before after : List Statement} {s : Statement}
    (h : Numbered 0 (before ++ s :: after)) :
    s.target = before.length ∧ ∀ b ∈ s.reads, b < before.length := by
  have own := (numbered_append.mp h).2
  rw [Nat.zero_add] at own
  exact ⟨own.1, own.2.1⟩

/-- Numbered statements read only what statements before them wrote. -/
theorem Numbered.written_before {before after : List Statement}
    {s : Statement} (h : Numbered 0 (before ++ s :: after)) :
    ∀ b ∈ s.reads, ∃ t ∈ before, b ∈ t.writes := by
  intro b reads
  have written : b ∈ before.map Statement.target := by
    rw [(numbered_append.mp h).1.targets, List.mem_range'_1]
    have := h.of_split.2 b reads
    omega
  obtain ⟨t, mem, target⟩ := List.mem_map.mp written
  exact ⟨t, mem, by simp [target]⟩

/-- What is read of numbered statements is read behind its writing. -/
theorem Numbered.read_after {before after : List Statement} {s t : Statement}
    (h : Numbered 0 (before ++ s :: after)) (mem : t ∈ before ++ s :: after)
    (reads : s.target ∈ t.reads) : t ∈ after := by
  have own := h.of_split
  rcases List.mem_append.mp mem with early | late
  · obtain ⟨x, y, rfl⟩ := List.append_of_mem early
    rw [List.append_assoc, List.cons_append] at h
    have lt := h.of_split.2 _ reads
    rw [own.1, List.length_append] at lt
    omega
  · rcases List.mem_cons.mp late with rfl | later
    · have lt := own.2 _ reads
      rw [own.1] at lt
      exact absurd lt (Nat.lt_irrefl _)
    · exact later

/-- All buffers from `low` to before `high` are read. -/
def Uses (low high : Nat) (ss : List Statement) : Prop :=
  ∀ b, low ≤ b → b < high → ∃ s ∈ ss, b ∈ s.reads

theorem Uses.append {low middle high : Nat} {a b : List Statement}
    (h : Uses low middle a) (h' : Uses middle high b) :
    Uses low high (a ++ b) := by
  intro n le lt
  rcases Nat.lt_or_ge n middle with early | late
  · obtain ⟨s, mem, reads⟩ := h n le early
    exact ⟨s, List.mem_append_left _ mem, reads⟩
  · obtain ⟨s, mem, reads⟩ := h' n late lt
    exact ⟨s, List.mem_append_right _ mem, reads⟩

/-- Whatever numbered statements write is read behind, if all but the last
buffer is read anywhere. -/
theorem Numbered.used {before after : List Statement} {s : Statement}
    (h : Numbered 0 (before ++ s :: after))
    (uses : Uses 0 ((before ++ s :: after).length - 1)
      (before ++ s :: after))
    (inner : s.target ≠ (before ++ s :: after).length - 1) :
    ∃ t ∈ after, s.target ∈ t.reads := by
  have place := h.of_split.1
  rw [place] at inner
  have lt : before.length < (before ++ s :: after).length - 1 := by
    refine Nat.lt_of_le_of_ne ?_ inner
    rw [List.length_append, List.length_cons]
    omega
  obtain ⟨t, mem, reads⟩ := uses before.length (Nat.zero_le _) lt
  rw [← place] at reads
  exact ⟨t, h.read_after mem reads, reads⟩

/-- One statement that reads a buffer. -/
theorem uses_singleton {b : Nat} {s : Statement} (reads : b ∈ s.reads) :
    Uses b (b + 1) [s] := by
  intro n le lt
  obtain rfl : n = b := by omega
  exact ⟨s, List.mem_singleton_self s, reads⟩

/-! ## The statements of a stack -/

@[simp]
theorem length_filterChain (l : Layer) (children : List ChildEffect) :
    ∀ b : Nat, (filterChain l b children).length = children.length := by
  induction children with
  | nil => intro b; rfl
  | cons c rest ih => intro b; simp [filterChain, ih]

theorem numbered_filterChain (l : Layer) (children : List ChildEffect) :
    ∀ b : Nat, Numbered (b + 1) (filterChain l b children) := by
  induction children with
  | nil => intro b; trivial
  | cons c rest ih =>
    intro b
    refine ⟨rfl, ?_, ih (b + 1)⟩
    simp

theorem uses_filterChain (l : Layer) (children : List ChildEffect) :
    ∀ b : Nat, Uses b (b + children.length) (filterChain l b children) := by
  induction children with
  | nil =>
    intro b n le lt
    simp at lt
    omega
  | cons c rest ih =>
    intro b
    have first : Uses b (b + 1) [.produce (some b) (childCall l c) (b + 1)] :=
      uses_singleton (by simp)
    have all := first.append (ih (b + 1))
    have shift : b + 1 + rest.length = b + (rest.length + 1) := by omega
    rwa [shift] at all

section

variable (catalog : Catalog) (fallback : EffectId)

@[simp]
theorem length_layerStatements (below : Nat) (l : Layer) :
    (layerStatements catalog fallback below l).length =
      2 + l.visibleChildren.length := by
  simp [layerStatements]
  omega

theorem layerInput_le {below b : Nat} {l : Layer}
    (reads : b ∈ (layerInput catalog fallback below l).toList) : b = below := by
  unfold layerInput at reads
  split at reads <;> simp at reads
  exact reads

theorem numbered_layerStatements (below : Nat) (l : Layer) :
    Numbered (below + 1) (layerStatements catalog fallback below l) := by
  refine ⟨rfl, ?_, numbered_append.mpr ⟨?_, ?_⟩⟩
  · intro b reads
    rw [reads_produce] at reads
    have := layerInput_le catalog fallback reads
    omega
  · exact numbered_filterChain l l.visibleChildren (below + 1)
  · refine ⟨?_, ?_, trivial⟩
    · rw [Statement.target, length_filterChain]
      exact Nat.add_right_comm (below + 1) l.visibleChildren.length 1
    · intro b reads
      simp only [reads_blend, Content.reads, List.mem_cons, List.not_mem_nil,
        or_false] at reads
      rw [length_filterChain]
      omega

/-- A layer reads the composite beneath it and everything of its own but
the new composite. -/
theorem uses_layerStatements (below : Nat) (l : Layer) :
    Uses below (below + (2 + l.visibleChildren.length))
      (layerStatements catalog fallback below l) := by
  have chain := uses_filterChain l l.visibleChildren (below + 1)
  intro b le lt
  rcases Nat.eq_or_lt_of_le le with rfl | above
  -- The composite beneath is the backdrop of the blend.
  · exact ⟨_, List.mem_cons_of_mem _ (List.mem_append_right _
      (List.mem_singleton_self _)), by simp⟩
  · rcases Nat.lt_or_ge b (below + 1 + l.visibleChildren.length) with
      inner | last
    · obtain ⟨s, mem, reads⟩ := chain b above inner
      exact ⟨s, List.mem_cons_of_mem _ (List.mem_append_left _ mem), reads⟩
    · obtain rfl : b = below + 1 + l.visibleChildren.length := by omega
      exact ⟨_, List.mem_cons_of_mem _ (List.mem_append_right _
        (List.mem_singleton_self _)), by simp [Content.reads]⟩

/-- How many buffers layers above the base take. -/
def upperBuffers : List Layer → Nat
  | [] => 0
  | l :: rest => 2 + l.visibleChildren.length + upperBuffers rest

@[simp]
theorem length_upperStatements (layers : List Layer) :
    ∀ below : Nat,
      (upperStatements catalog fallback below layers).length =
        upperBuffers layers := by
  induction layers with
  | nil => intro below; rfl
  | cons l rest ih =>
    intro below
    simp [upperStatements, upperBuffers, ih]

theorem numbered_upperStatements (layers : List Layer) :
    ∀ below : Nat,
      Numbered (below + 1) (upperStatements catalog fallback below layers) := by
  induction layers with
  | nil => intro below; trivial
  | cons l rest ih =>
    intro below
    refine numbered_append.mpr
      ⟨numbered_layerStatements catalog fallback below l, ?_⟩
    have more := ih (below + (2 + l.visibleChildren.length))
    rw [length_layerStatements]
    have shift : below + 1 + (2 + l.visibleChildren.length) =
        below + (2 + l.visibleChildren.length) + 1 := by omega
    rwa [shift]

theorem uses_upperStatements (layers : List Layer) :
    ∀ below : Nat,
      Uses below (below + upperBuffers layers)
        (upperStatements catalog fallback below layers) := by
  induction layers with
  | nil =>
    intro below n le lt
    exact absurd lt (Nat.not_lt.mpr le)
  | cons l rest ih =>
    intro below
    have all := (uses_layerStatements catalog fallback below l).append
      (ih (below + (2 + l.visibleChildren.length)))
    rw [Nat.add_assoc] at all
    simpa [upperStatements, upperBuffers] using all

/-- How many buffers the base takes. -/
def baseBuffers (l : Layer) : Nat :=
  if IsFlat fallback l then 1 + l.visibleChildren.length else 2

/-- How many buffers visible layers take. -/
def stackBuffers : List Layer → Nat
  | [] => 1
  | base :: rest => baseBuffers fallback base + upperBuffers rest

theorem one_le_baseBuffers (l : Layer) : 1 ≤ baseBuffers fallback l := by
  unfold baseBuffers
  split <;> omega

theorem stackBuffers_pos (visible : List Layer) :
    0 < stackBuffers fallback visible := by
  cases visible with
  | nil => exact Nat.zero_lt_one
  | cons base rest =>
    have := one_le_baseBuffers fallback base
    simp only [stackBuffers]
    omega

/-- The last buffer of a stack above the last one of its base. -/
theorem last_add_upperBuffers (base : Layer) (rest : List Layer) :
    baseBuffers fallback base - 1 + upperBuffers rest =
      stackBuffers fallback (base :: rest) - 1 := by
  have := one_le_baseBuffers fallback base
  simp only [stackBuffers]
  omega

@[simp]
theorem length_baseStatements (l : Layer) :
    (baseStatements catalog fallback l).length = baseBuffers fallback l := by
  unfold baseStatements baseBuffers
  by_cases flat : IsFlat fallback l
  · simp [flat, (classify_eq_solid_iff catalog _).mpr flat]
    omega
  · simp [flat, mt (classify_eq_solid_iff catalog _).mp flat]

theorem numbered_baseStatements (l : Layer) :
    Numbered 0 (baseStatements catalog fallback l) := by
  unfold baseStatements
  dsimp only
  split
  · exact ⟨rfl, by simp, numbered_filterChain l l.visibleChildren 0⟩
  · refine ⟨rfl, by simp, rfl, ?_, trivial⟩
    intro b reads
    simp only [reads_blend, Content.reads, List.mem_cons] at reads
    rcases reads with rfl | reads
    · omega
    · have := layerInput_le catalog fallback reads
      omega

theorem uses_baseStatements (l : Layer) :
    Uses 0 (baseBuffers fallback l - 1)
      (baseStatements catalog fallback l) := by
  unfold baseStatements baseBuffers
  by_cases flat : IsFlat fallback l
  · rw [if_pos flat, if_pos ((classify_eq_solid_iff catalog _).mpr flat)]
    have chain := uses_filterChain l l.visibleChildren 0
    intro b le lt
    obtain ⟨s, mem, reads⟩ := chain b le (by omega)
    exact ⟨s, List.mem_cons_of_mem _ mem, reads⟩
  · rw [if_neg flat, if_neg (mt (classify_eq_solid_iff catalog _).mp flat)]
    intro b le lt
    obtain rfl : b = 0 := by omega
    exact ⟨_, List.mem_cons_of_mem _ (List.mem_singleton_self _), by simp⟩

@[simp]
theorem length_stackStatements (visible : List Layer) :
    (stackStatements catalog fallback visible).length =
      stackBuffers fallback visible := by
  cases visible with
  | nil => rfl
  | cons base rest => simp [stackStatements, stackBuffers]

theorem numbered_stackStatements (visible : List Layer) :
    Numbered 0 (stackStatements catalog fallback visible) := by
  cases visible with
  | nil => exact ⟨rfl, by simp, trivial⟩
  | cons base rest =>
    refine numbered_append.mpr
      ⟨numbered_baseStatements catalog fallback base, ?_⟩
    have above := numbered_upperStatements catalog fallback rest
      (baseBuffers fallback base - 1)
    have := one_le_baseBuffers fallback base
    have shift : baseBuffers fallback base - 1 + 1 =
        0 + baseBuffers fallback base := by omega
    rw [shift] at above
    simpa using above

/-- Every buffer but the last one is read. -/
theorem uses_stackStatements (visible : List Layer) :
    Uses 0 (stackBuffers fallback visible - 1)
      (stackStatements catalog fallback visible) := by
  cases visible with
  | nil =>
    intro b le lt
    simp [stackBuffers] at lt
  | cons base rest =>
    have all := (uses_baseStatements catalog fallback base).append
      (uses_upperStatements catalog fallback rest
        (baseBuffers fallback base - 1))
    rw [last_add_upperBuffers] at all
    simpa [stackStatements] using all

end

end Compositing.Program
