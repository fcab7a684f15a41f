/-
Compositing.Proofs.Program.Written — a program's text says what it issues.

Below its first line the text of a program is made of what the program
issues: the name of each effect with its arguments, one behind another,
and between them text that holds no call (`Spells`). A call writes its
parameters as they are. A blend writes its weight as a number, which it is
as long as it is finite, and the weights of layers are
(`spells_ofLayers`).
-/
import Compositing.Proofs.Layer.Opacity
import Compositing.Proofs.Program.Arguments
import Compositing.Proofs.Program.Calls

namespace Compositing

open ProgramText (Yields Silent)

namespace Program

/-! ## Spelling -/

/-- The name of an effect and the arguments that it is given. -/
def openingText (given : Invocation × Params) : List Char :=
  headText given.1.effect ++
    Json.joinWith [',', ' '] (given.2.entries.map argumentText)

/-- The text writes these invocations with their parameters one behind
another, and no call stands before, between or behind them. -/
def Spells (text : List Char) : List (Invocation × Params) → Prop
  | [] => Yields text []
  | first :: later => ∃ gap after,
      text = gap ++ (openingText first ++ after) ∧ Yields gap [] ∧
        Spells after later

namespace Spells

variable {a b : List Char} {given later : List (Invocation × Params)}

theorem opening (h : Spells b later) (first : Invocation × Params) :
    Spells (openingText first ++ b) (first :: later) :=
  ⟨[], b, rfl, .nil, h⟩

theorem silent_append (silent : Yields a []) (h : Spells b later) :
    Spells (a ++ b) later := by
  cases later with
  | nil => exact silent.append h
  | cons first later =>
    obtain ⟨gap, after, rfl, between, h⟩ := h
    exact ⟨a ++ gap, after, (List.append_assoc ..).symm,
      silent.append between, h⟩

theorem append (ha : Spells a given) (hb : Spells b later) :
    Spells (a ++ b) (given ++ later) := by
  induction given generalizing a with
  | nil => exact hb.silent_append ha
  | cons first given ih =>
    obtain ⟨gap, after, rfl, between, ha⟩ := ha
    refine ⟨gap, after ++ b, ?_, between, ih ha⟩
    rw [List.append_assoc, List.append_assoc]

theorem append_silent (h : Spells a given) (silent : Yields b []) :
    Spells (a ++ b) given := by
  have last : Spells b [] := silent
  have whole := h.append last
  rwa [List.append_nil] at whole

theorem flatMap {α : Type} {text : α → List Char}
    {given : α → List (Invocation × Params)} {items : List α}
    (h : ∀ x ∈ items, Spells (text x) (given x)) :
    Spells (items.flatMap text) (items.flatMap given) := by
  induction items with
  | nil => exact Yields.nil
  | cons x items ih =>
    rw [List.forall_mem_cons] at h
    exact h.1.append (ih h.2)

end Spells

/-! ## Calls and blends -/

theorem spells_text (call : Call) :
    Spells call.text [(call.invocation, call.params)] := by
  have closed : Spells [')'] [] := yields_closing
  exact closed.opening (call.invocation, call.params)

theorem spells_chainText (calls : List Call) :
    Spells (chainText calls)
      (calls.map fun call => (call.invocation, call.params)) := by
  induction calls with
  | nil => exact Yields.nil
  | cons call rest ih =>
    exact ((spells_text call).append ih).silent_append Yields.dot

theorem spells_content (content : Content) :
    Spells content.text
      (content.calls.map fun call => (call.invocation, call.params)) := by
  cases content with
  | buffer b => exact yields_readText b
  | chain input first rest =>
    have calls := (spells_text first).append (spells_chainText rest)
    have chain := calls.silent_append (yields_inputText input)
    rwa [← List.append_assoc] at chain

/-- The weight of a blend is written as the value that it is. -/
theorem openingText_mix {mix : Mix} (finite : mix.weight.isFinite = true)
    (role : Role) :
    openingText ({ effect := EffectId.blend, role := role }, mix.params) =
      headText EffectId.blend ++ "amount: ".toList ++ number mix.weight := by
  have weight : Json.Value.ofFloat mix.weight = .float mix.weight :=
    if_pos finite
  have entries : mix.params.entries = [("amount", .float mix.weight)] := by
    rw [← weight]
    rfl
  rw [openingText, entries, List.append_assoc]
  rfl

theorem spells_blendText {mix : Mix} (finite : mix.weight.isFinite = true)
    (content : Content) :
    Spells (blendText mix content)
      (({ effect := EffectId.blend, role := .blend mix.layer }, mix.params) ::
        content.calls.map fun call => (call.invocation, call.params)) := by
  have split : ", tex: ".toList = ", tex".toList ++ [':'] ++ [' '] := rfl
  have words := Silent.of_plain (plain_mixWords mix.mode) ':' (by decide)
  have rest := ((spells_content content).silent_append
    (words.silent_append .blank)).append_silent yields_closing
  have whole := rest.opening
    ({ effect := EffectId.blend, role := .blend mix.layer }, mix.params)
  rw [openingText_mix finite] at whole
  rw [blendText, split]
  simpa only [List.append_assoc] using whole

/-! ## Statements and programs -/

/-- The weight of a blend is a finite number. -/
def Statement.FiniteWeight : Statement → Prop
  | .produce .. => True
  | .blend _ mix _ _ => mix.weight.isFinite = true

/-- A statement spells what it issues. -/
theorem spells_statement {s : Statement} (h : s.FiniteWeight) :
    Spells s.text s.issued := by
  cases s with
  | produce input call target =>
    exact ((spells_text call).silent_append
      (yields_inputText input)).append_silent (yields_writeText target)
  | blend backdrop mix content target =>
    exact ((spells_blendText h content).silent_append
      (yields_inputText (some backdrop))).append_silent
        (yields_writeText target)

theorem spells_body {p : Program} (h : ∀ s ∈ p.statements, s.FiniteWeight) :
    Spells p.body p.issued := by
  have last := (yields_renderText p.output).silent_append Yields.newline
  rw [body_eq, issued]
  exact (Spells.flatMap fun s mem =>
    (spells_statement (h s mem)).append_silent Yields.newline).append_silent
      last

section

variable (catalog : Catalog) (fallback : EffectId)

theorem finiteWeight_filterChain (l : Layer) :
    ∀ (b : Buffer) (children : List ChildEffect),
      ∀ s ∈ filterChain l b children, s.FiniteWeight
  | _, [], _, mem => nomatch mem
  | b, _ :: rest, s, mem => by
    rcases List.mem_cons.mp mem with rfl | mem
    · trivial
    · exact finiteWeight_filterChain l (b + 1) rest s mem

theorem finiteWeight_layerStatements (below : Buffer) (l : Layer) :
    ∀ s ∈ layerStatements catalog fallback below l, s.FiniteWeight := by
  intro s mem
  rcases List.mem_cons.mp mem with rfl | mem
  · trivial
  · rcases List.mem_append.mp mem with mem | mem
    · exact finiteWeight_filterChain l _ _ s mem
    · rw [List.mem_singleton.mp mem]
      exact isFinite_blendWeight l.opacity

theorem finiteWeight_upperStatements :
    ∀ (below : Buffer) (layers : List Layer),
      ∀ s ∈ upperStatements catalog fallback below layers, s.FiniteWeight
  | _, [], _, mem => nomatch mem
  | below, l :: rest, s, mem => by
    rcases List.mem_append.mp mem with mem | mem
    · exact finiteWeight_layerStatements catalog fallback below l s mem
    · exact finiteWeight_upperStatements _ rest s mem

theorem finiteWeight_baseStatements (l : Layer) :
    ∀ s ∈ baseStatements catalog fallback l, s.FiniteWeight := by
  intro s mem
  unfold baseStatements at mem
  dsimp only at mem
  split at mem
  · rcases List.mem_cons.mp mem with rfl | mem
    · trivial
    · exact finiteWeight_filterChain l _ _ s mem
  · rcases List.mem_cons.mp mem with rfl | mem
    · trivial
    · rw [List.mem_singleton.mp mem]
      exact isFinite_blendWeight l.opacity

theorem finiteWeight_stackStatements (visible : List Layer) :
    ∀ s ∈ stackStatements catalog fallback visible, s.FiniteWeight := by
  intro s mem
  cases visible with
  | nil =>
    rw [List.mem_singleton.mp mem]
    trivial
  | cons base rest =>
    rcases List.mem_append.mp mem with mem | mem
    · exact finiteWeight_baseStatements catalog fallback base s mem
    · exact finiteWeight_upperStatements catalog fallback _ rest s mem

/-- Below its first line the text of a stack's program spells what the
program issues: whatever the layers are, and whatever stands in their
parameters. -/
theorem spells_ofLayers (layers : List Layer) :
    let p := ofLayers catalog fallback layers
    Spells p.body p.issued :=
  spells_body (finiteWeight_stackStatements catalog fallback _)

end

end Program

end Compositing
