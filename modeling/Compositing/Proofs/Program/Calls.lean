/-
Compositing.Proofs.Program.Calls — the calls in a program's text are its
invocations.

A program lists what it invokes while it is built; a scan of its text
lists what the text calls. `calls_text` says that the two agree for every
program whose parameters have plain names, and `calls_ofLayers` that they
agree for the program of every stack of layers. The names of parameters
are the only text from outside that a program shows without quotes; a
name such as `a.b(` would itself be read as a call. All that matters about
a name is that it is silent (`calls_text_of_silent`).
-/
import Compositing.Program.Synthesis
import Compositing.Proofs.Assoc
import Compositing.Proofs.Program.Literals

namespace Compositing

open ProgramText (Yields Silent Plain BeginsWord)

/-- Every parameter's name is of some kind. -/
def Params.Named (kind : String → Prop) (p : Params) : Prop :=
  ∀ e ∈ p.entries, kind e.1

/-- The name of every parameter of the layer and of its child effects is
of some kind. -/
def Layer.Named (kind : String → Prop) (l : Layer) : Prop :=
  l.params.Named kind ∧ ∀ c ∈ l.children, c.params.Named kind

theorem Layer.Named.mono {kind kind' : String → Prop} {l : Layer}
    (h : l.Named kind) (le : ∀ name, kind name → kind' name) :
    l.Named kind' :=
  ⟨fun e he => le e.1 (h.1 e he), fun c hc e he => le e.1 (h.2 c hc e he)⟩

/-- The name, closed by whatever closes it, holds no call. -/
abbrev SilentName (name : String) : Prop :=
  Silent name.toList

/-- No parameter's name has a quote or an opening bracket. -/
def Params.PlainNames (p : Params) : Prop :=
  ∀ e ∈ p.entries, Plain e.1.toList

instance (p : Params) : Decidable p.PlainNames :=
  inferInstanceAs (Decidable (∀ e ∈ p.entries, Plain e.1.toList))

/-- All parameters of the layer and of its child effects have plain
names. -/
def Layer.PlainNames (l : Layer) : Prop :=
  l.params.PlainNames ∧ ∀ c ∈ l.children, c.params.PlainNames

instance (l : Layer) : Decidable l.PlainNames := instDecidableAnd

namespace Program

/-! ## Statements -/

theorem plain_bufferName (b : Buffer) : Plain (bufferName b) :=
  .cons (by decide) (by decide) (.natural b)

/-- A function on a buffer is no qualified call. -/
theorem yields_onBuffer {function : List Char} (h : Yields function [])
    (b : Buffer) : Yields (function ++ bufferName b ++ [')']) [] := by
  rw [List.append_assoc]
  exact h.silent_append
    (Silent.of_plain (plain_bufferName b) ')' (by decide))

theorem yields_readText (b : Buffer) : Yields (readText b) [] := by
  have word : isIdent "read".toList = true := by decide
  have split : "read(".toList = "read".toList ++ ['('] := rfl
  exact yields_onBuffer (split ▸ .function word) b

theorem yields_inputText (input : Option Buffer) :
    Yields (inputText input) [] := by
  cases input with
  | none => exact .nil
  | some b => exact (yields_readText b).silent_append .dot

theorem yields_writeText (b : Buffer) : Yields (writeText b) [] := by
  have word : isIdent "write".toList = true := by decide
  have split : ".write(".toList = ['.'] ++ ("write".toList ++ ['(']) := rfl
  exact yields_onBuffer
    (split ▸ Yields.dot.silent_append (.function word)) b

theorem yields_renderText (b : Buffer) : Yields (renderText b) [] := by
  have word : isIdent "render".toList = true := by decide
  have split : "render(".toList = "render".toList ++ ['('] := rfl
  exact yields_onBuffer (split ▸ .function word) b

/-- An argument with a silent name holds no call. -/
theorem silent_argumentText {argument : String × Json.Value}
    (h : SilentName argument.1) : Silent (argumentText argument) := by
  obtain ⟨name, value⟩ := argument
  have named := h ':' (by decide)
  have argument :=
    Silent.append (named.silent_append .blank) (Silent.literal value)
  rwa [List.append_assoc, List.append_assoc] at argument

/-- A call holds itself and nothing else. -/
theorem yields_text {call : Call} (h : call.params.Named SilentName) :
    Yields call.text [call.effect] := by
  have arguments : Silent (Json.joinWith [',', ' ']
      (call.params.entries.map argumentText)) := by
    refine Silent.joinWith (by decide) .blank fun text mem => ?_
    obtain ⟨argument, he, rfl⟩ := List.mem_map.mp mem
    exact silent_argumentText (h argument he)
  rw [Call.text, List.append_assoc]
  exact (Yields.head call.effect).append (arguments ')' (by decide))

theorem yields_chainText {calls : List Call}
    (h : ∀ call ∈ calls, call.params.Named SilentName) :
    Yields (chainText calls) (calls.map (·.effect)) := by
  induction calls with
  | nil => exact .nil
  | cons call rest ih =>
    rw [List.forall_mem_cons] at h
    exact Yields.dot.silent_append ((yields_text h.1).append (ih h.2))

theorem yields_content {content : Content}
    (h : ∀ call ∈ content.calls, call.params.Named SilentName) :
    Yields content.text (content.calls.map (·.effect)) := by
  cases content with
  | buffer b => exact yields_readText b
  | chain input first rest =>
    have h' : ∀ call ∈ first :: rest, call.params.Named SilentName := h
    rw [List.forall_mem_cons] at h'
    have calls := (yields_text h'.1).append (yields_chainText h'.2)
    have chain := (yields_inputText input).silent_append calls
    rwa [← List.append_assoc] at chain

/-- Words stand between the weight of a blend and its content. -/
theorem plain_mixWords (mode : BlendMode) :
    Plain (", mode: ".toList ++ mode.word.toList ++ ", tex".toList) := by
  cases mode <;> decide

theorem yields_closing : Yields [')'] [] :=
  Silent.nil ')' (by decide)

/-- A blend is called before the calls inside its content. -/
theorem yields_blendText (mix : Mix) {content : Content}
    (h : ∀ call ∈ content.calls, call.params.Named SilentName) :
    Yields (blendText mix content)
      (EffectId.blend :: content.calls.map (·.effect)) := by
  have weight : Plain ("amount: ".toList ++ number mix.weight) :=
    .append (by decide) (.number mix.weight)
  have split : ", tex: ".toList = ", tex".toList ++ [':'] ++ [' '] := rfl
  have arguments :=
    Silent.of_plain (weight.append (plain_mixWords mix.mode)) ':' (by decide)
  have whole := (Yields.head EffectId.blend).append
    ((arguments.silent_append .blank).silent_append
      ((yields_content h).append yields_closing))
  rw [blendText, split]
  simpa only [List.append_assoc, List.append_nil, List.singleton_append]
    using whole

/-- The calls that a statement makes with parameters of their own. -/
def Statement.calls : Statement → List Call
  | .produce _ call _ => [call]
  | .blend _ _ content _ => content.calls

/-- The names of all parameters in the statement are of some kind. -/
def Statement.Named (kind : String → Prop) (s : Statement) : Prop :=
  ∀ call ∈ s.calls, call.params.Named kind

/-- All parameters in the statement have plain names. -/
def Statement.PlainNames (s : Statement) : Prop :=
  ∀ call ∈ s.calls, call.params.PlainNames

/-- The calls in the text of a statement are what it invokes, in the same
order. -/
theorem yields_statement {s : Statement} (h : s.Named SilentName) :
    Yields s.text (s.invocations.map (·.effect)) := by
  cases s with
  | produce input call target =>
    have own := yields_text (h call List.mem_cons_self)
    have called := (yields_inputText input).silent_append own
    exact called.append (yields_writeText target)
  | blend backdrop mix content target =>
    have own := yields_blendText mix h
    have called := (yields_inputText (some backdrop)).silent_append own
    have whole := called.append (yields_writeText target)
    rw [List.append_nil] at whole
    rw [Statement.invocations, List.map_cons, List.map_map]
    exact whole

/-! ## Lines -/

theorem beginsWord_readText (b : Buffer) : BeginsWord (readText b) :=
  ⟨'r', _, rfl, by decide⟩

theorem beginsWord_text (call : Call) : BeginsWord call.text := by
  rw [Call.text, headText]
  exact (((BeginsWord.of_isIdent call.effect.space_isIdent).append
    _).append _).append _

/-- Every statement begins with a word. -/
theorem beginsWord_statement (s : Statement) : BeginsWord s.text := by
  cases s with
  | produce input call target =>
    cases input with
    | none => exact (beginsWord_text call).append _
    | some b =>
      exact (((beginsWord_readText b).append _).append _).append _
  | blend backdrop mix content target =>
    exact (((beginsWord_readText backdrop).append _).append _).append _

theorem beginsWord_renderText (b : Buffer) : BeginsWord (renderText b) :=
  ⟨'r', _, rfl, by decide⟩

theorem mem_joinWith {c : Char} {separator : List Char}
    {texts : List (List Char)} (h : c ∈ Json.joinWith separator texts) :
    c ∈ separator ∨ ∃ text ∈ texts, c ∈ text := by
  induction texts with
  | nil => cases h
  | cons text texts ih =>
    cases texts with
    | nil => exact .inr ⟨text, List.mem_cons_self, h⟩
    | cons next texts =>
      simp only [Json.joinWith, List.mem_append] at h
      rcases h with (h | h) | h
      · exact .inr ⟨text, List.mem_cons_self, h⟩
      · exact .inl h
      · rcases ih h with h | ⟨t, mem, h⟩
        · exact .inl h
        · exact .inr ⟨t, List.mem_cons_of_mem _ mem, h⟩

/-- Only letters, digits, underscores, commas and blanks stand in the
first line. -/
theorem mem_headerText {namespaces : List String}
    (h : ∀ name ∈ namespaces, isIdent name.toList = true) {c : Char}
    (hc : c ∈ headerText namespaces) :
    isIdentRest c = true ∨ c = ',' ∨ c = ' ' := by
  have word : isIdent "search".toList = true := by decide
  have split : "search ".toList = "search".toList ++ [' '] := rfl
  unfold headerText at hc
  rw [split, List.mem_append, List.mem_append] at hc
  rcases hc with (hc | hc) | hc
  · exact .inl (ProgramText.isIdentRest_of_mem word hc)
  · exact .inr (.inr (List.mem_singleton.mp hc))
  · rcases mem_joinWith hc with hc | ⟨text, mem, hc⟩
    · right
      simpa using hc
    · obtain ⟨name, hname, rfl⟩ := List.mem_map.mp mem
      exact .inl (ProgramText.isIdentRest_of_mem (h name hname) hc)

/-- The text behind the first line. -/
def body (p : Program) : List Char :=
  p.lines.tail.flatMap fun line => line ++ ['\n']

theorem chars_eq (p : Program) :
    p.chars = headerText p.namespaces ++ '\n' :: p.body := by
  rw [chars, lines, List.flatMap_cons, List.append_assoc]
  rfl

theorem body_eq (p : Program) :
    p.body =
      p.statements.flatMap (fun s => s.text ++ ['\n']) ++
        (renderText p.output ++ ['\n']) := by
  rw [body, lines, List.tail_cons, List.flatMap_append, List.flatMap_map,
    List.flatMap_singleton]

theorem beginsWord_body (p : Program) : BeginsWord p.body := by
  rw [body_eq]
  cases p.statements with
  | nil => exact (beginsWord_renderText p.output).append _
  | cons s rest =>
    exact (((beginsWord_statement s).append _).append _).append _

theorem yields_body {p : Program}
    (h : ∀ s ∈ p.statements, s.Named SilentName) :
    Yields p.body (p.invocations.map (·.effect)) := by
  have statements := Yields.flatMap fun s hs =>
    (yields_statement (h s hs)).append Yields.newline
  have last := (yields_renderText p.output).silent_append Yields.newline
  have whole := statements.append last
  simp only [List.append_nil] at whole
  rwa [← body_eq, ← List.map_flatMap] at whole

/-- The first line holds no call and hides none. -/
theorem calls_text_eq_scan {p : Program}
    (hn : ∀ name ∈ p.namespaces, isIdent name.toList = true) :
    ProgramText.calls p.text = ProgramText.scan p.body := by
  have header {c : Char} (hc : ¬(isIdentRest c = true ∨ c = ',' ∨ c = ' ')) :
      c ∉ headerText p.namespaces :=
    fun mem => hc (mem_headerText hn mem)
  calc ProgramText.calls p.text
    _ = ProgramText.scan p.chars := by
      rw [text, ProgramText.calls, String.toList_ofList]
      rfl
    _ = ProgramText.scan p.body := by
      rw [chars_eq]
      exact ProgramText.scan_line (header (by decide))
        (header (by decide)) (header (by decide)) (beginsWord_body p)

/-- The calls in the text of a program are what it invokes, in the same
order, if the names of parameters hold no call. -/
theorem calls_text_of_silent {p : Program}
    (hn : ∀ name ∈ p.namespaces, isIdent name.toList = true)
    (hs : ∀ s ∈ p.statements, s.Named SilentName) :
    ProgramText.calls p.text = p.invocations.map (·.effect) := by
  have whole := yields_body hs []
  rw [List.append_nil] at whole
  exact (calls_text_eq_scan hn).trans
    (whole.trans (List.append_nil _))

/-- The calls in the text of a program are what it invokes, in the same
order. -/
theorem calls_text {p : Program}
    (hn : ∀ name ∈ p.namespaces, isIdent name.toList = true)
    (hs : ∀ s ∈ p.statements, s.PlainNames) :
    ProgramText.calls p.text = p.invocations.map (·.effect) :=
  calls_text_of_silent hn fun s mem call mem' e he =>
    .of_plain (hs s mem call mem' e he)

/-! ## The program of a stack -/

theorem isIdent_of_mem_usedNamespaces (fallback : EffectId)
    {visible : List Layer} {name : String}
    (h : name ∈ usedNamespaces fallback visible) :
    isIdent name.toList = true := by
  unfold usedNamespaces at h
  obtain ⟨entry, he, rfl⟩ := List.mem_map.mp h
  rcases Assoc.mem_of_mem_insertAll he with he | he
  · obtain ⟨name, mem, rfl⟩ := List.mem_map.mp he
    rcases List.mem_append.mp mem with mem | mem
    · have builtIn : ∀ name ∈ [EffectId.mediaSpace, EffectId.mixerSpace],
          isIdent name.toList = true := by decide
      exact builtIn name mem
    · obtain ⟨l, -, mem⟩ := List.mem_flatMap.mp mem
      rcases List.mem_cons.mp mem with rfl | mem
      · exact (l.effectOr fallback).space_isIdent
      · obtain ⟨c, -, rfl⟩ := List.mem_map.mp mem
        exact c.effect.space_isIdent
  · cases he

section

variable {kind : String → Prop}

theorem named_insert {p : Params} (h : p.Named kind) {name : String}
    (hn : kind name) {value : Json.Value} (hv : value.Ordered) :
    (p.insert name value hv).Named kind := by
  intro e he
  rcases Assoc.mem_of_mem_insert he with rfl | he
  · exact hn
  · exact h e he

theorem named_filterChain {l : Layer} :
    ∀ {b : Buffer} {children : List ChildEffect},
      (∀ c ∈ children, c.params.Named kind) →
      ∀ s ∈ filterChain l b children, s.Named kind
  | _, [], _, _, hs => by cases hs
  | b, c :: rest, h, s, hs => by
    rw [List.forall_mem_cons] at h
    rcases List.mem_cons.mp hs with rfl | hs
    · intro call mem
      rw [List.mem_singleton.mp mem]
      exact h.1
    · exact named_filterChain h.2 s hs

theorem named_visibleChildren {l : Layer} (h : l.Named kind) :
    ∀ c ∈ l.visibleChildren, c.params.Named kind :=
  fun c hc => h.2 c (List.mem_of_mem_filter hc)

/-- The names of the parameters that a program sets by itself. -/
def ownNames : List String :=
  ["a", "b", "g", "offset", "r"]

theorem plain_ownNames : ∀ name ∈ ownNames, Plain name.toList := by
  decide

theorem silent_ownNames : ∀ name ∈ ownNames, SilentName name :=
  fun name mem => .of_plain (plain_ownNames name mem)

variable (own : ∀ name ∈ ownNames, kind name)

include own

theorem named_transparentCall (role : Role) :
    (transparentCall role).params.Named kind := by
  have empty : Params.empty.Named kind := fun _ he => by cases he
  have zero : (Json.Value.int 0).Ordered := trivial
  have r := named_insert empty (own "r" (by decide)) zero
  have g := named_insert r (own "g" (by decide)) zero
  have b := named_insert g (own "b" (by decide)) zero
  exact named_insert b (own "a" (by decide)) zero

variable {catalog : Catalog} {fallback : EffectId}

theorem named_layerParams {l : Layer} (h : l.Named kind)
    (effectClass : EffectClass) :
    (layerParams effectClass l).Named kind := by
  unfold layerParams
  split
  · exact named_insert h.1 (own "offset" (by decide)) (by
      exact ⟨Json.Value.ordered_ofFloat _, Json.Value.ordered_ofFloat _,
        trivial⟩)
  · exact h.1

theorem named_baseStatements {l : Layer} (h : l.Named kind) :
    ∀ s ∈ baseStatements catalog fallback l, s.Named kind := by
  intro s hs
  have children := named_visibleChildren h
  unfold baseStatements at hs
  dsimp only at hs
  split at hs
  · rcases List.mem_cons.mp hs with rfl | hs
    · intro call mem
      rw [List.mem_singleton.mp mem]
      exact named_insert h.1 (own "a" (by decide))
        (Json.Value.ordered_ofFloat _)
    · exact named_filterChain children s hs
  · rcases List.mem_cons.mp hs with rfl | hs
    · intro call mem
      rw [List.mem_singleton.mp mem]
      exact named_transparentCall own .backdrop
    · rw [List.mem_singleton.mp hs]
      intro call mem
      rcases List.mem_cons.mp mem with rfl | mem
      · exact named_layerParams own h _
      · obtain ⟨c, hc, rfl⟩ := List.mem_map.mp mem
        exact children c hc

theorem named_layerStatements {below : Buffer} {l : Layer}
    (h : l.Named kind) :
    ∀ s ∈ layerStatements catalog fallback below l, s.Named kind := by
  intro s hs
  rcases List.mem_cons.mp hs with rfl | hs
  · intro call mem
    rw [List.mem_singleton.mp mem]
    exact named_layerParams own h _
  · rcases List.mem_append.mp hs with hs | hs
    · exact named_filterChain (named_visibleChildren h) s hs
    · rw [List.mem_singleton.mp hs]
      intro call mem
      cases mem

theorem named_upperStatements :
    ∀ {below : Buffer} {layers : List Layer},
      (∀ l ∈ layers, l.Named kind) →
      ∀ s ∈ upperStatements catalog fallback below layers, s.Named kind
  | _, [], _, _, hs => by cases hs
  | below, l :: rest, h, s, hs => by
    rw [List.forall_mem_cons] at h
    rcases List.mem_append.mp hs with hs | hs
    · exact named_layerStatements own h.1 s hs
    · exact named_upperStatements h.2 s hs

/-- Where the names of all parameters of all layers are of some kind, and
those that a program sets by itself, so are those in every statement. -/
theorem named_stackStatements {layers : List Layer}
    (h : ∀ l ∈ layers, l.Named kind) :
    ∀ s ∈ stackStatements catalog fallback layers, s.Named kind := by
  intro s hs
  cases layers with
  | nil =>
    rw [List.mem_singleton.mp hs]
    intro call mem
    rw [List.mem_singleton.mp mem]
    exact named_transparentCall own .blank
  | cons base rest =>
    rw [List.forall_mem_cons] at h
    rcases List.mem_append.mp hs with hs | hs
    · exact named_baseStatements own h.1 s hs
    · exact named_upperStatements own h.2 s hs

end

/-- Where all parameters of all layers have plain names, so have those of
every statement. -/
theorem plainNames_stackStatements {catalog : Catalog} {fallback : EffectId}
    {layers : List Layer} (h : ∀ l ∈ layers, l.PlainNames) :
    ∀ s ∈ stackStatements catalog fallback layers, s.PlainNames :=
  named_stackStatements plain_ownNames h

/-- Where the names in layers are silent, so are those in their program,
and it calls what it invokes. -/
theorem calls_ofLayers_of_silent (catalog : Catalog) (fallback : EffectId)
    {layers : List Layer} (h : ∀ l ∈ layers, l.Named SilentName) :
    ProgramText.calls (ofLayers catalog fallback layers).text =
      (ofLayers catalog fallback layers).invocations.map (·.effect) :=
  calls_text_of_silent (fun _ => isIdent_of_mem_usedNamespaces fallback)
    (named_stackStatements silent_ownNames fun l hl =>
      h l (List.mem_of_mem_filter hl))

/-- The text of a stack's program calls exactly the effects that the
program invokes, in the same order: whatever the layers are, and whatever
stands in their parameters. Only the parameters' names must be plain. -/
theorem calls_ofLayers (catalog : Catalog) (fallback : EffectId)
    (layers : List Layer) (h : ∀ l ∈ layers, l.PlainNames) :
    ProgramText.calls (ofLayers catalog fallback layers).text =
      (ofLayers catalog fallback layers).invocations.map (·.effect) :=
  calls_text (fun _ => isIdent_of_mem_usedNamespaces fallback)
    (plainNames_stackStatements fun l hl =>
      h l (List.mem_of_mem_filter hl))

/-- Noise with a call in a string, filtered inside its own blend. -/
theorem calls_ofLayers_of_blended_base :
    let catalog : Catalog := { manifest := {}, generatorNamespaces := [] }
    let layers : List Layer :=
      [{ id := .ofNat 1
         source := .effect none
         params := Params.empty.insert "s" (.str "x.y(\"z.w(") trivial
         children :=
          [{ id := .ofNat 2
             effect := EffectId.media
             params := Params.empty.insert "a.b"
              (.obj [("c.d(", .arr [.null])])
              ⟨List.pairwise_singleton _ _, ⟨trivial, trivial⟩,
                trivial⟩ }] }]
    (∀ l ∈ layers, l.PlainNames) ∧
      ProgramText.calls (ofLayers catalog EffectId.noise layers).text =
        [EffectId.solid, EffectId.blend, EffectId.noise,
          EffectId.media] := by
  intro catalog layers
  have plain : ∀ l ∈ layers, l.PlainNames := by
    decide +kernel
  have invoked : (ofLayers catalog EffectId.noise layers).invocations.map
      (·.effect) =
        [EffectId.solid, EffectId.blend, EffectId.noise,
          EffectId.media] := by
    decide +kernel
  exact ⟨plain, (calls_ofLayers catalog EffectId.noise layers plain).trans
    invoked⟩

/-- A name with a call in it adds that call to the text. -/
example :
    (ProgramText.calls (Call.text
      { effect := EffectId.noise
        params := Params.empty.insert "a.b(" (.int 0) trivial
        role := .blank } |> String.ofList)).map EffectId.text =
      ["synth/noise", "a/b"] := by decide +kernel

end Program

end Compositing
