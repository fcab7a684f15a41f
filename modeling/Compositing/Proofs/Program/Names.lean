/-
Compositing.Proofs.Program.Names — which names of parameters leave the
calls of a program alone.

Values stand in quotes or hold no text at all, but a name stands in the
text of a program as it is. It is harmless if it ends outside quotes and
holds no call (`Harmless`). That is also what it takes: two stacks that
differ in parameters alone have the same calls, whatever the values are,
exactly as long as all names are harmless (`calls_ofLayers_eq_iff`). A
name that opens quotes turns the text behind it inside out, so that the
next string is read as part of the program; a name with a call in it is
that call.
-/
import Compositing.Proofs.Program.Calls
import Compositing.Proofs.Program.Invocations

namespace Compositing

namespace ProgramText

/-- Behind a text that ends in quotes the next quote closes them. -/
theorem exists_scan_quoted {text : List Char}
    (hq : (read .between text).2.isOpen = false) (rest : List Char) :
    ∃ calls, scan (text ++ ':' :: ' ' :: '"' :: rest) =
      calls ++ scan rest := by
  have closing : ∀ mode : Mode, mode.isOpen = false →
      tokensFrom mode (':' :: ' ' :: '"' :: rest) =
        .other :: tokensFrom .between rest := by
    intro mode hm
    cases mode with
    | quoted => rfl
    | escaped => rfl
    | between => cases hm
    | word _ => cases hm
    | number => cases hm
  refine ⟨callsFrom .anything (read .between text).1, ?_⟩
  unfold scan
  rw [tokens, tokensFrom_append, closing _ hq, callsFrom_append_other]
  rfl

end ProgramText

open ProgramText (Closes Harmless Yields)

/-! ## Layers without their parameters -/

/-- A child effect but for its parameters. -/
def ChildEffect.bare (c : ChildEffect) : ChildEffect :=
  { c with params := Params.empty }

/-- A layer but for its parameters and those of its child effects. -/
def Layer.bare (l : Layer) : Layer :=
  { l with
    params := Params.empty
    children := l.children.map ChildEffect.bare }

theorem Layer.skeleton_bare (l : Layer) : l.bare.skeleton = l.skeleton := by
  simp only [bare, skeleton, List.map_map]
  rfl

/-- Layers that differ in parameters alone have one skeleton. -/
theorem skeleton_eq_of_bare_eq {a b : List Layer}
    (h : a.map Layer.bare = b.map Layer.bare) :
    skeleton a = skeleton b := by
  have view : ∀ layers : List Layer,
      skeleton layers = skeleton (layers.map Layer.bare) := by
    intro layers
    simp only [skeleton, List.map_map, Function.comp_def,
      Layer.skeleton_bare]
  rw [view a, view b, h]

namespace Program

/-! ## A single name in a program -/

/-- A flat colour with a filter of these parameters. -/
def filteredBase (p : Params) : Layer :=
  { id := .ofNat 1
    source := .effect (some EffectId.solid)
    children := [{ id := .ofNat 2, effect := EffectId.noise, params := p }] }

/-- The call that produces the flat colour. -/
def flatCall : Call :=
  { effect := EffectId.solid
    params := bakedParams (filteredBase Params.empty)
    role := .layer (.ofNat 1) }

/-- What stands behind the arguments of the filter. -/
def behindFilter : List Char :=
  ')' :: (writeText 1 ++ '\n' :: (renderText 1 ++ ['\n']))

theorem scan_behindFilter : ProgramText.scan behindFilter = [] := by
  decide +kernel

section

variable {catalog : Catalog} {fallback : EffectId}

theorem statements_filteredBase (p : Params) :
    (ofLayers catalog fallback [filteredBase p]).statements =
      [.produce none flatCall 0,
        .produce (some 0)
          { effect := EffectId.noise
            params := p
            role := .child (.ofNat 1) (.ofNat 2) } 1] := by
  have flat : catalog.classify ((filteredBase p).effectOr fallback) =
      .solid :=
    (classify_eq_solid_iff catalog _).mpr rfl
  show stackStatements catalog fallback [filteredBase p] = _
  rw [stackStatements, baseStatements]
  dsimp only
  rw [if_pos flat]
  rfl

/-- Behind the calls of the colour and of the filter come those in the
arguments of the filter. -/
theorem calls_filteredBase (p : Params) :
    ProgramText.calls (ofLayers catalog fallback [filteredBase p]).text =
      [EffectId.solid, EffectId.noise] ++
        ProgramText.scan
          (Json.joinWith [',', ' '] (p.entries.map argumentText) ++
            behindFilter) := by
  have named : flatCall.params.Named SilentName :=
    named_insert (fun e mem => by cases mem)
      (silent_ownNames "a" (by decide)) (Json.Value.ordered_ofFloat _)
  have base := ((yields_text named).append (yields_writeText 0)).append
    Yields.newline
  have head := (yields_inputText (some 0)).silent_append
    (Yields.head EffectId.noise)
  have whole := (base.append head)
    (Json.joinWith [',', ' '] (p.entries.map argumentText) ++ behindFilter)
  rw [calls_text_eq_scan fun _ => isIdent_of_mem_usedNamespaces fallback,
    body_eq, statements_filteredBase]
  simp only [List.flatMap_cons, List.flatMap_nil, Statement.text, Call.text,
    behindFilter, inputText, List.append_assoc, List.nil_append,
    List.cons_append, List.append_nil] at whole ⊢
  exact whole

variable (catalog fallback) in
/-- A name with which no value makes a difference is harmless. -/
theorem harmless_of_calls_filteredBase {name : String}
    (same : ∀ (value : Json.Value) (hv : value.Ordered),
      ProgramText.calls (ofLayers catalog fallback
          [filteredBase (Params.empty.insert name value hv)]).text =
        ProgramText.calls (ofLayers catalog fallback
          [filteredBase Params.empty]).text) :
    Harmless name.toList := by
  have silent : ∀ value : Json.Value, value.Ordered →
      ProgramText.scan (name.toList ++ ':' :: ' ' ::
        (literal value ++ behindFilter)) = [] := by
    intro value hv
    have eq := same value hv
    rw [calls_filteredBase, calls_filteredBase,
      List.append_cancel_left_eq] at eq
    refine Eq.trans ?_ (eq.trans scan_behindFilter)
    simp only [Params.insert, Params.empty, Assoc.insert, List.map_cons,
      List.map_nil, Json.joinWith, argumentText, List.append_assoc,
      List.cons_append]
  cases ho : (ProgramText.read .between name.toList).2.isOpen with
  | true =>
    have divided := ProgramText.scan_closed ho (by decide : Closes ':')
      (' ' :: (literal .null ++ behindFilter))
    rw [silent .null trivial] at divided
    exact ⟨ho, (List.append_eq_nil_iff.mp divided.symm).1⟩
  | false =>
    -- A string closes the quotes, and what is in it is read as program.
    let call := headText EffectId.noise
    have quoted : literal (.str (String.ofList call)) =
        '"' :: (call ++ ['"']) := by
      decide +kernel
    have no_call := silent (.str (String.ofList call)) trivial
    obtain ⟨calls, eq⟩ := ProgramText.exists_scan_quoted ho
      (call ++ '"' :: behindFilter)
    rw [quoted, List.cons_append, List.append_assoc, List.singleton_append,
      eq, Yields.head EffectId.noise, List.append_eq_nil_iff] at no_call
    cases no_call.2

end

/-- Whatever the values of parameters are, parameters do not change the
calls of a program, exactly as long as all their names are harmless. -/
theorem calls_ofLayers_eq_iff (kind : String → Prop) :
    (∀ name, kind name → Harmless name.toList) ↔
      ∀ (catalog : Catalog) (fallback : EffectId)
        (layers layers' : List Layer),
        layers.map Layer.bare = layers'.map Layer.bare →
        (∀ l ∈ layers, l.Named kind) → (∀ l ∈ layers', l.Named kind) →
          ProgramText.calls (ofLayers catalog fallback layers).text =
            ProgramText.calls (ofLayers catalog fallback layers').text := by
  constructor
  · intro harmless catalog fallback layers layers' same named named'
    have silent {l : Layer} (h : l.Named kind) : l.Named SilentName :=
      h.mono fun name hn => (harmless name hn).silent
    rw [calls_ofLayers_of_silent catalog fallback fun l mem =>
        silent (named l mem),
      calls_ofLayers_of_silent catalog fallback fun l mem =>
        silent (named' l mem),
      invocations_of_skeleton_eq catalog fallback
        (skeleton_eq_of_bare_eq same)]
  · intro independent name hn
    have empty : Params.empty.Named kind := fun e mem => by cases mem
    have filtered {p : Params} (h : p.Named kind) :
        ∀ l ∈ [filteredBase p], l.Named kind :=
      List.forall_mem_singleton.mpr
        ⟨empty, List.forall_mem_singleton.mpr h⟩
    let catalog : Catalog := { manifest := {}, generatorNamespaces := [] }
    refine harmless_of_calls_filteredBase catalog EffectId.noise
      fun value hv => ?_
    exact independent catalog EffectId.noise _ _ rfl
      (filtered (named_insert empty hn hv)) (filtered empty)

/-- A pair of brackets and a call in quotes do no harm in a name; a call
by itself does, and so does a single quote. -/
example :
    Harmless "f()".toList ∧ Harmless "\"a.b(\"".toList ∧
      ¬ Harmless "a.b(".toList ∧ ¬ Harmless "\"".toList := by
  decide +kernel

/-- A stack with a call in the name of a parameter has another call than
the same stack without the parameter. -/
theorem calls_ofLayers_of_called_name :
    let catalog : Catalog := { manifest := {}, generatorNamespaces := [] }
    let p := Params.empty.insert "a.b(" (.int 0) trivial
    let layers := [filteredBase Params.empty]
    let layers' := [filteredBase p]
    layers.map Layer.bare = layers'.map Layer.bare ∧
      (ProgramText.calls (ofLayers catalog EffectId.noise layers).text).map
          EffectId.text = ["media/solid", "synth/noise"] ∧
      (ProgramText.calls (ofLayers catalog EffectId.noise layers').text).map
          EffectId.text = ["media/solid", "synth/noise", "a/b"] := by
  refine ⟨rfl, ?_, ?_⟩
  · rw [calls_filteredBase]
    decide +kernel
  · rw [calls_filteredBase]
    decide +kernel

end Program

end Compositing
