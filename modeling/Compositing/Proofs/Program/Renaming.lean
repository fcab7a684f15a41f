/-
Compositing.Proofs.Program.Renaming — identities only label.

A program has the identities of layers in the roles of its invocations
and writes them nowhere in its text. So layers under other identities
have the same program with its roles renamed (`ofLayers_renamed`), which
shows neither in its text (`text_renamed`) nor in its buffers. The
renaming need not keep identities apart.
-/
import Compositing.Program.Synthesis

namespace Compositing

/-! ## Renaming -/

/-- The child effect under another identity. -/
def ChildEffect.renamed (f : LayerId → LayerId) (c : ChildEffect) :
    ChildEffect :=
  { c with id := f c.id }

/-- The layer and its child effects under other identities. -/
def Layer.renamed (f : LayerId → LayerId) (l : Layer) : Layer :=
  { l with id := f l.id, children := l.children.map (·.renamed f) }

/-- The role for layers under other identities. -/
def Role.renamed (f : LayerId → LayerId) : Role → Role
  | .backdrop => .backdrop
  | .blank => .blank
  | .layer id => .layer (f id)
  | .child owner id => .child (f owner) (f id)
  | .blend id => .blend (f id)

def Invocation.renamed (f : LayerId → LayerId) (inv : Invocation) :
    Invocation :=
  { inv with role := inv.role.renamed f }

namespace Program

variable (f : LayerId → LayerId)

def Call.renamed (c : Call) : Call :=
  { c with role := c.role.renamed f }

def Mix.renamed (m : Mix) : Mix :=
  { m with layer := f m.layer }

def Content.renamed : Content → Content
  | .buffer b => .buffer b
  | .chain input first rest =>
    .chain input (first.renamed f) (rest.map (·.renamed f))

def Statement.renamed : Statement → Statement
  | .produce input call target => .produce input (call.renamed f) target
  | .blend backdrop mix content target =>
    .blend backdrop (mix.renamed f) (content.renamed f) target

/-- The program for layers under other identities. -/
def renamed (p : Program) : Program :=
  { p with statements := p.statements.map (·.renamed f) }

/-! ## What a renamed program writes and invokes -/

theorem chainText_renamed :
    ∀ calls : List Call,
      chainText (calls.map (·.renamed f)) = chainText calls
  | [] => rfl
  | c :: rest => by
    rw [List.map_cons, chainText, chainText, chainText_renamed rest]
    rfl

theorem Content.text_renamed (c : Content) : (c.renamed f).text = c.text := by
  cases c with
  | buffer => rfl
  | chain input first rest =>
    rw [renamed, text, text, chainText_renamed]
    rfl

theorem Statement.text_renamed (s : Statement) :
    (s.renamed f).text = s.text := by
  cases s with
  | produce => rfl
  | blend backdrop mix content target =>
    rw [renamed, text, text, blendText, blendText, content.text_renamed]
    rfl

/-- Renamed programs have one text. -/
theorem text_renamed (p : Program) : (p.renamed f).text = p.text := by
  have lines : (p.renamed f).lines = p.lines := by
    simp only [lines, renamed, List.map_map, Function.comp_def,
      Statement.text_renamed]
  rw [text, text, chars, chars, lines]

theorem bufferCount_renamed (p : Program) :
    (p.renamed f).bufferCount = p.bufferCount :=
  List.length_map _

theorem Statement.invocations_renamed (s : Statement) :
    (s.renamed f).invocations = s.invocations.map (·.renamed f) := by
  cases s with
  | produce => rfl
  | blend backdrop mix content target =>
    cases content with
    | buffer => rfl
    | chain input first rest =>
      simp only [renamed, Content.renamed, invocations, Content.calls,
        List.map_cons, List.map_map]
      rfl

/-- The invocations of a renamed program are those of the program, in
renamed roles. -/
theorem invocations_renamed (p : Program) :
    (p.renamed f).invocations = p.invocations.map (·.renamed f) := by
  simp only [invocations, renamed, List.flatMap_map, List.map_flatMap,
    Statement.invocations_renamed]

/-! ## The program of renamed layers -/

theorem visibleChildren_renamed (l : Layer) :
    (l.renamed f).visibleChildren =
      l.visibleChildren.map (·.renamed f) := by
  unfold Layer.visibleChildren Layer.renamed
  rw [List.filter_map]
  rfl

theorem filterChain_renamed (l : Layer) :
    ∀ (b : Buffer) (children : List ChildEffect),
      filterChain (l.renamed f) b (children.map (·.renamed f)) =
        (filterChain l b children).map (·.renamed f)
  | _, [] => rfl
  | b, c :: rest => by
    rw [List.map_cons, filterChain, filterChain,
      filterChain_renamed l (b + 1) rest]
    rfl

section

variable (catalog : Catalog) (fallback : EffectId)

theorem baseStatements_renamed (l : Layer) :
    baseStatements catalog fallback (l.renamed f) =
      (baseStatements catalog fallback l).map (·.renamed f) := by
  unfold baseStatements
  dsimp only
  rw [visibleChildren_renamed, filterChain_renamed]
  by_cases flat : catalog.classify (l.effectOr fallback) = .solid
  · rw [if_pos flat]
    exact if_pos flat
  · rw [if_neg flat]
    refine (if_neg flat).trans ?_
    simp only [List.map_cons, Statement.renamed, Content.renamed,
      List.map_map]
    rfl

theorem layerStatements_renamed (below : Buffer) (l : Layer) :
    layerStatements catalog fallback below (l.renamed f) =
      (layerStatements catalog fallback below l).map (·.renamed f) := by
  unfold layerStatements
  dsimp only
  rw [visibleChildren_renamed, filterChain_renamed, List.length_map,
    List.map_cons, List.map_append]
  rfl

theorem upperStatements_renamed :
    ∀ (below : Buffer) (layers : List Layer),
      upperStatements catalog fallback below (layers.map (·.renamed f)) =
        (upperStatements catalog fallback below layers).map (·.renamed f)
  | _, [] => rfl
  | below, l :: rest => by
    rw [List.map_cons, upperStatements, upperStatements,
      layerStatements_renamed, List.length_map, upperStatements_renamed,
      List.map_append]

theorem stackStatements_renamed (visible : List Layer) :
    stackStatements catalog fallback (visible.map (·.renamed f)) =
      (stackStatements catalog fallback visible).map (·.renamed f) := by
  cases visible with
  | nil => rfl
  | cons base rest =>
    rw [List.map_cons, stackStatements, stackStatements,
      baseStatements_renamed, List.length_map, upperStatements_renamed,
      List.map_append]

theorem usedNamespaces_renamed (visible : List Layer) :
    usedNamespaces fallback (visible.map (·.renamed f)) =
      usedNamespaces fallback visible := by
  have own : ∀ l, layerNamespaces fallback (l.renamed f) =
      layerNamespaces fallback l := by
    intro l
    rw [layerNamespaces, visibleChildren_renamed, List.map_map]
    rfl
  simp only [usedNamespaces, List.flatMap_map, own]

/-- The program of renamed layers is the program, renamed. -/
theorem ofLayers_renamed (layers : List Layer) :
    ofLayers catalog fallback (layers.map (·.renamed f)) =
      (ofLayers catalog fallback layers).renamed f := by
  have visible : (layers.map (·.renamed f)).filter (·.visible) =
      (layers.filter (·.visible)).map (·.renamed f) := by
    rw [List.filter_map]
    rfl
  unfold ofLayers
  dsimp only
  rw [visible, stackStatements_renamed, usedNamespaces_renamed,
    List.length_map]
  rfl

end

end Program

end Compositing
