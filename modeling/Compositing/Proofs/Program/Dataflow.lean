/-
Compositing.Proofs.Program.Dataflow — the program of a stack as dataflow.

A statement takes the pictures in the buffers it reads and leaves one in
the buffer it writes (`Statement.picture?`). Running the statements of a
stack leaves the `composite` of the visible layers in the buffer that is
rendered (`run_stackStatements`). `dataflow_ofLayers` puts this together
with the order of reads and writes: no buffer is written twice or read too
early, and none but the rendered one is left unread.
-/
import Mathlib.Logic.Function.Basic
import Compositing.Proofs.Program.Buffers
import Compositing.Proofs.Program.Shown

namespace Compositing.Program

/-! ## Pictures -/

/-- How a picture came about. -/
inductive Picture where
  /-- A call out of nothing. -/
  | made (call : Call)
  /-- A call on a picture. -/
  | filtered (input : Picture) (call : Call)
  /-- A picture put onto another one. -/
  | blended (backdrop : Picture) (mix : Mix) (content : Picture)

/-- The picture of a call on a buffer or out of nothing. -/
def callPicture? (held : Nat → Option Picture) (input : Option Buffer)
    (call : Call) : Option Picture :=
  match input with
  | none => some (.made call)
  | some b => (held b).map (.filtered · call)

@[simp]
theorem callPicture?_none (held : Nat → Option Picture) (call : Call) :
    callPicture? held none call = some (.made call) :=
  rfl

/-- Calls on a picture, one after another. -/
def filteredBy (picture : Picture) (calls : List Call) : Picture :=
  calls.foldl .filtered picture

/-- The picture of blended content. -/
def Content.picture? (held : Nat → Option Picture) :
    Content → Option Picture
  | .buffer b => held b
  | .chain input first rest =>
    (callPicture? held input first).map (filteredBy · rest)

/-- What a statement writes, if all that it reads is there. -/
def Statement.picture? (held : Nat → Option Picture) :
    Statement → Option Picture
  | .produce input call _ => callPicture? held input call
  | .blend backdrop mix content _ => do
    let below ← held backdrop
    let shown ← content.picture? held
    some (.blended below mix shown)

/-- The pictures in the buffers behind some statements. -/
def run (held : Nat → Option Picture) : List Statement →
    Nat → Option Picture
  | [] => held
  | s :: rest => run (Function.update held s.target (s.picture? held)) rest

/-- No buffer holds a picture. -/
def unwritten : Nat → Option Picture := fun _ => none

theorem run_append (a b : List Statement) :
    ∀ held, run held (a ++ b) = run (run held a) b := by
  induction a with
  | nil => intro held; rfl
  | cons s rest ih => intro held; exact ih _

/-- Buffers before the numbered ones keep their pictures. -/
theorem Numbered.run_of_lt {ss : List Statement} :
    ∀ {n b : Nat} {held : Nat → Option Picture}, Numbered n ss → b < n →
      run held ss b = held b := by
  induction ss with
  | nil => intros; rfl
  | cons s rest ih =>
    rintro n b held ⟨target, -, more⟩ before
    calc
      run held (s :: rest) b
          = Function.update held s.target (s.picture? held) b :=
        ih more (Nat.lt_succ_of_lt before)
      _ = held b :=
        Function.update_of_ne (target ▸ Nat.ne_of_lt before) _ _

/-! ## The picture of a stack -/

section

variable (catalog : Catalog) (fallback : EffectId)

/-- What a layer shows above `below`: its own effect and then its visible
child effects, each on the picture before it. -/
def layerPicture (below : Picture) (l : Layer) : Picture :=
  let own :=
    if (catalog.classify (l.effectOr fallback)).isStandalone then
      .made (layerCall catalog fallback l)
    else .filtered below (layerCall catalog fallback l)
  filteredBy own (l.visibleChildren.map (childCall l))

/-- A layer put onto what lies beneath it. -/
def laidOver (below : Picture) (l : Layer) : Picture :=
  .blended below (mixOf l) (layerPicture catalog fallback below l)

/-- What the base shows. A base that is not flat is put onto a transparent
backdrop. -/
def basePicture (l : Layer) : Picture :=
  if IsFlat fallback l then
    filteredBy (.made (bakedCall fallback l))
      (l.visibleChildren.map (childCall l))
  else laidOver catalog fallback (.made (transparentCall .backdrop)) l

/-- What visible layers show together. -/
def composite : List Layer → Picture
  | [] => .made (transparentCall .blank)
  | base :: rest =>
    rest.foldl (laidOver catalog fallback) (basePicture catalog fallback base)

/-! ## Running the statements of a stack -/

theorem run_filterChain (l : Layer) (children : List ChildEffect) :
    ∀ {b : Nat} {picture : Picture} {held : Nat → Option Picture},
      held b = some picture →
      run held (filterChain l b children) (b + children.length) =
        some (filteredBy picture (children.map (childCall l))) := by
  induction children with
  | nil => intro b picture held start; exact start
  | cons c rest ih =>
    intro b picture held start
    have next : Function.update held (b + 1)
        (callPicture? held (some b) (childCall l c)) (b + 1) =
        some (.filtered picture (childCall l c)) := by
      rw [Function.update_self, callPicture?, start]
      rfl
    have chain := ih next
    rwa [Nat.add_right_comm] at chain

/-- What a layer's effect shows on the buffer it reads, filtered by its
child effects. -/
theorem callPicture?_layerInput {below : Nat} {picture : Picture}
    {held : Nat → Option Picture} (start : held below = some picture)
    (l : Layer) :
    (callPicture? held (layerInput catalog fallback below l)
        (layerCall catalog fallback l)).map
        (filteredBy · (l.visibleChildren.map (childCall l))) =
      some (layerPicture catalog fallback picture l) := by
  unfold layerInput layerPicture
  split <;> simp [callPicture?, start]

/-- The statements of a layer before its blend. -/
def contentStatements (below : Nat) (l : Layer) : List Statement :=
  .produce (layerInput catalog fallback below l)
      (layerCall catalog fallback l) (below + 1) ::
    filterChain l (below + 1) l.visibleChildren

/-- The blend of a layer. -/
def blendStatement (below : Nat) (l : Layer) : Statement :=
  let last := below + 1 + l.visibleChildren.length
  .blend below (mixOf l) (.buffer last) (last + 1)

theorem layerStatements_eq (below : Nat) (l : Layer) :
    layerStatements catalog fallback below l =
      contentStatements catalog fallback below l ++
        [blendStatement below l] :=
  rfl

theorem numbered_contentStatements (below : Nat) (l : Layer) :
    Numbered (below + 1) (contentStatements catalog fallback below l) :=
  (numbered_append.mp (numbered_layerStatements catalog fallback below l)).1

/-- The last buffer of a layer's chain holds what the layer shows. -/
theorem run_contentStatements {below : Nat} {picture : Picture}
    {held : Nat → Option Picture} (start : held below = some picture)
    (l : Layer) :
    run held (contentStatements catalog fallback below l)
        (below + 1 + l.visibleChildren.length) =
      some (layerPicture catalog fallback picture l) := by
  have shown := callPicture?_layerInput catalog fallback start l
  obtain ⟨own, made, filtered⟩ := Option.map_eq_some_iff.mp shown
  rw [← filtered]
  refine run_filterChain l l.visibleChildren ?_
  rw [Statement.target, Function.update_self]
  exact made

/-- The buffer of a layer's blend holds the layer put onto what lay
beneath. -/
theorem run_layerStatements {below : Nat} {picture : Picture}
    {held : Nat → Option Picture} (start : held below = some picture)
    (l : Layer) :
    run held (layerStatements catalog fallback below l)
        (below + (2 + l.visibleChildren.length)) =
      some (laidOver catalog fallback picture l) := by
  have kept : run held (contentStatements catalog fallback below l) below =
      some picture :=
    ((numbered_contentStatements catalog fallback below l).run_of_lt
      (Nat.lt_succ_self below)).trans start
  have shown := run_contentStatements catalog fallback start l
  have target : below + (2 + l.visibleChildren.length) =
      below + 1 + l.visibleChildren.length + 1 := by omega
  rw [layerStatements_eq, run_append, target]
  simp [run, blendStatement, Statement.target, Statement.picture?,
    Content.picture?, kept, shown, laidOver]

theorem run_upperStatements (layers : List Layer) :
    ∀ {below : Nat} {picture : Picture} {held : Nat → Option Picture},
      held below = some picture →
      run held (upperStatements catalog fallback below layers)
          (below + upperBuffers layers) =
        some (layers.foldl (laidOver catalog fallback) picture) := by
  induction layers with
  | nil => intro below picture held start; exact start
  | cons l rest ih =>
    intro below picture held start
    have above := ih (run_layerStatements catalog fallback start l)
    rw [Nat.add_assoc] at above
    simpa [upperStatements, run_append, upperBuffers] using above

theorem run_baseStatements (held : Nat → Option Picture) (l : Layer) :
    run held (baseStatements catalog fallback l)
        (baseBuffers fallback l - 1) =
      some (basePicture catalog fallback l) := by
  unfold baseStatements baseBuffers basePicture
  by_cases flat : IsFlat fallback l
  · rw [if_pos flat, if_pos flat,
      if_pos ((classify_eq_solid_iff catalog _).mpr flat)]
    have start : Function.update held 0
        (some (.made (bakedCall fallback l))) 0 =
          some (.made (bakedCall fallback l)) :=
      Function.update_self _ _ _
    rw [Nat.add_sub_cancel_left]
    have chain := run_filterChain l l.visibleChildren start
    rwa [Nat.zero_add] at chain
  · rw [if_neg flat, if_neg flat,
      if_neg (mt (classify_eq_solid_iff catalog _).mp flat)]
    have start : Function.update held 0
        (some (.made (transparentCall .backdrop))) 0 =
          some (.made (transparentCall .backdrop)) :=
      Function.update_self _ _ _
    have shown := callPicture?_layerInput catalog fallback start l
    simp [run, Statement.target, Statement.picture?, Content.picture?,
      shown, laidOver]

/-- The last buffer holds what the visible layers show together. -/
theorem run_stackStatements (held : Nat → Option Picture)
    (visible : List Layer) :
    run held (stackStatements catalog fallback visible)
        (stackBuffers fallback visible - 1) =
      some (composite catalog fallback visible) := by
  cases visible with
  | nil => rfl
  | cons base rest =>
    have above := run_upperStatements catalog fallback rest
      (run_baseStatements catalog fallback held base)
    rw [last_add_upperBuffers] at above
    simpa [stackStatements, run_append, composite] using above

/-! ## The dataflow of a program -/

theorem upperStatements_append (a b : List Layer) :
    ∀ below : Nat,
      upperStatements catalog fallback below (a ++ b) =
        upperStatements catalog fallback below a ++
          upperStatements catalog fallback (below + upperBuffers a) b := by
  induction a with
  | nil => intro below; rfl
  | cons l rest ih =>
    intro below
    simp [upperStatements, ih, upperBuffers, Nat.add_assoc]

/-- Layers on top of others continue their statements from the last buffer
on. -/
theorem stackStatements_append {lower : List Layer}
    (some_below : lower ≠ []) (upper : List Layer) :
    stackStatements catalog fallback (lower ++ upper) =
      stackStatements catalog fallback lower ++
        upperStatements catalog fallback (stackBuffers fallback lower - 1)
          upper := by
  cases lower with
  | nil => exact absurd rfl some_below
  | cons base rest =>
    simp [stackStatements, upperStatements_append, last_add_upperBuffers]

theorem target_getLast?_filterChain (l : Layer) (children : List ChildEffect) :
    ∀ (b : Nat) (s : Statement), s.target = b →
      (s :: filterChain l b children).getLast?.map Statement.target =
        some (b + children.length) := by
  induction children with
  | nil => intro b s target; simp [filterChain, target]
  | cons c rest ih =>
    intro b s target
    have tail := ih (b + 1) (.produce (some b) (childCall l c) (b + 1)) rfl
    rw [Nat.add_right_comm] at tail
    rwa [filterChain, List.getLast?_cons_cons]

theorem invocations_contentStatements (below : Nat) (l : Layer) :
    (contentStatements catalog fallback below l).flatMap
        Statement.invocations =
      contentInvocations fallback l := by
  rw [contentStatements, List.flatMap_cons, invocations_filterChain]
  rfl

/-- The program `p` of some layers, line by line. -/
structure Dataflow (layers : List Layer) (p : Program) : Prop where
  /-- The lines between the first and the last one are the statements,
  written piece by piece; the last one renders the output. -/
  lines : p.lines =
    headerText p.namespaces ::
      (p.statements.map (fun s => s.pieces.flatMap Piece.text) ++
        [renderText p.output])
  /-- Every buffer is written once, and in order. -/
  writes : p.statements.flatMap Statement.writes = List.range p.bufferCount
  /-- Different buffers have different names. -/
  names : Function.Injective bufferName
  /-- What a statement reads stands written on a line before. -/
  reads : ∀ before s after, p.statements = before ++ s :: after →
    ∀ b ∈ s.reads, ∃ t ∈ before, b ∈ t.writes
  /-- The last buffer is rendered. -/
  rendered : p.output + 1 = p.bufferCount
  /-- What a statement writes is rendered, or read on a line behind. -/
  used : ∀ before s after, p.statements = before ++ s :: after →
    ∀ b ∈ s.writes, b ≠ p.output → ∃ t ∈ after, b ∈ t.reads
  /-- A visible layer that has others beneath it is blended onto what they
  show together. The blend takes the last buffer of the layer's own
  statements, which stand directly before it. -/
  blends : ∀ lower l upper,
    layers.filter (·.visible) = lower ++ l :: upper → lower ≠ [] →
    ∃ before own below last target after,
      p.statements =
        before ++ (own ++
          .blend below (mixOf l) (.buffer last) target :: after) ∧
      before.flatMap Statement.invocations =
        stackInvocations fallback lower ∧
      own.flatMap Statement.invocations = contentInvocations fallback l ∧
      own.getLast?.map Statement.target = some last ∧
      run unwritten (before ++ own) below =
        some (composite catalog fallback lower) ∧
      run unwritten (before ++ own) last =
        some (layerPicture catalog fallback
          (composite catalog fallback lower) l)
  /-- The output shows all visible layers. -/
  shows : run unwritten p.statements p.output =
    some (composite catalog fallback (layers.filter (·.visible)))
  /-- How many buffers there are. -/
  count : p.bufferCount =
    stackBuffers fallback (layers.filter (·.visible))

/-- A visible layer above others, in the statements of the stack. -/
theorem blends_stackStatements {lower : List Layer} (some_below : lower ≠ [])
    (l : Layer) (upper : List Layer) :
    ∃ before own below last target after,
      stackStatements catalog fallback (lower ++ l :: upper) =
        before ++ (own ++
          .blend below (mixOf l) (.buffer last) target :: after) ∧
      before.flatMap Statement.invocations =
        stackInvocations fallback lower ∧
      own.flatMap Statement.invocations = contentInvocations fallback l ∧
      own.getLast?.map Statement.target = some last ∧
      run unwritten (before ++ own) below =
        some (composite catalog fallback lower) ∧
      run unwritten (before ++ own) last =
        some (layerPicture catalog fallback
          (composite catalog fallback lower) l) := by
  have beneath :=
    run_stackStatements catalog fallback unwritten lower
  refine ⟨stackStatements catalog fallback lower,
    contentStatements catalog fallback (stackBuffers fallback lower - 1) l,
    stackBuffers fallback lower - 1,
    stackBuffers fallback lower - 1 + 1 + l.visibleChildren.length,
    stackBuffers fallback lower - 1 + 1 + l.visibleChildren.length + 1,
    upperStatements catalog fallback
      (stackBuffers fallback lower - 1 + (2 + l.visibleChildren.length))
      upper, ?_, ?_, ?_, ?_, ?_, ?_⟩
  · rw [stackStatements_append catalog fallback some_below, upperStatements,
      length_layerStatements, layerStatements_eq, List.append_assoc]
    rfl
  · exact invocations_stackStatements catalog fallback lower
  · exact invocations_contentStatements catalog fallback _ l
  · exact target_getLast?_filterChain l l.visibleChildren _ _ rfl
  · rw [run_append]
    exact ((numbered_contentStatements catalog fallback _ l).run_of_lt
      (Nat.lt_succ_self _)).trans beneath
  · rw [run_append]
    exact run_contentStatements catalog fallback beneath l

/-- The program of layers writes each buffer once and in order, reads no
buffer before it is written, leaves none unread but the one it renders, and
puts every layer onto all those beneath it. -/
theorem dataflow_ofLayers (layers : List Layer) :
    Dataflow catalog fallback layers (ofLayers catalog fallback layers) := by
  have numbered := numbered_stackStatements catalog fallback
    (layers.filter (·.visible))
  have uses := uses_stackStatements catalog fallback
    (layers.filter (·.visible))
  have shows := run_stackStatements catalog fallback unwritten
    (layers.filter (·.visible))
  have count := length_stackStatements catalog fallback
    (layers.filter (·.visible))
  have positive := stackBuffers_pos fallback (layers.filter (·.visible))
  have output : (ofLayers catalog fallback layers).output =
      stackBuffers fallback (layers.filter (·.visible)) - 1 :=
    congrArg (· - 1) count
  -- From here on only these facts matter, not how the statements are made.
  generalize statements : stackStatements catalog fallback
    (layers.filter (·.visible)) = ss at *
  have same : (ofLayers catalog fallback layers).statements = ss := statements
  constructor
  case lines =>
    rw [Program.lines, List.map_congr_left fun s _ => text_eq_pieces s]
  case writes =>
    rw [bufferCount, same, List.range_eq_range', ← numbered.targets,
      List.map_eq_flatMap, List.flatMap_congr fun s _ => writes_eq s]
  case names => exact fun _ _ => bufferName_inj
  case reads =>
    intro before s after split
    rw [same] at split
    exact (split ▸ numbered).written_before
  case rendered =>
    rw [bufferCount, same, output, count]
    exact Nat.sub_add_cancel positive
  case used =>
    intro before s after split b writes unrendered
    rw [same] at split
    subst split
    obtain rfl : b = s.target := by simpa using writes
    rw [output, ← count] at unrendered
    rw [← count] at uses
    exact numbered.used uses unrendered
  case blends =>
    intro lower l upper visible some_below
    rw [same, ← statements, visible]
    exact blends_stackStatements catalog fallback some_below l upper
  case shows => rwa [same, output]
  case count => rwa [bufferCount, same]

end

end Compositing.Program
