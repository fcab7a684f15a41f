/-
Compositing.Proofs.Workspace.Skipped — what a skipped rebuild leaves.

A rebuild is skipped by the text alone. What the engine then holds is what
it was given with that text and what it has taken since, and it was last
asked to hold just what the program gives (`Reachable.live_of_skipped`).
So the one thing that a skip can leave wrong is a value that the engine
has refused: if a change goes through and taking it back does not, the
text is the old one and the value the new one. Two kinds of parameters are
settled elsewhere: the extents of textures are told with the textures, and
an offset among the own parameters of media or texts is pushed but not
synthesized.
-/
import Compositing.Proofs.Session.Detection
import Compositing.Proofs.Session.Mirror

namespace Compositing.Workspace

open Json (Value)

variable {σ ρ : Type} [EffectEngine σ] [TextRasterizer ρ]

/-- In every reachable workspace a session that is not stale tracks its
commit. -/
theorem Reachable.tracks {w : Workspace σ ρ} (h : w.Reachable)
    (stock : w.InStock) (fresh : w.session.stale = false) :
    ∃ made, w.session.Tracks made := by
  obtain ⟨_, _, _, _, s, start, acts⟩ := h.exists_acts
  obtain ⟨_, _, _, _, stale, _⟩ := ofLayers_eq_ok start
  have sound : s.composition.Sound := sound_ofLayers start
  refine acts.keep (fun s => s.stale = false → ∃ made, s.Tracks made)
    (fun act sound sound' tracks => act.tracks sound sound' tracks) stock
    sound ?_ fresh
  intro fresh
  rw [stale] at fresh
  cases fresh

/-- When a rebuild is skipped, the engine was last asked to hold for every
parameter of a layer or child effect what the program gives, and holds it
unless it has refused just that. The last commit is supposed to be laid
out in order. -/
theorem Reachable.live_of_skipped {w : Workspace σ ρ} (h : w.Reachable)
    (stock : w.InStock) {made : Commit} {g : PipelineGraph}
    (last : w.session.lastCommit? = some made)
    (graph : made.graph? = some g)
    (laidOut : StepMap.LaidOut made.program g) {report : CompileReport}
    (built : (w.session.rebuild false).1 = .ok report)
    (skipped : report.skipped = true) {id : LayerId} {step : Nat}
    (mapped : (w.session.rebuild false).2.step? id = some step)
    {key : String} {value : Value}
    (gives : (w.session.rebuild false).2.Gives id key value)
    (free : (w.session.rebuild false).2.Uncontested id step key) :
    let s := (w.session.rebuild false).2
    s.asked? step key = some value ∧
      (s.isOwed step key = false → s.live? step key = some value) := by
  obtain ⟨-, eq, fresh, -⟩ := Session.rebuild_of_skipped built skipped
  rw [eq] at mapped gives free ⊢
  obtain ⟨made', tracks⟩ := h.tracks stock fresh
  obtain rfl := Option.some.inj (last.symm.trans tracks.inStep.lastCommit)
  rw [(tracks.inStep.step?_eq fresh id).1] at mapped
  have asked := tracks.mirrors g graph laidOut mapped gives free
  exact ⟨asked, fun paid => (Session.live?_eq_asked? paid).trans asked⟩

/-! ## On the simulated engine -/

omit [EffectEngine σ] [TextRasterizer ρ] in
/-- The last commit of a session, if its passes are those of its
invocations. -/
theorem exists_laidOut {s : Session σ ρ} {g : PipelineGraph}
    (steps : (g.passes.map (·.step)).Nodup)
    (last : (s.lastCommit?.map fun made =>
        (made.graph?, made.program.invocations.map (·.effect))) =
      some (some g, g.passes.map (·.effect))) :
    ∃ made, s.lastCommit? = some made ∧ made.graph? = some g ∧
      StepMap.LaidOut made.program g := by
  obtain ⟨made, last, eq⟩ := Option.map_eq_some_iff.mp last
  obtain ⟨graph, effects⟩ := Prod.mk.inj eq
  exact ⟨made, last, graph, effects.symm, steps⟩

omit [TextRasterizer ρ] in
/-- A value that the program gives, known by its text. -/
theorem exists_gives {s : Session σ ρ} {id : LayerId} {key : String}
    {text : List Char}
    (shown : (((s.programOf s.layers).statements.flatMap
      Program.Statement.calls).any fun call =>
        call.role = .layer id ∧
          (call.params.get? key).map Program.literal = some text) = true) :
    ∃ value, s.Gives id key value ∧ Program.literal value = text := by
  obtain ⟨call, mem, both⟩ := List.any_eq_true.mp shown
  obtain ⟨role, said⟩ := of_decide_eq_true both
  obtain ⟨value, given, literal⟩ := Option.map_eq_some_iff.mp said
  exact ⟨value, ⟨call, ⟨mem, by rw [role]; rfl⟩, given⟩, literal⟩

/-- A reddish flat base. -/
def reddishLayers : List Layer :=
  [{ id := .ofNat 1
     source := .effect (some EffectId.solid)
     params := Params.empty.insert "r" (.int 1) trivial }]

theorem stackable_reddishLayers : Stackable reddishLayers := by
  decide +kernel

/-- A value for the red of the base. -/
def red (n : Int) : SessionCommand :=
  .updateParams (.ofNat 1) (Params.empty.insert "r" (.int n) trivial)

/-- The passes of a flat base alone. -/
def flatGraph : PipelineGraph :=
  { passes := [{ effect := EffectId.solid, step := 0 }] }

/-- The red is changed and changed back. -/
theorem live_of_skipped_of_restored :
    let w := ((simulated {} reddishLayers).run
      [.session (.rebuild false), .session (red 2), .session (red 1)]).2
    let s := (w.session.rebuild false).2
    w.Reachable ∧ w.InStock ∧
      (∃ made, w.session.lastCommit? = some made ∧
        made.graph? = some flatGraph ∧
        StepMap.LaidOut made.program flatGraph) ∧
      (w.session.rebuild false).1 = .ok { skipped := true, mapped := 1 } ∧
      s.step? (.ofNat 1) = some 0 ∧ s.Uncontested (.ofNat 1) 0 "r" ∧
      s.isOwed 0 "r" = false ∧
      ∃ value, s.Gives (.ofNat 1) "r" value ∧
        Program.literal value = ['1'] ∧ s.asked? 0 "r" = some value ∧
        s.live? 0 "r" = some value := by
  intro w s
  have reachable : w.Reachable :=
    (reachable_simulated {} stackable_reddishLayers).run _
  have stock : w.InStock := by decide +kernel
  have committed : (w.session.lastCommit?.map fun made =>
      (made.graph?, made.program.invocations.map (·.effect))) =
        some (some flatGraph, flatGraph.passes.map (·.effect)) := by
    decide +kernel
  obtain ⟨made, last, graph, laidOut⟩ := exists_laidOut (by decide) committed
  have skipped : (w.session.rebuild false).1.toOption =
      some { skipped := true, mapped := 1 } := by
    decide +kernel
  have skipped := Session.toOption_eq_some skipped
  have mapped : s.step? (.ofNat 1) = some 0 := by decide +kernel
  have free : s.Uncontested (.ofNat 1) 0 "r" :=
    ⟨fun isSize => absurd isSize (by decide),
      fun isOffset => absurd isOffset (by decide)⟩
  have paid : s.isOwed 0 "r" = false := by decide +kernel
  have given : ∃ value, s.Gives (.ofNat 1) "r" value ∧
      Program.literal value = ['1'] := exists_gives (by decide +kernel)
  obtain ⟨value, gives, literal⟩ := given
  obtain ⟨asked, live⟩ := reachable.live_of_skipped stock last graph laidOut
    skipped rfl mapped gives free
  exact ⟨reachable, stock, ⟨made, last, graph, laidOut⟩, skipped, mapped,
    free, paid, value, gives, literal, asked, live paid⟩

/-- Wherever a rebuild is skipped after a commit that was laid out in order,
the engine holds what the program gives to parameters of some kind. -/
def LiveWhenSkipped (σ ρ : Type) [EffectEngine σ] [TextRasterizer ρ]
    (kind : Session σ ρ → Nat → String → Prop) : Prop :=
  ∀ (w : Workspace σ ρ) (made : Commit) (g : PipelineGraph)
    (report : CompileReport), w.Reachable → w.InStock →
    w.session.lastCommit? = some made → made.graph? = some g →
    StepMap.LaidOut made.program g →
    (w.session.rebuild false).1 = .ok report → report.skipped = true →
    let s := (w.session.rebuild false).2
    ∀ id step key value, s.step? id = some step → s.Gives id key value →
      kind s step key → s.live? step key = some value

/-- A value in the engine that reads other than the program's. -/
theorem not_liveWhenSkipped {kind : Session σ ρ → Nat → String → Prop}
    {w : Workspace σ ρ} (reachable : w.Reachable) (stock : w.InStock)
    {g : PipelineGraph} (steps : (g.passes.map (·.step)).Nodup)
    (committed : (w.session.lastCommit?.map fun made =>
        (made.graph?, made.program.invocations.map (·.effect))) =
      some (some g, g.passes.map (·.effect)))
    {report : CompileReport}
    (built : (w.session.rebuild false).1.toOption = some report)
    (skipped : report.skipped = true) {id : LayerId} {step : Nat}
    (mapped : w.session.step? id = some step) {key : String}
    {text text' : List Char}
    (gives : ∃ value, w.session.Gives id key value ∧
      Program.literal value = text)
    (of_kind : kind w.session step key)
    (held : (w.session.live? step key).map Program.literal = some text')
    (other : text ≠ text') : ¬ LiveWhenSkipped σ ρ kind := by
  intro all
  obtain ⟨made, last, graph, laidOut⟩ := exists_laidOut steps committed
  obtain ⟨value, gives, literal⟩ := gives
  have built := Session.toOption_eq_some built
  have live := all w made g report reachable stock last graph laidOut built
    skipped id step key value
  rw [(Session.rebuild_of_skipped built skipped).2.1] at live
  rw [live mapped gives of_kind, Option.map_some, literal] at held
  exact other (Option.some.inj held)

/-- An engine that refuses pushes from now on. -/
def refusing (e : Simulated.Engine) : Simulated.Engine :=
  { e with settings := { failPushSteps := [0] } }

theorem sameManifest_refusing (e : Simulated.Engine) :
    SameManifest e (refusing e) :=
  fun _ => rfl

/-- The red is changed. -/
def reddened : Workspace Simulated.Engine Simulated.Rasterizer :=
  ((simulated {} reddishLayers).run
    [.session (.rebuild false), .session (red 2)]).2

/-- The red is changed, and then the engine refuses to have it changed
back. -/
def refused : Workspace Simulated.Engine Simulated.Rasterizer :=
  (run
    { reddened with
      session :=
        { reddened.session with engine := refusing reddened.session.engine } }
    [.session (red 1)]).2

theorem reachable_refused : refused.Reachable := by
  have reachable : reddened.Reachable :=
    (reachable_simulated {} stackable_reddishLayers).run _
  have same := sameManifest_refusing reddened.session.engine
  exact (Reachable.drift _ same reachable).run _

/-- An image with an extent among its own parameters. -/
def sizedLayers : List Layer :=
  [{ id := .ofNat 1
     source := .media "a.png" .image
     params := Params.empty.insert "imageSize" (.int 1) trivial }]

theorem stackable_sizedLayers : Stackable sizedLayers := by
  decide +kernel

/-- These layers have been compiled, and then another offset was put among
the parameters of the image. -/
def overwritten : Workspace Simulated.Engine Simulated.Rasterizer :=
  ((simulated {} sizedLayers).run
    [.session (.rebuild false),
      .session (.updateParams (.ofNat 1)
        (Params.empty.insert "offset" (.arr [.int 5, .int 5])
          ⟨trivial, trivial, trivial⟩))]).2

/-- The passes of media on a backdrop. -/
def blendedGraph : PipelineGraph :=
  { passes :=
      [{ effect := EffectId.solid, step := 0 },
        { effect := EffectId.blend, step := 1 },
        { effect := EffectId.media, step := 2 }] }

/-- The image was compiled over a transparent backdrop, and the rebuild is
skipped. -/
theorem skipped_overwritten :
    overwritten.Reachable ∧ overwritten.InStock ∧
      (overwritten.session.lastCommit?.map fun made =>
          (made.graph?, made.program.invocations.map (·.effect))) =
        some (some blendedGraph, blendedGraph.passes.map (·.effect)) ∧
      (overwritten.session.rebuild false).1.toOption =
        some { skipped := true, mapped := 1 } ∧
      overwritten.session.step? (.ofNat 1) = some 2 :=
  ⟨(reachable_simulated {} stackable_sizedLayers).run _,
    by decide +kernel⟩

/-- The program gives the parameters of the layer, but for the offset. -/
theorem gives_overwritten :
    (∃ value, overwritten.session.Gives (.ofNat 1) "imageSize" value ∧
        Program.literal value = "1".toList) ∧
      ∃ value, overwritten.session.Gives (.ofNat 1) "offset" value ∧
        Program.literal value = "[0, 0]".toList :=
  ⟨exists_gives (by decide +kernel), exists_gives (by decide +kernel)⟩

/-- The engine has taken the extent of the texture and the other offset. -/
theorem held_overwritten :
    let s := overwritten.session
    (s.isOwed 2 "imageSize" = false ∧
        (s.live? 2 "imageSize").map Program.literal =
          some "[640, 360]".toList) ∧
      s.isOwed 2 "offset" = false ∧
        (s.live? 2 "offset").map Program.literal = some "[5, 5]".toList := by
  decide +kernel

/-- A refused value leaves the engine with another one. -/
theorem not_live_of_refused :
    ¬ LiveWhenSkipped Simulated.Engine Simulated.Rasterizer
      (fun _ _ key => key ≠ "imageSize" ∧ key ≠ "offset") := by
  have given : ∃ value, refused.session.Gives (.ofNat 1) "r" value ∧
      Program.literal value = "1".toList := exists_gives (by decide +kernel)
  have state : refused.InStock ∧
      (refused.session.lastCommit?.map fun made =>
          (made.graph?, made.program.invocations.map (·.effect))) =
        some (some flatGraph, flatGraph.passes.map (·.effect)) ∧
      (refused.session.rebuild false).1.toOption =
        some { skipped := true, mapped := 1 } ∧
      refused.session.step? (.ofNat 1) = some 0 ∧
      (refused.session.live? 0 "r").map Program.literal =
        some "2".toList := by
    decide +kernel
  obtain ⟨stock, committed, skipped, mapped, held⟩ := state
  exact not_liveWhenSkipped reachable_refused stock (by decide) committed
    skipped rfl mapped given (by decide) held (by decide)

/-- What the engine holds is not always what the program gives: the engine
may have refused it, it may be the extent of a texture, and it may be an
offset in place of that of the layer. -/
theorem skipped_but_not_live :
    ¬ LiveWhenSkipped Simulated.Engine Simulated.Rasterizer
        (fun _ _ key => key ≠ "imageSize" ∧ key ≠ "offset") ∧
      ¬ LiveWhenSkipped Simulated.Engine Simulated.Rasterizer
        (fun s step key => s.isOwed step key = false ∧ key ≠ "offset") ∧
      ¬ LiveWhenSkipped Simulated.Engine Simulated.Rasterizer
        (fun s step key => s.isOwed step key = false ∧
          key ≠ "imageSize") := by
  obtain ⟨reachable, stock, committed, skipped, mapped⟩ :=
    skipped_overwritten
  obtain ⟨size, offset⟩ := gives_overwritten
  obtain ⟨⟨paidSize, heldSize⟩, paidOffset, heldOffset⟩ := held_overwritten
  refine ⟨not_live_of_refused, ?size, ?offset⟩
  case size =>
    exact not_liveWhenSkipped reachable stock (by decide) committed skipped
      rfl mapped size ⟨paidSize, by decide⟩ heldSize (by decide)
  case offset =>
    exact not_liveWhenSkipped reachable stock (by decide) committed skipped
      rfl mapped offset ⟨paidOffset, by decide⟩ heldOffset (by decide)

end Compositing.Workspace
