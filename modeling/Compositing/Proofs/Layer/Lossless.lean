/-
Compositing.Proofs.Layer.Lossless — a stack holds the list that it was made
of.

A list of layers is taken apart into an arena and an order, and put together
again by looking up each identity. Exactly the stackable lists are taken,
and nothing in them is lost or moved (`ofLayers_exact`): the stack holds the
list (`Holds`), so sessions and the command line make their programs of the
layers that they were given (`Serves`).
-/
import Compositing.CommandLine
import Compositing.Proofs.Layer.Refinement
import Compositing.Session.Basic

namespace Compositing

/-- Among distinct identities, the first place of an identity is the place
where it stands. -/
theorem findIdx?_eq_some_iff_of_nodup {α : Type} {key : α → LayerId}
    {items : List α} (nodup : (items.map key).Nodup) {id : LayerId}
    {i : Nat} :
    (items.findIdx? fun item => key item = id) = some i ↔
      (items[i]?).map key = some id := by
  have place {j : Nat}
      (found : (items.findIdx? fun item => key item = id) = some j) :
      (items[j]?).map key = some id := by
    obtain ⟨lt, here, -⟩ := List.findIdx?_eq_some_iff_getElem.mp found
    rw [List.getElem?_eq_getElem lt]
    exact congrArg some (of_decide_eq_true here)
  refine ⟨place, fun stands => ?_⟩
  rw [← List.getElem?_map] at stands
  have known : (items.findIdx? fun item => key item = id).isSome = true := by
    obtain ⟨item, mem, rfl⟩ := List.mem_map.mp (List.mem_of_getElem? stands)
    rw [List.findIdx?_isSome, List.any_eq_true]
    exact ⟨item, mem, decide_eq_true rfl⟩
  obtain ⟨j, found⟩ := Option.isSome_iff_exists.mp known
  have stands' := place found
  rw [← List.getElem?_map] at stands'
  have bound := (List.getElem?_eq_some_iff.mp stands').1
  rw [found, (List.getElem?_inj bound nodup).mp (stands'.trans stands.symm)]

namespace LayerStack

/-- A stack holds a list: it gives back the list, and finds each layer and
each child effect in its place and nothing else. -/
structure Holds (s : LayerStack) (layers : List Layer) : Prop where
  toList : s.toList = layers
  get : ∀ id l, s.get? id = some l ↔ l ∈ layers ∧ l.id = id
  position : ∀ id i, s.position? id = some i ↔
    (layers[i]?).map (·.id) = some id
  findChild : ∀ child owner i, s.findChild child = some (owner, i) ↔
    ∃ l ∈ layers, l.id = owner ∧ (l.children[i]?).map (·.id) = some child

/-- Where child effects have identities of their own, a child effect is
found at the place where it stands. -/
theorem Represents.findChild_eq_some_iff {s : LayerStack}
    {layers : List Layer} (h : s.Represents layers)
    (distinct : (layers.flatMap Layer.ids).Nodup) {child owner : LayerId}
    {i : Nat} :
    s.findChild child = some (owner, i) ↔
      ∃ l ∈ layers, l.id = owner ∧ (l.children[i]?).map (·.id) = some child := by
  have nodup {l : Layer} (mem : l ∈ layers) :
      (l.children.map (·.id)).Nodup :=
    (List.nodup_cons.mp (nodup_ids distinct mem)).2
  have place {owner : LayerId} {i : Nat}
      (found : s.findChild child = some (owner, i)) :
      ∃ l ∈ layers, l.id = owner ∧
        (l.children[i]?).map (·.id) = some child := by
    obtain ⟨l, mem, own, here⟩ := Composition.findChild_eq_some found
    rw [h.toList_eq] at mem
    exact ⟨l, mem, own, (findIdx?_eq_some_iff_of_nodup (nodup mem)).mp here⟩
  have child_mem {l : Layer} {i : Nat}
      (stands : (l.children[i]?).map (·.id) = some child) :
      child ∈ l.ids := by
    rw [← List.getElem?_map] at stands
    exact List.mem_cons_of_mem _ (List.mem_of_getElem? stands)
  refine ⟨place, ?_⟩
  rintro ⟨l, mem, rfl, stands⟩
  have here := (findIdx?_eq_some_iff_of_nodup (nodup mem)).mpr stands
  have known : (s.findChild child).isSome = true := by
    rw [h.findChild_eq, List.findSome?_isSome_iff]
    exact ⟨l, mem, by rw [here]; rfl⟩
  obtain ⟨⟨owner, j⟩, found⟩ := Option.isSome_iff_exists.mp known
  obtain ⟨l', mem', rfl, stands'⟩ := place found
  -- The child effect has one owner, and stands in its chain once.
  obtain rfl := eq_of_mem_ids distinct mem mem' (child_mem stands)
    (child_mem stands')
  have here' := (findIdx?_eq_some_iff_of_nodup (nodup mem)).mpr stands'
  rw [found, Option.some.inj (here.symm.trans here')]

/-- The stack of a stackable list holds it. -/
theorem holds_of_ofLayers {layers : List Layer} {s : LayerStack}
    (made : ofLayers layers = .ok s) : s.Holds layers := by
  obtain ⟨h, -⟩ := ofLayers_eq_ok_iff.mp made
  have toList := toList_of_ofLayers made
  have coherent := (sound_of_ofLayers made).coherent
  have stands : s.Represents layers := ⟨coherent, toList⟩
  exact
    { toList := toList
      get := fun id l => by rw [coherent.get?_eq_some_iff, toList]
      position := fun id i => by
        rw [stands.position?_eq]
        exact findIdx?_eq_some_iff_of_nodup h.nodup_map_id
      findChild := fun _ _ _ => stands.findChild_eq_some_iff h.distinct }

end LayerStack

/-- A session is opened over the stack of its layers. -/
theorem Session.ofLayers_eq {σ ρ : Type} (engine : σ) (rasterizer : Option ρ)
    (config : Config) {layers : List Layer} {s : LayerStack}
    (made : LayerStack.ofLayers layers = .ok s) :
    Session.ofLayers engine rasterizer config layers =
      .ok
        { engine := engine
          rasterizer := rasterizer
          config := config
          composition := Composition.ofStack IdSource.fresh s
          compiled := none
          stale := true
          revision := 0
          generation := 0
          journal := [] } := by
  rw [Session.ofLayers, made]
  rfl

/-- Layers that were read make a stack or are refused with the stack's
error. -/
theorem CommandLine.readStack_eq {files : String → File} {path : String}
    {layers : List Layer} (read : readLayers files path = .ok layers) :
    readStack files path =
      (LayerStack.ofLayers layers).mapError Error.message := by
  rw [readStack, read]
  rfl

/-- What the command line prints of a list of layers, with no stack in
between. -/
def CommandLine.printed (files : String → File) (layers : List Layer)
    (manifest config : Option String) (invocations : Bool) :
    Except String (String × String) := do
  let manifest ← readManifest files manifest
  let config ← readConfig files config
  let catalog : Catalog :=
    { manifest := manifest
      generatorNamespaces := config.generatorNamespaces }
  let p := Program.ofLayers catalog config.defaultGenerator layers
  return (p.text, if invocations then invocationList p else "")

/-! ## Who makes stacks -/

open CommandLine (File readLayers output printed)

/-- Through the stack sessions and the command line make their programs of
the very layers that they were given. -/
structure LayerStack.Serves (s : LayerStack) (layers : List Layer) :
    Prop where
  session : ∀ {σ ρ : Type} [EffectEngine σ] (engine : σ)
      (rasterizer : Option ρ) (config : Config), ∃ t,
    Session.ofLayers engine rasterizer config layers = .ok t ∧
      t.stack = s ∧ t.layers = layers ∧
      t.programOf t.layers =
        Program.ofLayers
          { manifest := EffectEngine.manifest engine
            generatorNamespaces := config.generatorNamespaces }
          config.defaultGenerator layers
  commandLine : ∀ (files : String → File) (path : String)
      (manifest config : Option String) (invocations : Bool),
    readLayers files path = .ok layers →
      output files (.program path manifest config invocations) =
        printed files layers manifest config invocations

/-- Sessions and the command line pass the error of a list on. -/
structure TurnedAway (layers : List Layer) (e : Error) : Prop where
  session : ∀ {σ ρ : Type} (engine : σ) (rasterizer : Option ρ)
      (config : Config),
    Session.ofLayers engine rasterizer config layers = .error e
  commandLine : ∀ (files : String → File) (path : String)
      (manifest config : Option String) (invocations : Bool),
    readLayers files path = .ok layers →
      output files (.program path manifest config invocations) =
        .error e.message

theorem LayerStack.serves_of_ofLayers {layers : List Layer} {s : LayerStack}
    (made : ofLayers layers = .ok s) : s.Serves layers where
  session := by
    intro σ ρ _ engine rasterizer config
    have toList := toList_of_ofLayers made
    have opened := Session.ofLayers_eq engine rasterizer config made
    exact ⟨_, opened, rfl, toList,
      congrArg (Program.ofLayers _ config.defaultGenerator) toList⟩
  commandLine := by
    intro files path manifest config invocations read
    rw [output, CommandLine.readStack_eq read, made,
      ← toList_of_ofLayers made]
    rfl

theorem turnedAway_of_ofLayers {layers : List Layer} {e : Error}
    (refused : LayerStack.ofLayers layers = .error e) :
    TurnedAway layers e where
  session := by
    intro σ ρ engine rasterizer config
    rw [Session.ofLayers, refused]
    rfl
  commandLine := by
    intro files path manifest config invocations read
    rw [output, CommandLine.readStack_eq read, refused]
    rfl

/-- Exactly the lists with a layer, with finite opacities and with distinct
identities make a stack. The stack holds the list and serves for it; any
other list is turned away. -/
theorem ofLayers_exact (layers : List Layer) :
    ((∃ s, LayerStack.ofLayers layers = .ok s) ↔
      layers ≠ [] ∧ (∀ l ∈ layers, l.opacity.isFinite = true) ∧
        (layers.flatMap Layer.ids).Nodup) ∧
    (∀ s, LayerStack.ofLayers layers = .ok s →
      s.Holds layers ∧ s.Serves layers) ∧
    ∀ e, LayerStack.ofLayers layers = .error e → TurnedAway layers e := by
  refine ⟨⟨?stackable, ?taken⟩, fun s made => ⟨?_, ?_⟩,
    fun e => turnedAway_of_ofLayers⟩
  case stackable =>
    rintro ⟨s, made⟩
    obtain ⟨h, -⟩ := LayerStack.ofLayers_eq_ok_iff.mp made
    exact ⟨h.nonempty, h.finite, h.distinct⟩
  case taken =>
    rintro ⟨nonempty, finite, distinct⟩
    exact LayerStack.exists_ofLayers ⟨nonempty, finite, distinct⟩
  · exact LayerStack.holds_of_ofLayers made
  · exact LayerStack.serves_of_ofLayers made

/-- Two layers with child effects make a stack that finds the second child
effect of the upper one; the same layers with one identity for both are
turned away. -/
theorem ofLayers_exact_of_children :
    let layers (last : LayerId) : List Layer :=
      [{ id := .ofNat 7, source := .effect none
         children := [{ id := .ofNat 3, effect := EffectId.blend }] },
        { id := .ofNat 2, source := .media "a.png" .image
          children :=
            [{ id := .ofNat 9, effect := EffectId.blend },
              { id := last, effect := EffectId.blend }] }]
    (∃ s, LayerStack.ofLayers (layers (.ofNat 4)) = .ok s ∧
      s.Holds (layers (.ofNat 4)) ∧
      s.findChild (.ofNat 4) = some (.ofNat 2, 1)) ∧
    ∃ e, LayerStack.ofLayers (layers (.ofNat 3)) = .error e ∧
      TurnedAway (layers (.ofNat 3)) e := by
  intro layers
  constructor
  · obtain ⟨made, holds, -⟩ := ofLayers_exact (layers (.ofNat 4))
    obtain ⟨s, eq⟩ := made.mpr (by decide +kernel)
    obtain ⟨held, -⟩ := holds s eq
    exact ⟨s, eq, held, (held.findChild _ _ _).mpr (by decide)⟩
  · obtain ⟨made, -, turnedAway⟩ := ofLayers_exact (layers (.ofNat 3))
    have bad : ¬ (layers (.ofNat 3) ≠ [] ∧
        (∀ l ∈ layers (.ofNat 3), l.opacity.isFinite = true) ∧
          ((layers (.ofNat 3)).flatMap Layer.ids).Nodup) := by
      decide +kernel
    cases result : LayerStack.ofLayers (layers (.ofNat 3)) with
    | ok s => exact absurd (made.mp ⟨s, result⟩) bad
    | error e => exact ⟨e, rfl, turnedAway e result⟩

end Compositing
