/-
Compositing.Proofs.Program.Listings — the listings of a catalog and the
layers that begin with their effects.

An effect outside the built-in namespaces is a starter or a filter by
whether its class stands alone (`starters_eq_filter`, `filters_eq_filter`),
which is also what decides whether a layer reads what lies beneath it. So
the listings part the published effects in two, and the listing in which an
effect appears says how a layer of it is written
(`layers_written_as_listed`).
-/
import Compositing.Proofs.Assoc
import Compositing.Proofs.Program.Dataflow

namespace Compositing

namespace Catalog

/-! ## Classes of published effects -/

theorem not_isInternal_iff {id : EffectId} :
    (!isInternal id) = true ↔
      id.space ≠ EffectId.mediaSpace ∧ id.space ≠ EffectId.mixerSpace := by
  simp [isInternal]

/-- Outside the built-in namespaces an effect is a text, another generator
or a filter. -/
theorem classify_of_not_isInternal (c : Catalog) {id : EffectId}
    (shown : (!isInternal id) = true) :
    c.classify id = .text ∨ c.classify id = .generator ∨
      c.classify id = .filter := by
  obtain ⟨not_media, not_mixer⟩ := not_isInternal_iff.mp shown
  have not_solid : id ≠ EffectId.solid := by rintro rfl; exact not_media rfl
  have not_source : id ≠ EffectId.media := by rintro rfl; exact not_media rfl
  unfold classify
  rw [if_neg not_solid, if_neg not_source, if_neg not_mixer]
  by_cases text : (c.externalTexture? id).isSome
  · exact .inl (if_pos text)
  · by_cases generator : c.isGenerator id = true <;> simp [text, generator]

/-- A published effect that begins layers is one that stands alone. -/
theorem isStarter_eq (c : Catalog) (id : EffectId) :
    (!isInternal id &&
        (c.classify id = .generator || c.classify id = .text)) =
      (!isInternal id && (c.classify id).isStandalone) := by
  cases shown : !isInternal id
  · rfl
  · rcases c.classify_of_not_isInternal shown with text | generator | filter
    · simp [text, EffectClass.isStandalone]
    · simp [generator, EffectClass.isStandalone]
    · simp [filter, EffectClass.isStandalone]

/-- A published filter is an effect that does not stand alone. -/
theorem isFilter_eq (c : Catalog) (id : EffectId) :
    (!isInternal id && decide (c.classify id = .filter)) =
      (!isInternal id && !(c.classify id).isStandalone) := by
  cases shown : !isInternal id
  · rfl
  · rcases c.classify_of_not_isInternal shown with text | generator | filter
    · simp [text, EffectClass.isStandalone]
    · simp [generator, EffectClass.isStandalone]
    · simp [filter, EffectClass.isStandalone]

/-! ## Listings -/

theorem map_id_listing (c : Catalog) (keep : EffectId → Bool) :
    (c.listing keep).map (·.id) =
      (c.manifest.effects.map Prod.fst).filter keep := by
  rw [listing, List.map_map, List.filter_map]
  rfl

theorem mem_listing_iff {c : Catalog} {keep : EffectId → Bool}
    {e : EffectListing} :
    e ∈ c.listing keep ↔ keep e.id = true ∧ ∃ info,
      c.info? e.id = some info ∧ e.description = info.description ∧
        e.tags = info.tags := by
  simp only [info?, Manifest.get?,
    Assoc.get?_eq_some_iff_mem c.manifest.ascending, listing, List.mem_map,
    List.mem_filter, Prod.exists]
  constructor
  · rintro ⟨id, info, ⟨published, kept⟩, rfl⟩
    exact ⟨kept, info, published, rfl, rfl⟩
  · rintro ⟨kept, info, published, description, tags⟩
    exact ⟨e.id, info, ⟨published, kept⟩, by
      rw [← description, ← tags]⟩

/-- Whatever is listed stands in the order of identifiers. -/
theorem listing_ascending (c : Catalog) (keep : EffectId → Bool) :
    ((c.listing keep).map (·.id)).Pairwise (compare · · = .lt) := by
  rw [map_id_listing]
  exact c.manifest.ascending.filter keep

/-- A stricter test lists a part of what another one lists. -/
theorem listing_and (c : Catalog) (keep also : EffectId → Bool) :
    c.listing (fun id => keep id && also id) =
      (c.listing keep).filter fun e => also e.id := by
  rw [listing, listing, List.filter_map, List.filter_filter]
  congr 2
  funext ⟨id, info⟩
  exact Bool.and_comm _ _

theorem starters_eq_filter (c : Catalog) :
    c.starters = c.all.filter fun e => (c.classify e.id).isStandalone := by
  rw [starters, funext c.isStarter_eq, listing_and, all]

theorem filters_eq_filter (c : Catalog) :
    c.filters = c.all.filter fun e =>
      !(c.classify e.id).isStandalone := by
  rw [filters, funext c.isFilter_eq, listing_and, all]

/-- Starters and filters together are all that is listed. -/
theorem starters_append_filters_perm (c : Catalog) :
    (c.starters ++ c.filters).Perm c.all := by
  rw [starters_eq_filter, filters_eq_filter]
  exact List.filter_append_perm _ _

/-- Identifiers that ascend are pairwise distinct. -/
theorem nodup_map_id_listing (c : Catalog) (keep : EffectId → Bool) :
    ((c.listing keep).map (·.id)).Nodup := by
  refine (c.listing_ascending keep).imp ?_
  rintro a b lt rfl
  simp [Std.ReflCmp.compare_self] at lt

/-- No effect is listed both as a starter and as a filter. -/
theorem disjoint_starters_filters (c : Catalog) :
    List.Disjoint (c.starters.map (·.id)) (c.filters.map (·.id)) := by
  have parts := c.starters_append_filters_perm.map (·.id)
  have nodup := parts.nodup_iff.mpr (c.nodup_map_id_listing _)
  rw [List.map_append] at nodup
  exact List.disjoint_of_nodup_append nodup

theorem isStandalone_of_mem_starters {c : Catalog} {id : EffectId}
    (h : id ∈ c.starters.map (·.id)) :
    (c.classify id).isStandalone = true := by
  obtain ⟨e, mem, rfl⟩ := List.mem_map.mp h
  rw [starters_eq_filter] at mem
  exact (List.mem_filter.mp mem).2

theorem isStandalone_of_mem_filters {c : Catalog} {id : EffectId}
    (h : id ∈ c.filters.map (·.id)) :
    (c.classify id).isStandalone = false := by
  obtain ⟨e, mem, rfl⟩ := List.mem_map.mp h
  rw [filters_eq_filter] at mem
  exact Bool.not_eq_true' _ ▸ (List.mem_filter.mp mem).2

end Catalog

namespace Program

/-- What stands behind a statement's place among the lines is its text. -/
theorem lines_getElem?_of_statements {p : Program}
    {before after : List Statement} {s : Statement}
    (h : p.statements = before ++ s :: after) :
    p.lines[before.length + 1]? = some s.text := by
  simp [lines, h]

section

variable (catalog : Catalog) (fallback : EffectId)

theorem filter_visible_of_append {layers lower upper : List Layer}
    (visible : layers.filter (·.visible) = lower ++ upper) :
    lower.filter (·.visible) = lower := by
  refine List.filter_eq_self.mpr fun l mem => ?_
  have own : l ∈ layers.filter (·.visible) :=
    visible ▸ List.mem_append_left _ mem
  exact (List.mem_filter.mp own).2

/-- Where a layer stands above others, the program goes on behind the
statements of those with the layer's own call. -/
theorem statements_ofLayers_above {layers lower upper : List Layer}
    {l : Layer} (visible : layers.filter (·.visible) = lower ++ l :: upper)
    (some_below : lower ≠ []) :
    let beneath := ofLayers catalog fallback lower
    ∃ after, (ofLayers catalog fallback layers).statements =
      beneath.statements ++
        .produce (layerInput catalog fallback beneath.output l)
          (layerCall catalog fallback l) (beneath.output + 1) :: after := by
  have shown := filter_visible_of_append visible
  simp only [ofLayers, visible, shown, length_stackStatements,
    stackStatements_append catalog fallback some_below, upperStatements,
    layerStatements, List.cons_append]
  exact ⟨_, rfl⟩

/-- The listings of a catalog ascend, and starters and filters part the
published effects that are not built in. A layer above others whose effect
is a starter does not read what lies beneath it; one whose effect is a
filter runs on it. -/
theorem layers_written_as_listed :
    (∀ listing ∈ [catalog.all, catalog.starters, catalog.filters],
      (listing.map (·.id)).Pairwise (compare · · = .lt)) ∧
    List.Disjoint (catalog.starters.map (·.id))
      (catalog.filters.map (·.id)) ∧
    (catalog.starters ++ catalog.filters).Perm catalog.all ∧
    (∀ e, e ∈ catalog.all ↔
      (e.id.space ≠ EffectId.mediaSpace ∧
        e.id.space ≠ EffectId.mixerSpace) ∧
      ∃ info, catalog.info? e.id = some info ∧
        e.description = info.description ∧ e.tags = info.tags) ∧
    ∀ layers lower l upper,
      layers.filter (·.visible) = lower ++ l :: upper → lower ≠ [] →
      let p := ofLayers catalog fallback layers
      let beneath := ofLayers catalog fallback lower
      let call := layerCall catalog fallback l
      run unwritten beneath.statements beneath.output =
        some (composite catalog fallback lower) ∧
      ∃ input after,
        p.statements = beneath.statements ++
          .produce input call (beneath.output + 1) :: after ∧
        (l.effectOr fallback ∈ catalog.starters.map (·.id) →
          input = none ∧
          p.lines[beneath.statements.length + 1]? =
            some (call.text ++ writeText (beneath.output + 1))) ∧
        (l.effectOr fallback ∈ catalog.filters.map (·.id) →
          input = some beneath.output ∧
          p.lines[beneath.statements.length + 1]? =
            some (readText beneath.output ++ '.' ::
              (call.text ++ writeText (beneath.output + 1)))) := by
  refine ⟨?_, catalog.disjoint_starters_filters,
    catalog.starters_append_filters_perm, fun e => ?_, ?_⟩
  · simp only [List.forall_mem_cons, List.not_mem_nil, IsEmpty.forall_iff,
      implies_true, and_true]
    exact ⟨catalog.listing_ascending _, catalog.listing_ascending _,
      catalog.listing_ascending _⟩
  · rw [Catalog.all, Catalog.mem_listing_iff, Catalog.not_isInternal_iff]
  · intro layers lower l upper visible some_below p beneath call
    have shows := (dataflow_ofLayers catalog fallback lower).shows
    rw [filter_visible_of_append visible] at shows
    obtain ⟨after, statements⟩ :=
      statements_ofLayers_above catalog fallback visible some_below
    refine ⟨shows, _, after, statements, fun starter => ?_, fun filter => ?_⟩
    · have input : layerInput catalog fallback beneath.output l = none :=
        if_pos (Catalog.isStandalone_of_mem_starters starter)
      rw [input] at statements
      exact ⟨input, lines_getElem?_of_statements statements⟩
    · have input : layerInput catalog fallback beneath.output l =
          some beneath.output :=
        if_neg (by simp [Catalog.isStandalone_of_mem_filters filter])
      rw [input] at statements
      have line := lines_getElem?_of_statements statements
      rw [Statement.text, inputText, List.append_assoc,
        List.append_assoc] at line
      exact ⟨input, line⟩

/-- A filter layer between two layers of a starter runs on the first one,
and the last one runs on nothing. -/
theorem layers_written_as_listed_of_blur :
    let blur : EffectId := ⟨"filter", "blur", by decide, by decide⟩
    let catalog : Catalog :=
      { manifest :=
          (({} : Manifest).insert EffectId.noise { starter := true }).insert
            blur {}
        generatorNamespaces := [] }
    let layer (id : Nat) (effect : EffectId) : Layer :=
      { id := .ofNat id, source := .effect (some effect) }
    let program := ofLayers catalog EffectId.noise
    let call := layerCall catalog EffectId.noise
    let first := layer 1 EffectId.noise
    let second := layer 2 blur
    let third := layer 3 EffectId.noise
    (∃ after, (program [first, second, third]).statements =
      (program [first]).statements ++
        .produce (some 1) (call second) 2 :: after) ∧
    ∃ after, (program [first, second, third]).statements =
      (program [first, second]).statements ++
        .produce none (call third) 4 :: after := by
  intro blur catalog layer program call first second third
  obtain ⟨-, -, -, -, written⟩ :=
    layers_written_as_listed catalog EffectId.noise
  constructor
  · obtain ⟨-, input, after, statements, -, runs⟩ :=
      written [first, second, third] [first] second [third] rfl (by simp)
    obtain ⟨rfl, -⟩ := runs (by decide)
    have output : (program [first]).output = 1 := by decide +kernel
    rw [output] at statements
    exact ⟨after, statements⟩
  · obtain ⟨-, input, after, statements, alone, -⟩ :=
      written [first, second, third] [first, second] third [] rfl (by simp)
    obtain ⟨rfl, -⟩ := alone (by decide)
    have output : (program [first, second]).output = 3 := by decide +kernel
    rw [output] at statements
    exact ⟨after, statements⟩

end

end Program

end Compositing
