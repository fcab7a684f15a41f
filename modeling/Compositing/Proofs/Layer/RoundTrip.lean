/-
Compositing.Proofs.Layer.RoundTrip — layers that are written can be read.

Every record of a layer has its table of members: what may stand under a
name and when it may be left out (`forms`). A document writes the record
if its members are those of the table, in any order and next to any others
(`WrittenAs`). Each record is read from whatever writes it, from the inside
out, and its value, written again, writes it as well. So a list of layers
is read back from every way to write it (`reads_what_was_written`).

The source of a layer is the one record whose members are gone through
twice, first for its kind.
-/
import Compositing.Layer.Document
import Compositing.Proofs.Effect.Id
import Compositing.Proofs.Json.Written

namespace Compositing

open Json (Document Decoder Field Writes WritesEach Fills Settles given
  given_nil given_cons_self given_cons_of_ne given_of_mem getD_given
  bind_once once_given skip_eq_ok settles_ofValue settles_ofFloat
  settles_value)

/-! ## Single values -/

theorem BlendMode.decode_word (mode : BlendMode) :
    decode (.str mode.word) = .ok mode := by
  cases mode <;> rfl

theorem BlendMode.decodeSettled_word (mode : BlendMode) :
    decodeSettled (.str mode.word) = .ok mode :=
  decode_word mode

theorem MediaKind.decode_word (kind : MediaKind) :
    decode (.str kind.word) = .ok kind := by
  cases kind <;> rfl

theorem LayerId.decode_document (id : LayerId) :
    decode id.document = .ok id := by
  have range : 0 ≤ (id.val : Int) ∧
      (id.val : Int) < Json.Decode.unsignedBound :=
    ⟨Int.natCast_nonneg _, Int.ofNat_lt.mpr id.val_lt⟩
  have number : Json.Decode.unsigned id.document = .ok id.val := by
    rw [document, Json.Decode.unsigned, if_pos range, Int.toNat_natCast]
  rw [decode, number]
  exact dif_pos id.val_lt

theorem Params.decode_eq_ok {p : Params} {doc : Document}
    (h : doc.value? = some p.value) : decode doc = .ok p := by
  unfold decode
  split
  · rename_i v eq
    obtain rfl := Option.some.inj (eq.symm.trans h)
    rfl
  · rename_i eq
    cases eq.symm.trans h

theorem Params.value?_document (p : Params) :
    p.document.value? = some p.value :=
  Document.value?_ofValue p.ordered

/-- A finite number is read as it was written. -/
theorem float_ofFloat {x : Float} (finite : x.isFinite = true) :
    Json.Decode.float (.ofFloat x) = .ok x := by
  rw [Document.ofFloat, if_pos finite, Json.Decode.float]

/-! ## Offsets -/

namespace Offset

/-- The members of an offset. -/
def forms (o : Offset) : List Field :=
  [⟨"x", (· = .ofFloat o.x), False⟩, ⟨"y", (· = .ofFloat o.y), False⟩]

/-- The document writes the offset. -/
def WrittenAs (o : Offset) : Document → Prop :=
  Writes o.forms

theorem document_writtenAs (o : Offset) : o.WrittenAs o.document :=
  .of_record (by simp [forms])
    (.cons ⟨rfl, rfl⟩ (.cons ⟨rfl, rfl⟩ .nil))

/-- The draft once some members were read. -/
def draft (o : Offset) (seen : List String) : Draft :=
  { x := given seen "x" o.x, y := given seen "y" o.y }

theorem fills {o : Offset} (finite : o.isFinite = true) :
    Fills o.forms Draft.put o.draft := by
  rw [isFinite, Bool.and_eq_true] at finite
  refine ⟨?known, fun key other seen doc value => ?unknown⟩
  case known =>
    simp only [forms, List.forall_mem_cons]
    refine ⟨?x, ?y, List.forall_mem_nil _⟩
    case x =>
      rintro seen _ new rfl
      rw [Draft.put]
      exact bind_once new (float_ofFloat finite.1) (by simp [draft, given])
    case y =>
      rintro seen _ new rfl
      rw [Draft.put]
      exact bind_once new (float_ofFloat finite.2) (by simp [draft, given])
  case unknown =>
    unfold Draft.put
    split
    case h_3 =>
      rw [skip_eq_ok value]
      simp_all [forms, draft, given_cons_of_ne]
    all_goals simp [forms] at other

theorem decode_eq_ok {o : Offset} (finite : o.isFinite = true)
    {doc : Document} (h : o.WrittenAs doc) : decode doc = .ok o := by
  refine Writes.decode_eq_ok h (fills finite) fun seen all => ?_
  simp only [forms, List.forall_mem_cons, false_or] at all
  rw [Draft.finish, draft, given_of_mem all.1, given_of_mem all.2.1]
  rfl

theorem settles (o : Offset) : Settles o.WrittenAs := by
  refine Writes.settles ?_
  simp only [forms, List.forall_mem_cons]
  exact ⟨settles_ofFloat o.x, settles_ofFloat o.y, List.forall_mem_nil _⟩

end Offset

/-! ## Sources -/

namespace LayerSource

/-- The kind of a source. -/
def tag : LayerSource → Tag
  | .media _ _ => .media
  | .effect _ => .effect

/-- The word for a kind. -/
def Tag.word : Tag → String
  | .media => "media"
  | .effect => "effect"

theorem Tag.decode_word (tag : Tag) : decode (.str tag.word) = .ok tag := by
  cases tag <;> rfl

/-- The members of a source but its kind. -/
def ownForms : LayerSource → List Field
  | .media reference kind =>
    [⟨"reference", (· = .str reference), False⟩,
      ⟨"media_kind", (· = .str kind.word), False⟩]
  | .effect chosen =>
    [⟨"effect", (· = chosen.elim .null fun id => .str id.text),
      chosen = none⟩]

/-- The members of a source. -/
def forms (source : LayerSource) : List Field :=
  ⟨"kind", (· = .str source.tag.word), False⟩ :: source.ownForms

/-- The document writes the source. -/
def WrittenAs (source : LayerSource) : Document → Prop :=
  Writes source.forms

theorem document_writtenAs :
    ∀ source : LayerSource, source.WrittenAs source.document
  | .media _ _ =>
    .of_record (by simp [forms, ownForms])
      (.cons ⟨rfl, rfl⟩ (.cons ⟨rfl, rfl⟩ (.cons ⟨rfl, rfl⟩ .nil)))
  | .effect none | .effect (some _) =>
    .of_record (by simp [forms, ownForms])
      (.cons ⟨rfl, rfl⟩ (.cons ⟨rfl, rfl⟩ .nil))

theorem settles_ownForms (source : LayerSource) :
    ∀ f ∈ source.ownForms, Settles f.stands := by
  cases source with
  | media reference kind =>
    simp only [ownForms, List.forall_mem_cons]
    exact ⟨settles_ofValue (v := .str reference) trivial,
      settles_ofValue (v := .str kind.word) trivial, List.forall_mem_nil _⟩
  | effect chosen =>
    simp only [ownForms, List.forall_mem_cons]
    refine ⟨?_, List.forall_mem_nil _⟩
    cases chosen with
    | none => exact settles_ofValue (v := .null) trivial
    | some id => exact settles_ofValue (v := .str id.text) trivial

theorem settles (source : LayerSource) : Settles source.WrittenAs :=
  Writes.settles (List.forall_mem_cons.mpr
    ⟨settles_ofValue (v := .str source.tag.word) trivial,
      source.settles_ownForms⟩)

theorem kind_notMem_ownForms (source : LayerSource) :
    "kind" ∉ source.ownForms.map Field.name := by
  cases source <;> simp [ownForms]

/-- Other members do not matter for the kind. -/
theorem readTag_of_ne {seen : List String} {tag : Tag} {key : String}
    {doc : Document} (other : key ≠ "kind")
    (value : doc.value?.isSome = true) :
    readTag (given seen "kind" tag) key doc =
      .ok (given (key :: seen) "kind" tag) := by
  obtain ⟨v, value⟩ := Option.isSome_iff_exists.mp value
  rw [readTag, if_neg other, Json.Decode.value, value,
    given_cons_of_ne other]
  rfl

/-- The first pass over the members finds the kind. -/
theorem foldlM_readTag {source : LayerSource}
    {members : List (Option String × Document)}
    (h : Json.Written source.forms members) :
    members.foldlM (Json.Decode.member readTag) none =
      .ok (some source.tag) := by
  have fills : Fills source.forms readTag
      fun seen => given seen "kind" source.tag := by
    refine ⟨List.forall_mem_cons.mpr
      ⟨?kind, fun f mem seen doc _ stands => ?own⟩, ?unknown⟩
    case kind =>
      rintro seen _ new rfl
      rw [readTag, if_pos rfl, given_cons_self]
      exact once_given new source.tag.decode_word
    case own =>
      obtain ⟨v, value, -⟩ := source.settles_ownForms f mem doc stands
      refine readTag_of_ne ?_ (Option.isSome_iff_exists.mpr ⟨v, value⟩)
      exact fun kind =>
        source.kind_notMem_ownForms (kind ▸ List.mem_map_of_mem mem)
    case unknown =>
      exact fun key other seen doc =>
        readTag_of_ne (List.ne_of_not_mem_cons other)
  obtain ⟨seen, fold, all⟩ := h.exists_fold fills
  have kind := (all _ List.mem_cons_self).resolve_left id
  rwa [given_nil, given_of_mem kind] at fold

/-- The draft of a media source once some members were read. -/
def mediaDraft (reference : String) (kind : MediaKind) (seen : List String) :
    MediaDraft :=
  { reference := given seen "reference" reference
    kind := given seen "media_kind" kind }

theorem media_fills (reference : String) (kind : MediaKind) :
    Fills (media reference kind).forms MediaDraft.put
      (mediaDraft reference kind) := by
  refine ⟨?known, fun key other seen doc _ => ?unknown⟩
  case known =>
    simp only [forms, ownForms, List.forall_mem_cons]
    refine ⟨?kind, ?reference, ?media, List.forall_mem_nil _⟩
    case kind =>
      rintro seen _ new rfl
      simp [MediaDraft.put, mediaDraft, given]
    case reference =>
      rintro seen _ new rfl
      rw [MediaDraft.put]
      exact bind_once new rfl (by simp [mediaDraft, given])
    case media =>
      rintro seen _ new rfl
      rw [MediaDraft.put]
      exact bind_once new kind.decode_word (by simp [mediaDraft, given])
  case unknown =>
    unfold MediaDraft.put
    split
    case h_3 => simp_all [forms, ownForms, mediaDraft, given_cons_of_ne]
    all_goals simp [forms, ownForms] at other

theorem decodeAs_media {reference : String} {kind : MediaKind}
    {doc : Document} (h : (media reference kind).WrittenAs doc) :
    decodeAs .media doc = .ok (.media reference kind) := by
  refine Writes.decode_eq_ok h (media_fills reference kind) fun seen all => ?_
  simp only [forms, ownForms, List.forall_mem_cons, false_or] at all
  rw [MediaDraft.finish, mediaDraft, given_of_mem all.2.1,
    given_of_mem all.2.2.1]
  rfl

/-- The draft of an effect source. -/
def effectDraft (chosen : Option EffectId) (seen : List String) :
    Option (Option EffectId) :=
  given seen "effect" chosen

theorem effect_fills (chosen : Option EffectId) :
    Fills (effect chosen).forms putEffect (effectDraft chosen) := by
  refine ⟨?known, fun key other seen doc _ => ?unknown⟩
  case known =>
    simp only [forms, ownForms, List.forall_mem_cons]
    refine ⟨?kind, ?effect, List.forall_mem_nil _⟩
    case kind =>
      rintro seen _ new rfl
      simp [putEffect, effectDraft, given]
    case effect =>
      rintro seen _ new rfl
      rw [putEffect, effectDraft, effectDraft, given_cons_self]
      refine once_given new ?_
      cases chosen with
      | none => rfl
      | some id =>
        rw [Option.elim, Json.Decode.nullable, id.decode_text]
        · rfl
        · rintro ⟨⟩
  case unknown =>
    unfold putEffect
    split
    case h_2 => simp_all [forms, ownForms, effectDraft, given_cons_of_ne]
    case h_1 => simp [forms, ownForms] at other

theorem decodeAs_effect {chosen : Option EffectId} {doc : Document}
    (h : (effect chosen).WrittenAs doc) :
    decodeAs .effect doc = .ok (.effect chosen) := by
  have start : effectDraft chosen [] = none := given_nil
  rw [decodeAs, ← start]
  refine Writes.decode_eq_ok h (effect_fills chosen) fun seen all => ?_
  simp only [forms, ownForms, List.forall_mem_cons, false_or] at all
  rw [effectDraft, getD_given all.2.1]

theorem decode_eq_ok {source : LayerSource} {doc : Document}
    (h : source.WrittenAs doc) : decode doc = .ok source := by
  obtain ⟨members, rfl, written⟩ := id h
  rw [decode, foldlM_readTag written]
  cases source with
  | media reference kind => exact decodeAs_media h
  | effect chosen => exact decodeAs_effect h

end LayerSource

/-! ## Child effects -/

namespace ChildEffect

/-- The members of a child effect. -/
def forms (c : ChildEffect) : List Field :=
  [⟨"id", (· = c.id.document), False⟩,
    ⟨"effect", (· = .str c.effect.text), False⟩,
    ⟨"params", (·.value? = some c.params.value), c.params = Params.empty⟩,
    ⟨"visible", (· = .bool c.visible), c.visible = true⟩]

/-- The document writes the child effect. -/
def WrittenAs (c : ChildEffect) : Document → Prop :=
  Writes c.forms

theorem document_writtenAs (c : ChildEffect) : c.WrittenAs c.document :=
  .of_record (by simp [forms])
    (.cons ⟨rfl, rfl⟩ (.cons ⟨rfl, rfl⟩
      (.cons ⟨rfl, c.params.value?_document⟩ (.cons ⟨rfl, rfl⟩ .nil))))

/-- The draft once some members were read. -/
def draft (c : ChildEffect) (seen : List String) : Draft :=
  { id := given seen "id" c.id
    effect := given seen "effect" c.effect
    params := given seen "params" c.params
    visible := given seen "visible" c.visible }

theorem fills (c : ChildEffect) : Fills c.forms Draft.put c.draft := by
  refine ⟨?known, fun key other seen doc value => ?unknown⟩
  case known =>
    simp only [forms, List.forall_mem_cons]
    refine ⟨?id, ?effect, ?params, ?visible, List.forall_mem_nil _⟩
    case id =>
      rintro seen _ new rfl
      rw [Draft.put]
      exact bind_once new c.id.decode_document (by simp [draft, given])
    case effect =>
      rintro seen _ new rfl
      rw [Draft.put]
      exact bind_once new c.effect.decode_text (by simp [draft, given])
    case params =>
      intro seen doc new value
      rw [Draft.put]
      exact bind_once new (Params.decode_eq_ok value)
        (by simp [draft, given])
    case visible =>
      rintro seen _ new rfl
      rw [Draft.put]
      exact bind_once new rfl (by simp [draft, given])
  case unknown =>
    unfold Draft.put
    split
    case h_5 =>
      rw [skip_eq_ok value]
      simp_all [forms, draft, given_cons_of_ne]
    all_goals simp [forms] at other

theorem decode_eq_ok {c : ChildEffect} {doc : Document}
    (h : c.WrittenAs doc) : decode doc = .ok c := by
  refine Writes.decode_eq_ok h c.fills fun seen all => ?_
  simp only [forms, List.forall_mem_cons, false_or] at all
  obtain ⟨id, effect, params, visible, -⟩ := all
  simp only [Draft.finish, draft, given_of_mem id, given_of_mem effect,
    getD_given params, getD_given visible]
  rfl

theorem settles (c : ChildEffect) : Settles c.WrittenAs := by
  refine Writes.settles ?_
  simp only [forms, List.forall_mem_cons]
  exact ⟨settles_ofValue (v := .int c.id.val) trivial,
    settles_ofValue (v := .str c.effect.text) trivial,
    settles_value c.params.value,
    settles_ofValue (v := .bool c.visible) trivial, List.forall_mem_nil _⟩

end ChildEffect

/-! ## Layers -/

namespace Layer

/-- The members of a layer. -/
def forms (l : Layer) : List Field :=
  [⟨"id", (· = l.id.document), False⟩,
    ⟨"name", (· = .str l.name), l.name = ""⟩,
    ⟨"visible", (· = .bool l.visible), l.visible = true⟩,
    ⟨"opacity", (· = .ofFloat l.opacity), l.opacity = 100.0⟩,
    ⟨"blend_mode", (· = .str l.blendMode.word), l.blendMode = .mix⟩,
    ⟨"locked", (· = .bool l.locked), l.locked = false⟩,
    ⟨"offset", l.offset.WrittenAs, l.offset = Offset.zero⟩,
    ⟨"source", l.source.WrittenAs, False⟩,
    ⟨"params", (·.value? = some l.params.value), l.params = Params.empty⟩,
    ⟨"children", WritesEach ChildEffect.WrittenAs l.children,
      l.children = []⟩]

/-- The document writes the layer. -/
def WrittenAs (l : Layer) : Document → Prop :=
  Writes l.forms

theorem document_writtenAs (l : Layer) : l.WrittenAs l.document := by
  have children : WritesEach ChildEffect.WrittenAs l.children
      (.list (l.children.map (·.document))) :=
    .of_map ChildEffect.document_writtenAs l.children
  exact .of_record (by simp [forms])
    (.cons ⟨rfl, rfl⟩ (.cons ⟨rfl, rfl⟩ (.cons ⟨rfl, rfl⟩
      (.cons ⟨rfl, rfl⟩ (.cons ⟨rfl, rfl⟩ (.cons ⟨rfl, rfl⟩
        (.cons ⟨rfl, l.offset.document_writtenAs⟩
          (.cons ⟨rfl, l.source.document_writtenAs⟩
            (.cons ⟨rfl, l.params.value?_document⟩
              (.cons ⟨rfl, children⟩ .nil))))))))))

/-- The draft once some members were read. -/
def draft (l : Layer) (seen : List String) : Draft :=
  { id := given seen "id" l.id
    name := given seen "name" l.name
    visible := given seen "visible" l.visible
    opacity := given seen "opacity" l.opacity
    blendMode := given seen "blend_mode" l.blendMode
    locked := given seen "locked" l.locked
    offset := given seen "offset" l.offset
    source := given seen "source" l.source
    params := given seen "params" l.params
    children := given seen "children" l.children }

/-- JSON has a text for every number of the layer itself. -/
def isFinite (l : Layer) : Bool :=
  l.opacity.isFinite && l.offset.isFinite

/-- One way to read a blend mode is as good as another. -/
theorem fills {mode : Decoder BlendMode}
    (word : ∀ m : BlendMode, mode (.str m.word) = .ok m) {l : Layer}
    (finite : l.isFinite = true) :
    Fills l.forms (Draft.put mode) l.draft := by
  rw [isFinite, Bool.and_eq_true] at finite
  refine ⟨?known, fun key other seen doc value => ?unknown⟩
  case known =>
    simp only [forms, List.forall_mem_cons]
    refine ⟨?id, ?name, ?visible, ?opacity, ?mode, ?locked, ?offset, ?source,
      ?params, ?children, List.forall_mem_nil _⟩
    case id =>
      rintro seen _ new rfl
      rw [Draft.put]
      exact bind_once new l.id.decode_document (by simp [draft, given])
    case name =>
      rintro seen _ new rfl
      rw [Draft.put]
      exact bind_once new rfl (by simp [draft, given])
    case visible =>
      rintro seen _ new rfl
      rw [Draft.put]
      exact bind_once new rfl (by simp [draft, given])
    case opacity =>
      rintro seen _ new rfl
      rw [Draft.put]
      exact bind_once new (float_ofFloat finite.1) (by simp [draft, given])
    case mode =>
      rintro seen _ new rfl
      rw [Draft.put]
      exact bind_once new (word l.blendMode) (by simp [draft, given])
    case locked =>
      rintro seen _ new rfl
      rw [Draft.put]
      exact bind_once new rfl (by simp [draft, given])
    case offset =>
      intro seen doc new written
      rw [Draft.put]
      exact bind_once new (Offset.decode_eq_ok finite.2 written)
        (by simp [draft, given])
    case source =>
      intro seen doc new written
      rw [Draft.put]
      exact bind_once new (LayerSource.decode_eq_ok written)
        (by simp [draft, given])
    case params =>
      intro seen doc new value
      rw [Draft.put]
      exact bind_once new (Params.decode_eq_ok value)
        (by simp [draft, given])
    case children =>
      intro seen doc new written
      rw [Draft.put]
      exact bind_once new
        (written.decode_eq_ok fun _ _ _ => ChildEffect.decode_eq_ok)
        (by simp [draft, given])
  case unknown =>
    unfold Draft.put
    split
    case h_11 =>
      rw [skip_eq_ok value]
      simp_all [forms, draft, given_cons_of_ne]
    all_goals simp [forms] at other

theorem decodeWith_eq_ok {mode : Decoder BlendMode}
    (word : ∀ m : BlendMode, mode (.str m.word) = .ok m) {l : Layer}
    (finite : l.isFinite = true) {doc : Document} (h : l.WrittenAs doc) :
    decodeWith mode doc = .ok l := by
  refine Writes.decode_eq_ok h (fills word finite) fun seen all => ?_
  simp only [forms, List.forall_mem_cons, false_or] at all
  obtain ⟨id, name, visible, opacity, mode, locked, offset, source, params,
    children, -⟩ := all
  simp only [Draft.finish, draft, given_of_mem id, given_of_mem source,
    getD_given name, getD_given visible, getD_given opacity,
    getD_given mode, getD_given locked, getD_given offset,
    getD_given params, getD_given children]
  rfl

theorem settles (l : Layer) : Settles l.WrittenAs := by
  refine Writes.settles ?_
  simp only [forms, List.forall_mem_cons]
  exact ⟨settles_ofValue (v := .int l.id.val) trivial,
    settles_ofValue (v := .str l.name) trivial,
    settles_ofValue (v := .bool l.visible) trivial,
    settles_ofFloat l.opacity,
    settles_ofValue (v := .str l.blendMode.word) trivial,
    settles_ofValue (v := .bool l.locked) trivial,
    l.offset.settles, l.source.settles, settles_value l.params.value,
    WritesEach.settles fun c _ => c.settles, List.forall_mem_nil _⟩

/-- A list of layers is read back from every way to write it, from the
document as well as from its value, and the document that is written is one
of them. An effect identifier is read only from a text that shows it, and
its own text is read as this identifier. -/
theorem reads_what_was_written {layers : List Layer}
    (finite : ∀ l ∈ layers, l.isFinite = true) :
    WritesEach WrittenAs layers (listDocument layers) ∧
      decodeList (listDocument layers) = .ok layers ∧
      (∀ doc, WritesEach WrittenAs layers doc →
        decodeList doc = .ok layers ∧
        ∃ values, doc.value? = some (.arr values) ∧
          values.mapM ofValue = .ok layers) ∧
      ∀ (doc : Document) (id : EffectId), EffectId.decode doc = .ok id →
        (∃ text : String, doc = .str text ∧
          Text.trim text.toList = id.text.toList) ∧
        isIdent id.space.toList = true ∧ isIdent id.name.toList = true ∧
        EffectId.decode (.str id.text) = .ok id := by
  have written : WritesEach WrittenAs layers (listDocument layers) :=
    .of_map document_writtenAs layers
  have decoded : ∀ doc, WritesEach WrittenAs layers doc →
      decodeList doc = .ok layers := fun doc h =>
    h.decode_eq_ok fun l mem _ =>
      decodeWith_eq_ok BlendMode.decode_word (finite l mem)
  refine ⟨written, decoded _ written, fun doc h => ⟨decoded doc h, ?_⟩,
    fun doc id h => ?_⟩
  · obtain ⟨values, value, again⟩ :=
      h.exists_values fun l _ => l.settles
    refine ⟨values, value, Json.mapM_eq_ok (fun l mem v => ?_) again⟩
    exact decodeWith_eq_ok BlendMode.decodeSettled_word (finite l mem)
  · exact ⟨EffectId.of_decode_eq_ok h, id.space_isIdent, id.name_isIdent,
      id.decode_text⟩

/-- Members that hold a default are left out, those of the source stand the
other way round, and the child effect has a remark. -/
theorem reads_what_was_written_of_sparse :
    let child : ChildEffect := { id := .ofNat 8, effect := .noise }
    let l : Layer :=
      { id := .ofNat 7, source := .media "a.png" .image, children := [child] }
    let source : Document :=
      .record
        [("media_kind", .str "image"), ("reference", .str "a.png"),
          ("kind", .str "media")]
    let kept : Document :=
      .record
        [("remark", .null), ("id", .int 8), ("effect", .str "synth/noise")]
    let doc : Document :=
      .record
        [("source", source), ("children", .list [kept]), ("id", .int 7)]
    (∀ l' ∈ [l], l'.isFinite = true) ∧
      WritesEach WrittenAs [l] (.list [doc]) ∧
      decodeList (.list [doc]) = .ok [l] := by
  intro child l source kept doc
  have finite : ∀ l' ∈ [l], l'.isFinite = true := by decide
  have source_written : l.source.WrittenAs source := by
    obtain ⟨members, eq, h⟩ := l.source.document_writtenAs
    obtain ⟨rfl, -⟩ := Document.obj.inj eq
    exact ⟨_, rfl, h.perm (List.reverse_perm _).symm⟩
  have kept_written : child.WrittenAs kept := by
    obtain ⟨members, eq, h⟩ := child.document_writtenAs
    obtain ⟨rfl, -⟩ := Document.obj.inj eq
    have h := h.leaveOut ["params", "visible"]
      (by simp [ChildEffect.forms, child])
    have h := h.add "remark" .null
      (by simp [ChildEffect.forms]) rfl
    exact ⟨_, rfl, h⟩
  have doc_written : l.WrittenAs doc := by
    refine ⟨_, rfl, ⟨?keyed, ?once, ?known, ?unknown⟩, ?present⟩
    case keyed => simp
    case once => simp [forms]
    case known =>
      simp [forms]
      exact ⟨rfl, source_written, _, rfl, .cons kept_written .nil⟩
    case unknown =>
      intro key item mem other
      simp at mem
      rcases mem with ⟨rfl, -⟩ | ⟨rfl, -⟩ | ⟨rfl, -⟩
      all_goals simp [forms] at other
    case present => simp [l, forms]
  have written : WritesEach WrittenAs [l] (.list [doc]) :=
    ⟨[doc], rfl, .cons doc_written .nil⟩
  exact ⟨finite, written,
    ((reads_what_was_written finite).2.2.1 _ written).1⟩

end Layer

end Compositing
