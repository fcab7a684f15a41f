/-
Compositing.Proofs.Program.Header — the first line of a program.

The first line announces namespaces, which are gathered from the layers and
not from the statements. They are the namespaces of what the program
invokes and the two built-in ones, each once and in the order of their
bytes (`header_exact`): no call lacks its namespace, and what only hidden
layers or hidden child effects would use is not announced.
-/
import Compositing.Proofs.Effect.Id
import Compositing.Proofs.Program.Calls
import Compositing.Proofs.Program.Invocations

namespace Compositing

/-! ## Bytes of identifiers -/

/-- The bytes of a text. -/
def bytes (s : String) : List UInt8 :=
  s.toUTF8.data.toList

theorem bytes_eq (s : String) :
    bytes s = s.toList.flatMap String.utf8EncodeChar := by
  have encoded : bytes (String.ofList s.toList) =
      s.toList.flatMap String.utf8EncodeChar := by
    rw [bytes, String.toUTF8_eq_toByteArray, String.toByteArray_ofList,
      List.utf8Encode, List.data_toByteArray]
  rwa [String.ofList_toList] at encoded

/-- The characters of identifiers are ASCII characters. -/
theorem val_le_of_isIdentRest {c : Char} (h : isIdentRest c = true) :
    c.val ≤ 127 :=
  UInt32.le_iff_toNat_le.mpr
    (Nat.le_trans (toNat_of_isIdentRest h).2 (by decide))

theorem utf8EncodeChar_of_isIdentRest {c : Char}
    (h : isIdentRest c = true) :
    String.utf8EncodeChar c = [c.val.toUInt8] :=
  String.utf8EncodeChar_eq_singleton
    (Char.utf8Size_eq_one_iff.mpr (val_le_of_isIdentRest h))

/-- Of two ASCII characters the smaller one is the smaller byte. -/
theorem toUInt8_lt {c d : Char} (hd : d.val ≤ 127) (lt : c < d) :
    c.val.toUInt8 < d.val.toUInt8 := by
  have lt : c.val.toNat < d.val.toNat := lt
  have le : d.val.toNat ≤ 127 := UInt32.le_iff_toNat_le.mp hd
  rw [UInt8.lt_iff_toNat_lt, UInt32.toNat_toUInt8, UInt32.toNat_toUInt8]
  omega

/-- Texts of such characters stand in the order of their bytes. -/
theorem flatMap_utf8EncodeChar_lt {a b : List Char}
    (ha : ∀ c ∈ a, isIdentRest c = true)
    (hb : ∀ c ∈ b, isIdentRest c = true) (lt : a < b) :
    a.flatMap String.utf8EncodeChar < b.flatMap String.utf8EncodeChar := by
  induction a generalizing b with
  | nil =>
    cases b with
    | nil => exact absurd lt (List.lt_irrefl _)
    | cons d b =>
      have hd := hb d List.mem_cons_self
      rw [List.flatMap_cons, utf8EncodeChar_of_isIdentRest hd]
      exact List.nil_lt_cons _ _
  | cons c a ih =>
    cases b with
    | nil => cases lt
    | cons d b =>
      obtain ⟨hc, ha⟩ := List.forall_mem_cons.mp ha
      obtain ⟨hd, hb'⟩ := List.forall_mem_cons.mp hb
      rw [List.flatMap_cons, List.flatMap_cons,
        utf8EncodeChar_of_isIdentRest hc, utf8EncodeChar_of_isIdentRest hd]
      refine List.cons_lt_cons_iff.mpr ?_
      rcases List.cons_lt_cons_iff.mp lt with first | ⟨rfl, later⟩
      · exact .inl (toUInt8_lt (val_le_of_isIdentRest hd) first)
      · exact .inr ⟨rfl, ih ha hb' later⟩

/-- Identifiers stand in the order of their bytes. -/
theorem bytes_lt_of_isIdent {a b : String} (ha : isIdent a.toList = true)
    (hb : isIdent b.toList = true) (lt : compare a b = .lt) :
    bytes a < bytes b := by
  rw [bytes_eq, bytes_eq]
  exact flatMap_utf8EncodeChar_lt
    (fun c => ProgramText.isIdentRest_of_mem ha)
    (fun c => ProgramText.isIdentRest_of_mem hb)
    (String.lt_iff.mp (compareOfLessAndEq_eq_lt.mp lt))

namespace Program

/-! ## The namespaces of layers -/

/-- Those who invoke an effect of a namespace, and the namespaces of what a
layer shows. -/
theorem map_space_contentInvocations (fallback : EffectId) (l : Layer) :
    (contentInvocations fallback l).map (·.effect.space) =
      layerNamespaces fallback l := by
  simp [contentInvocations, layerNamespaces, childInvocation,
    Function.comp_def]

/-- A namespace that is built in. -/
def IsBuiltIn (name : String) : Prop :=
  name = EffectId.mediaSpace ∨ name = EffectId.mixerSpace

/-- What is invoked to show a layer is of the layer's namespaces, or of
those that are built in. -/
theorem space_mem_stackInvocations {fallback : EffectId}
    {visible : List Layer} {name : String} (own : ¬ IsBuiltIn name) :
    name ∈ (stackInvocations fallback visible).map (·.effect.space) ↔
      name ∈ visible.flatMap (layerNamespaces fallback) := by
  obtain ⟨media, mixer⟩ := not_or.mp own
  have blend : EffectId.blend.space = EffectId.mixerSpace := rfl
  have solid : EffectId.solid.space = EffectId.mediaSpace := rfl
  have base (l : Layer) :
      name ∈ (baseInvocations fallback l).map (·.effect.space) ↔
        name ∈ layerNamespaces fallback l := by
    rw [← map_space_contentInvocations, baseInvocations]
    split
    · rfl
    · simp [blendInvocation, blend, solid, media, mixer]
  have upper (l : Layer) :
      name ∈ (upperInvocations fallback l).map (·.effect.space) ↔
        name ∈ layerNamespaces fallback l := by
    simp [← map_space_contentInvocations, upperInvocations,
      blendInvocation, blend, mixer]
  cases visible with
  | nil => simp [stackInvocations, solid, media]
  | cons l rest =>
    rw [stackInvocations, List.map_append, List.mem_append, base,
      List.map_flatMap, List.flatMap_cons, List.mem_append]
    simp only [List.mem_flatMap, upper]

/-- The namespaces that are announced are those of the layers and those
that are built in. -/
theorem mem_usedNamespaces_iff {fallback : EffectId} {visible : List Layer}
    {name : String} :
    name ∈ usedNamespaces fallback visible ↔
      IsBuiltIn name ∨
        name ∈ visible.flatMap (layerNamespaces fallback) := by
  rw [usedNamespaces, Assoc.mem_keys_ofList, List.map_map]
  simp [IsBuiltIn, or_assoc]

/-- The namespaces ascend. -/
theorem pairwise_usedNamespaces (fallback : EffectId)
    (visible : List Layer) :
    (usedNamespaces fallback visible).Pairwise (compare · · = .lt) :=
  Assoc.ofList_ascending _

/-! ## The first line -/

theorem joinWith_eq_intercalate (separator : List Char)
    (texts : List (List Char)) :
    Json.joinWith separator texts = separator.intercalate texts := by
  induction texts with
  | nil => rfl
  | cons text texts ih =>
    cases texts with
    | nil => simp [Json.joinWith]
    | cons next rest =>
      rw [Json.joinWith, ih, List.intercalate_cons_cons, List.append_assoc]
      exact List.cons_ne_nil _ _

/-- The characters in front of the first line end. -/
def firstLine (text : String) : List Char :=
  text.toList.takeWhile (· ≠ '\n')

theorem firstLine_text {p : Program}
    (h : ∀ name ∈ p.namespaces, isIdent name.toList = true) :
    firstLine p.text = headerText p.namespaces := by
  have line : ∀ c ∈ headerText p.namespaces, decide (c ≠ '\n') = true := by
    intro c mem
    refine decide_eq_true fun eq => ?_
    subst eq
    have := mem_headerText h mem
    revert this
    decide
  rw [firstLine, text, String.toList_ofList, chars_eq,
    List.takeWhile_append_of_pos line, List.takeWhile_cons_of_neg (by simp),
    List.append_nil]

/-- The words among tokens. -/
def wordsOf (tokens : List ProgramText.Token) : List String :=
  tokens.filterMap fun
    | .word word => some (String.ofList word)
    | _ => none

/-- The words of a text. -/
def words (chars : List Char) : List String :=
  wordsOf (ProgramText.tokens chars)

theorem wordsOf_append (a b : List ProgramText.Token) :
    wordsOf (a ++ b) = wordsOf a ++ wordsOf b :=
  List.filterMap_append

theorem wordsOf_word (word : List Char) (rest : List ProgramText.Token) :
    wordsOf (.word word :: rest) = String.ofList word :: wordsOf rest :=
  rfl

open ProgramText (tokensFrom)

/-- Where another character follows, an identifier is a word of its own. -/
theorem wordsOf_ident {name : String} (h : isIdent name.toList = true)
    {c : Char} (hi : isIdentRest c = false)
    (hm : ProgramText.first c ∈ [([], .between), ([.other], .between)])
    (rest : List Char) :
    wordsOf (tokensFrom .between (name.toList ++ c :: rest)) =
      name :: wordsOf (tokensFrom .between rest) := by
  have silent : wordsOf (ProgramText.first c).1 = [] ∧
      (ProgramText.first c).2 = .between := by
    rcases List.mem_pair.mp hm with eq | eq <;> rw [eq] <;> exact ⟨rfl, rfl⟩
  rw [ProgramText.tokensFrom_ident h hi silent.2, List.cons_append,
    wordsOf_word, wordsOf_append, silent.1, List.nil_append,
    String.ofList_toList]

/-- A blank between words has no part in them. -/
theorem blank_between (rest : List Char) :
    tokensFrom .between (' ' :: rest) = tokensFrom .between rest :=
  rfl

/-- The words of a list of identifiers are the identifiers. -/
theorem wordsOf_joinWith {names : List String}
    (h : ∀ name ∈ names, isIdent name.toList = true) :
    wordsOf (tokensFrom .between
      (Json.joinWith [',', ' '] (names.map String.toList))) = names := by
  induction names with
  | nil => rfl
  | cons name names ih =>
    obtain ⟨ident, others⟩ := List.forall_mem_cons.mp h
    cases names with
    | nil =>
      have whole := ProgramText.tokens_eq name.toList
      rw [ProgramText.read_ident ident] at whole
      rw [List.map_singleton, Json.joinWith, ← ProgramText.tokens, whole]
      simp [wordsOf, ProgramText.finish]
    | cons next rest =>
      rw [List.map_cons, List.map_cons, Json.joinWith, List.append_assoc,
        List.cons_append, List.cons_append, List.nil_append,
        ← List.map_cons, wordsOf_ident ident (by decide) (by decide),
        blank_between, ih others]
      exact List.cons_ne_nil _ _

/-- The words of the first line are the word that begins it and the
names. -/
theorem words_headerText {names : List String}
    (h : ∀ name ∈ names, isIdent name.toList = true) :
    words (headerText names) = "search" :: names := by
  have word : isIdent "search".toList = true := by decide
  have split (rest : List Char) :
      "search ".toList ++ rest = "search".toList ++ ' ' :: rest :=
    List.append_assoc "search".toList [' '] rest
  have first := wordsOf_ident word (c := ' ') (by decide) (by decide)
  unfold words ProgramText.tokens headerText
  rw [split, first, wordsOf_joinWith h]

/-! ## The namespaces of a program -/

section

variable (catalog : Catalog) (fallback : EffectId)

/-- The first line of a program lists its namespaces: those of everything
that the program invokes and the two that are built in, each once and in
the order of their bytes. What is hidden has no part in it. -/
theorem header_exact (layers : List Layer) :
    let p := ofLayers catalog fallback layers
    ∃ names : List String,
      firstLine p.text = "search ".toList ++
        [',', ' '].intercalate (names.map String.toList) ∧
      words (firstLine p.text) = "search" :: names ∧
      names.Pairwise (bytes · < bytes ·) ∧
      (∀ name, name ∈ names ↔ IsBuiltIn name ∨
        ∃ inv ∈ p.invocations, inv.effect.space = name) ∧
      ∀ name, name ∈ names ↔ IsBuiltIn name ∨
        ∃ l ∈ layers, l.visible = true ∧
          ((l.effectOr fallback).space = name ∨
            ∃ c ∈ l.children, c.visible = true ∧ c.effect.space = name) := by
  intro p
  have idents : ∀ name ∈ p.namespaces, isIdent name.toList = true :=
    fun _ => isIdent_of_mem_usedNamespaces fallback
  have line := firstLine_text idents
  have shown (name : String) : name ∈ p.namespaces ↔ IsBuiltIn name ∨
      name ∈ (layers.filter (·.visible)).flatMap
        (layerNamespaces fallback) := mem_usedNamespaces_iff
  refine ⟨p.namespaces, ?_, ?_, ?_, fun name => ?_, fun name => ?_⟩
  · rw [line]
    exact congrArg _ (joinWith_eq_intercalate _ _)
  · rw [line, words_headerText idents]
  · refine (pairwise_usedNamespaces fallback _).imp_of_mem ?_
    exact fun ha hb => bytes_lt_of_isIdent (idents _ ha) (idents _ hb)
  · rw [shown]
    by_cases builtIn : IsBuiltIn name
    · simp [builtIn]
    · rw [← space_mem_stackInvocations builtIn,
        ← invocations_ofLayers catalog, List.mem_map]
  · rw [shown]
    simp only [List.mem_flatMap, List.mem_filter, layerNamespaces,
      List.mem_cons, List.mem_map, Layer.visibleChildren, and_assoc,
      eq_comm (a := name)]

end

end Program

end Compositing
