/-
Compositing.Proofs.Json.Written — the ways to write a record.

A record is written by the members of an object, in any order. Each of its
own members stands there once and in one of its forms, or not at all if it
holds its default; besides them there may be any others (`Written`). Reading
such an object member by member, the draft always holds the members whose
names were seen (`Fills.exists_fold`), so that in the end it holds all but
those that are at their defaults (`Writes.decode_eq_ok`). The value of a
document forgets the order of members, and writing this value again writes
the same record (`Writes.settles`).
-/
import Compositing.Json.Decode
import Compositing.Proofs.Json.Values

namespace Compositing.Json

/-! ## Members -/

/-- A member that a record has: what may stand under its name, and whether
it may be left out, because it holds its default. -/
structure Field where
  name : String
  stands : Document → Prop
  optional : Prop

/-- The members are those of a record, but some of the record's own may be
missing. -/
structure Fit (fields : List Field)
    (members : List (Option String × Document)) : Prop where
  keyed : ∀ m ∈ members, m.1.isSome = true
  /-- No member of the record comes twice. -/
  once : ∀ f ∈ fields, (members.map Prod.fst).count (some f.name) ≤ 1
  known : ∀ f ∈ fields, ∀ doc, (some f.name, doc) ∈ members → f.stands doc
  /-- The others may be anything that has a value. -/
  unknown : ∀ key doc, (some key, doc) ∈ members →
    key ∉ fields.map Field.name → doc.value?.isSome = true

/-- The members write a record. -/
structure Written (fields : List Field)
    (members : List (Option String × Document)) : Prop
    extends Fit fields members where
  /-- What is missing may be left out. -/
  present : ∀ f ∈ fields, f.optional ∨ some f.name ∈ members.map Prod.fst

/-- The document is an object that writes a record. -/
def Writes (fields : List Field) (doc : Document) : Prop :=
  ∃ members, doc = .obj members true ∧ Written fields members

theorem Fit.tail {fields : List Field} {m : Option String × Document}
    {rest : List (Option String × Document)} (h : Fit fields (m :: rest)) :
    Fit fields rest where
  keyed m mem := h.keyed m (List.mem_cons_of_mem _ mem)
  once f mem := Nat.le_trans
    (((List.sublist_cons_self m rest).map Prod.fst).count_le _)
    (h.once f mem)
  known f mem doc here := h.known f mem doc (List.mem_cons_of_mem _ here)
  unknown key doc here := h.unknown key doc (List.mem_cons_of_mem _ here)

/-! ## Ways to write -/

section

variable {fields : List Field} {members : List (Option String × Document)}

/-- The members may come in any order. -/
theorem Written.perm {members' : List (Option String × Document)}
    (h : Written fields members) (same : members.Perm members') :
    Written fields members' where
  keyed m mem := h.keyed m (same.mem_iff.mpr mem)
  once f mem := (same.map Prod.fst).count_eq _ ▸ h.once f mem
  known f mem doc here := h.known f mem doc (same.mem_iff.mpr here)
  unknown key doc here := h.unknown key doc (same.mem_iff.mpr here)
  present f mem :=
    (h.present f mem).imp_right (same.map Prod.fst).mem_iff.mp

/-- Any of the members that hold their default may be left out. -/
theorem Written.leaveOut (h : Written fields members) (names : List String)
    (optional : ∀ f ∈ fields, f.name ∈ names → f.optional) :
    Written fields (members.filter fun m => m.1 ∉ names.map some) where
  keyed m mem := h.keyed m (List.mem_filter.mp mem).1
  once f mem := Nat.le_trans
    ((List.filter_sublist.map Prod.fst).count_le _) (h.once f mem)
  known f mem doc here := h.known f mem doc (List.mem_filter.mp here).1
  unknown key doc here := h.unknown key doc (List.mem_filter.mp here).1
  present f mem := by
    by_cases left : f.name ∈ names
    · exact .inl (optional f mem left)
    · refine (h.present f mem).imp_right fun here => ?_
      obtain ⟨m, here, key⟩ := List.mem_map.mp here
      refine List.mem_map.mpr ⟨m, List.mem_filter.mpr ⟨here, ?_⟩, key⟩
      simp [key, left]

/-- Any member that the record does not have may be added. -/
theorem Written.add (h : Written fields members) (key : String)
    (doc : Document) (other : key ∉ fields.map Field.name)
    (value : doc.value?.isSome = true) :
    Written fields ((some key, doc) :: members) where
  keyed := List.forall_mem_cons.mpr ⟨rfl, h.keyed⟩
  once f mem := by
    rw [List.map_cons, List.count_cons_of_ne]
    · exact h.once f mem
    · rintro ⟨⟩
      exact other (List.mem_map_of_mem mem)
  known f mem doc' here := by
    rcases List.mem_cons.mp here with eq | here
    · cases eq
      exact absurd (List.mem_map_of_mem mem) other
    · exact h.known f mem doc' here
  unknown key' doc' here unlisted := by
    rcases List.mem_cons.mp here with eq | here
    · cases eq
      exact value
    · exact h.unknown key' doc' here unlisted
  present f mem := (h.present f mem).imp_right (List.mem_cons_of_mem _)

/-- All members, one after another, write the record. -/
theorem Written.of_entries {entries : List (String × Document)}
    (nodup : (fields.map Field.name).Nodup)
    (each : List.Forall₂ (fun f e => f.name = e.1 ∧ f.stands e.2) fields
      entries) :
    Written fields (entries.map fun e => (some e.1, e.2)) := by
  have pairs : fields.map Field.name = entries.map Prod.fst ∧
      ∀ e ∈ entries, ∃ f ∈ fields, f.name = e.1 ∧ f.stands e.2 := by
    clear nodup
    induction each with
    | nil => exact ⟨rfl, List.forall_mem_nil _⟩
    | cons first _ ih =>
      refine ⟨by rw [List.map_cons, List.map_cons, first.1, ih.1], ?_⟩
      refine List.forall_mem_cons.mpr
        ⟨⟨_, List.mem_cons_self, first⟩, fun e mem => ?_⟩
      obtain ⟨f, mem, stands⟩ := ih.2 e mem
      exact ⟨f, List.mem_cons_of_mem _ mem, stands⟩
  have keys : (entries.map fun e => (some e.1, e.2)).map Prod.fst =
      (fields.map Field.name).map some := by
    rw [pairs.1, List.map_map, List.map_map]
    rfl
  refine ⟨⟨?keyed, ?once, ?known, ?unknown⟩, ?present⟩
  case keyed =>
    intro m mem
    obtain ⟨e, -, rfl⟩ := List.mem_map.mp mem
    rfl
  case once =>
    intro f _
    refine List.nodup_iff_count_le_one.mp ?_ _
    rw [keys]
    exact nodup.map fun _ _ => Option.some.inj
  case known =>
    intro f mem doc here
    obtain ⟨e, entry, eq⟩ := List.mem_map.mp here
    obtain ⟨name, rfl⟩ := Prod.mk.inj eq
    obtain ⟨f', mem', name', stands⟩ := pairs.2 e entry
    have same := name'.trans (Option.some.inj name)
    exact List.inj_on_of_nodup_map nodup mem' mem same ▸ stands
  case unknown =>
    intro key doc mem other
    have mem := List.mem_map_of_mem (f := Prod.fst) mem
    rw [keys] at mem
    obtain ⟨name, mem, eq⟩ := List.mem_map.mp mem
    exact absurd (Option.some.inj eq ▸ mem) other
  case present =>
    intro f mem
    rw [keys]
    exact .inr (List.mem_map_of_mem (List.mem_map_of_mem mem))

theorem Writes.of_record {entries : List (String × Document)}
    (nodup : (fields.map Field.name).Nodup)
    (each : List.Forall₂ (fun f e => f.name = e.1 ∧ f.stands e.2) fields
      entries) :
    Writes fields (.record entries) :=
  ⟨_, rfl, .of_entries nodup each⟩
end

/-! ## Reading -/

/-- What has been read of a member: its value, once its name was seen. -/
def given {α : Type} (seen : List String) (name : String) (a : α) :
    Option α :=
  if name ∈ seen then some a else none

section

variable {α : Type} {seen : List String} {name : String} {a : α}

@[simp]
theorem given_nil : given [] name a = none :=
  rfl

@[simp]
theorem given_cons_self : given (name :: seen) name a = some a :=
  if_pos List.mem_cons_self

theorem given_cons_of_ne {key : String} (other : key ≠ name) :
    given (key :: seen) name a = given seen name a := by
  simp [given, other.symm]

theorem given_of_mem (mem : name ∈ seen) : given seen name a = some a :=
  if_pos mem

theorem getD_given {d : α} (h : a = d ∨ name ∈ seen) :
    (given seen name a).getD d = a := by
  rcases h with rfl | mem
  · unfold given
    split <;> rfl
  · rw [given_of_mem mem, Option.getD_some]

/-- A member that the record does not have is passed over. -/
theorem skip_eq_ok {δ : Type} {draft : δ} {doc : Document}
    (value : doc.value?.isSome = true) :
    Decode.skip draft doc = .ok draft :=
  if_pos (Document.isComplete_of_value? value)

/-- A member that comes for the first time is read. -/
theorem once_given {decode : Decoder α} {doc : Document}
    (new : name ∉ seen) (ok : decode doc = .ok a) :
    Decode.once name (given seen name a) decode doc = .ok (some a) := by
  rw [given, if_neg new, Decode.once, ok]
  rfl

/-- Then it goes into the draft. -/
theorem bind_once {δ : Type} {decode : Decoder α} {doc : Document}
    {next : Option α → δ} {draft : δ} (new : name ∉ seen)
    (ok : decode doc = .ok a) (filled : next (some a) = draft) :
    (do
      let v ← Decode.once name (given seen name a) decode doc
      return next v) = (.ok draft : Except DecodeError δ) := by
  rw [once_given new ok, ← filled]
  rfl

end

section

variable {fields : List Field} {δ : Type} {draft : List String → δ}
  {put : δ → String → Document → Except DecodeError δ}

/-- Reading puts members into a draft: from those seen so far, `draft` tells
what it holds, and every other member is passed over. -/
structure Fills (fields : List Field)
    (put : δ → String → Document → Except DecodeError δ)
    (draft : List String → δ) : Prop where
  known : ∀ f ∈ fields, ∀ seen doc, f.name ∉ seen → f.stands doc →
    put (draft seen) f.name doc = .ok (draft (f.name :: seen))
  unknown : ∀ key ∉ fields.map Field.name, ∀ seen doc,
    doc.value?.isSome = true →
      put (draft seen) key doc = .ok (draft (key :: seen))

/-- Each member that is read adds its name to those seen. -/
theorem Fills.exists_fold (fills : Fills fields put draft) :
    ∀ {members : List (Option String × Document)} {seen : List String},
      Fit fields members →
      (∀ f ∈ fields, f.name ∈ seen → some f.name ∉ members.map Prod.fst) →
        ∃ seen', members.foldlM (Decode.member put) (draft seen) =
            .ok (draft seen') ∧
          ∀ name, name ∈ seen' ↔
            name ∈ seen ∨ some name ∈ members.map Prod.fst
  | [], seen, _, _ => ⟨seen, rfl, by simp⟩
  | (none, doc) :: rest, seen, h, _ => by
    cases h.keyed _ List.mem_cons_self
  | (some key, doc) :: rest, seen, h, new => by
    have step : put (draft seen) key doc = .ok (draft (key :: seen)) := by
      by_cases own : key ∈ fields.map Field.name
      · obtain ⟨f, mem, rfl⟩ := List.mem_map.mp own
        refine fills.known f mem seen doc (fun old => ?_)
          (h.known f mem doc List.mem_cons_self)
        exact new f mem old List.mem_cons_self
      · exact fills.unknown key own seen doc
          (h.unknown key doc List.mem_cons_self own)
    -- A name that comes again would come twice.
    have new' : ∀ f ∈ fields, f.name ∈ key :: seen →
        some f.name ∉ rest.map Prod.fst := by
      intro f mem old again
      rcases List.mem_cons.mp old with rfl | old
      · have once := h.once f mem
        rw [List.map_cons, List.count_cons_self] at once
        have := List.count_pos_iff.mpr again
        omega
      · exact new f mem old (List.mem_cons_of_mem _ again)
    obtain ⟨seen', fold, names⟩ := fills.exists_fold h.tail new'
    refine ⟨seen', ?_, fun name => ?_⟩
    · rw [List.foldlM_cons, Decode.member, step]
      exact fold
    · rw [names, List.mem_cons, List.map_cons, List.mem_cons,
        Option.some.injEq, or_assoc, or_left_comm]

/-- Reading the members of a record, from none on, the draft holds all
those that are not left out. -/
theorem Written.exists_fold
    {members : List (Option String × Document)} (h : Written fields members)
    (fills : Fills fields put draft) :
    ∃ seen, members.foldlM (Decode.member put) (draft []) =
        .ok (draft seen) ∧
      ∀ f ∈ fields, f.optional ∨ f.name ∈ seen := by
  have new : ∀ f ∈ fields, f.name ∈ ([] : List String) →
      some f.name ∉ members.map Prod.fst :=
    fun f _ seen => absurd seen List.not_mem_nil
  obtain ⟨seen, fold, names⟩ := fills.exists_fold h.toFit new
  refine ⟨seen, fold, fun f mem => (h.present f mem).imp_right fun here => ?_⟩
  exact (names f.name).mpr (.inr here)

/-- A record that is written can be read. -/
theorem Writes.decode_eq_ok {α : Type} {a : α} {names : List String}
    {finish : (String → DecodeError) → δ → Except DecodeError α}
    {doc : Document} (h : Writes fields doc)
    (fills : Fills fields put draft)
    (finished : ∀ seen, (∀ f ∈ fields, f.optional ∨ f.name ∈ seen) →
      finish .missingField (draft seen) = .ok a) :
    Decode.record names (draft []) put finish doc = .ok a := by
  obtain ⟨members, rfl, written⟩ := h
  obtain ⟨seen, fold, all⟩ := written.exists_fold fills
  rw [Decode.record, fold]
  exact finished seen all

end

/-! ## Writing the value again -/

/-- Whatever stands for the member has a value, and this value written again
stands for it as well. -/
def Settles (stands : Document → Prop) : Prop :=
  ∀ doc, stands doc → ∃ v, doc.value? = some v ∧ stands (.ofValue v)

/-- Only one document may stand, that of a value. -/
theorem settles_ofValue {v : Value} (h : v.Ordered) :
    Settles (· = .ofValue v) := by
  rintro _ rfl
  exact ⟨v, Document.value?_ofValue h, rfl⟩

theorem settles_ofFloat (x : Float) : Settles (· = .ofFloat x) := by
  rintro _ rfl
  refine ⟨Value.ofFloat x, ?_, ?_⟩ <;>
    unfold Document.ofFloat Value.ofFloat <;> split <;> rfl

/-- Any document of a value may stand. -/
theorem settles_value (v : Value) : Settles (·.value? = some v) := by
  intro doc value
  exact ⟨v, value, Document.value?_ofValue (Document.ordered_of_value? value)⟩

/-- Every member of a record has a key and a value. -/
theorem Fit.hasValue {fields : List Field}
    {members : List (Option String × Document)} (h : Fit fields members)
    (each : ∀ f ∈ fields, Settles f.stands) :
    ∀ m ∈ members, m.1.isSome = true ∧ m.2.value?.isSome = true := by
  rintro ⟨key, doc⟩ mem
  have keyed := h.keyed _ mem
  obtain ⟨key, rfl⟩ := Option.isSome_iff_exists.mp keyed
  refine ⟨keyed, ?_⟩
  by_cases own : key ∈ fields.map Field.name
  · obtain ⟨f, here, rfl⟩ := List.mem_map.mp own
    obtain ⟨v, value, -⟩ := each f here doc (h.known f here doc mem)
    exact Option.isSome_iff_exists.mpr ⟨v, value⟩
  · exact h.unknown key doc mem own

/-- The value of an object that writes a record, written again, writes this
record. -/
theorem Writes.settles {fields : List Field}
    (each : ∀ f ∈ fields, Settles f.stands) : Settles (Writes fields) := by
  rintro doc ⟨members, rfl, h⟩
  obtain ⟨entries, values⟩ :=
    Document.exists_memberValues? (h.hasValue each)
  have value : (Document.obj members true).value? =
      some (.obj (Assoc.ofList entries)) := by
    rw [Document.value?, if_pos rfl, values, Option.map_some]
  obtain ⟨nodup, keys⟩ := Document.keys_ofMembers_ofList values
  refine ⟨_, value, _, rfl, ⟨?keyed, ?once, ?known, ?unknown⟩, ?present⟩
  case keyed =>
    intro m mem
    rw [Document.ofMembers_eq_map] at mem
    obtain ⟨e, -, rfl⟩ := List.mem_map.mp mem
    rfl
  case once => exact fun f _ => List.nodup_iff_count_le_one.mp nodup _
  case known =>
    intro f here doc mem
    obtain ⟨v, old, rfl, mem, value⟩ :=
      Document.mem_ofMembers_ofList values mem
    obtain ⟨v', value', stands⟩ := each f here old (h.known f here old mem)
    obtain rfl := Option.some.inj (value.symm.trans value')
    exact stands
  case unknown =>
    intro key doc mem other
    obtain ⟨v, old, rfl, -, value⟩ :=
      Document.mem_ofMembers_ofList values mem
    rw [Document.value?_ofValue (Document.ordered_of_value? value)]
    rfl
  case present =>
    exact fun f mem => (h.present f mem).imp_right (keys (some f.name)).mpr

/-! ## Lists -/

/-- The document is an array whose items write the given things one after
another. -/
def WritesEach {α : Type} (writes : α → Document → Prop) (as : List α)
    (doc : Document) : Prop :=
  ∃ docs, doc = .list docs ∧ List.Forall₂ writes as docs

section
variable {α : Type} {writes : α → Document → Prop} {as : List α}
  {doc : Document}

theorem mapM_eq_ok {β : Type} {relates : α → β → Prop}
    {decode : β → Except DecodeError α} {bs : List β}
    (each : ∀ a ∈ as, ∀ b, relates a b → decode b = .ok a)
    (all : List.Forall₂ relates as bs) : bs.mapM decode = .ok as := by
  induction all with
  | nil => rfl
  | cons first _ ih =>
    rw [List.forall_mem_cons] at each
    rw [List.mapM_cons, each.1 _ first, ih each.2]
    rfl

theorem WritesEach.of_map {write : α → Document}
    (each : ∀ a, writes a (write a)) (as : List α) :
    WritesEach writes as (.list (as.map write)) :=
  ⟨_, rfl, List.forall₂_map_right_iff.mpr (List.forall₂_same.mpr
    fun a _ => each a)⟩

theorem WritesEach.decode_eq_ok {decode : Decoder α}
    (h : WritesEach writes as doc)
    (each : ∀ a ∈ as, ∀ doc, writes a doc → decode doc = .ok a) :
    Decode.list decode doc = .ok as := by
  obtain ⟨docs, rfl, all⟩ := h
  rw [Document.list, Decode.list, mapM_eq_ok each all]
  rfl

/-- The values of the items, written again, write the same things. -/
theorem WritesEach.exists_values
    (each : ∀ a ∈ as, Settles (writes a)) (h : WritesEach writes as doc) :
    ∃ values, doc.value? = some (.arr values) ∧
      List.Forall₂ (fun a v => writes a (.ofValue v)) as values := by
  obtain ⟨docs, rfl, all⟩ := h
  have values : ∃ values, Document.values? docs = some values ∧
      List.Forall₂ (fun a v => writes a (.ofValue v)) as values := by
    induction all with
    | nil => exact ⟨[], rfl, .nil⟩
    | cons first _ ih =>
      rw [List.forall_mem_cons] at each
      obtain ⟨v, value, again⟩ := each.1 _ first
      obtain ⟨vs, values, all⟩ := ih each.2
      refine ⟨v :: vs, ?_, .cons again all⟩
      rw [Document.values?, value, values]
  obtain ⟨vs, values, all⟩ := values
  refine ⟨vs, ?_, all⟩
  rw [Document.list, Document.value?, if_pos rfl, values, Option.map_some]

theorem WritesEach.settles (each : ∀ a ∈ as, Settles (writes a)) :
    Settles (WritesEach writes as) := by
  intro doc h
  obtain ⟨values, value, all⟩ := h.exists_values each
  refine ⟨_, value, values.map .ofValue, ?_, ?_⟩
  · rw [Document.ofValue, Document.ofItems_eq_map, Document.list]
  · exact List.forall₂_map_right_iff.mpr all

end

end Compositing.Json
