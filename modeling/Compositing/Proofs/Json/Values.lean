/-
Compositing.Proofs.Json.Values — what a document says as a value.

A value forgets the order of the members of an object, and all but the
last of those with one key. Nothing else is lost: a document that writes
an ordered value has this value (`value?_ofValue`), and the members of a
value that is written again are members of the document it is the value
of (`mem_ofMembers_ofList`).
-/
import Compositing.Json.Document
import Compositing.Proofs.Assoc

namespace Compositing.Json.Document

theorem ofMembers_eq_map :
    ∀ members : List (String × Value),
      ofMembers members = members.map fun e => (some e.1, ofValue e.2)
  | [] => rfl
  | (key, value) :: rest => by
    rw [ofMembers, ofMembers_eq_map rest, List.map_cons]

theorem ofItems_eq_map :
    ∀ items : List Value, ofItems items = items.map ofValue
  | [] => rfl
  | item :: rest => by rw [ofItems, ofItems_eq_map rest, List.map_cons]

/-- An object has a value if each of its members has a key and a value. -/
theorem exists_memberValues? :
    ∀ {members : List (Option String × Document)},
      (∀ m ∈ members, m.1.isSome = true ∧ m.2.value?.isSome = true) →
        ∃ entries, memberValues? members = some entries
  | [], _ => ⟨[], rfl⟩
  | (key, item) :: rest, h => by
    obtain ⟨⟨hasKey, hasValue⟩, others⟩ := List.forall_mem_cons.mp h
    obtain ⟨k, rfl⟩ := Option.isSome_iff_exists.mp hasKey
    obtain ⟨v, value⟩ := Option.isSome_iff_exists.mp hasValue
    obtain ⟨entries, more⟩ := exists_memberValues? others
    exact ⟨(k, v) :: entries, by simp only [memberValues?, value, more]⟩

/-- Each entry comes from a member, and the keys are the same. -/
theorem of_memberValues? {members : List (Option String × Document)} :
    ∀ {entries : List (String × Value)},
      memberValues? members = some entries →
        (∀ e ∈ entries, ∃ doc, (some e.1, doc) ∈ members ∧
          doc.value? = some e.2) ∧
        members.map Prod.fst = entries.map fun e => some e.1 := by
  induction members with
  | nil =>
    intro entries h
    cases h
    exact ⟨List.forall_mem_nil _, rfl⟩
  | cons m rest ih =>
    intro entries h
    unfold memberValues? at h
    split at h
    · rename_i k v vs key value more
      cases h
      obtain ⟨origin, keys⟩ := ih more
      refine ⟨List.forall_mem_cons.mpr ⟨?_, fun e mem => ?_⟩, ?_⟩
      · exact ⟨m.2, key ▸ List.mem_cons_self, value⟩
      · obtain ⟨doc, here, value⟩ := origin e mem
        exact ⟨doc, List.mem_cons_of_mem _ here, value⟩
      · rw [List.map_cons, List.map_cons, keys, key]
    · cases h

/-- The members of a value that was written are the last ones under their
keys. -/
theorem mem_ofMembers_ofList
    {members : List (Option String × Document)}
    {entries : List (String × Value)}
    (values : memberValues? members = some entries) {key : Option String}
    {doc : Document} (mem : (key, doc) ∈ ofMembers (Assoc.ofList entries)) :
    ∃ v doc', doc = ofValue v ∧ (key, doc') ∈ members ∧
      doc'.value? = some v := by
  rw [ofMembers_eq_map] at mem
  obtain ⟨e, here, eq⟩ := List.mem_map.mp mem
  obtain ⟨rfl, rfl⟩ := Prod.mk.inj eq
  have old := (Assoc.mem_of_mem_insertAll here).resolve_right
    List.not_mem_nil
  obtain ⟨doc', here', value⟩ := (of_memberValues? values).1 e old
  exact ⟨e.2, doc', rfl, here', value⟩

/-- Their keys are those of all members, each once. -/
theorem keys_ofMembers_ofList
    {members : List (Option String × Document)}
    {entries : List (String × Value)}
    (values : memberValues? members = some entries) :
    ((ofMembers (Assoc.ofList entries)).map Prod.fst).Nodup ∧
      ∀ key, key ∈ (ofMembers (Assoc.ofList entries)).map Prod.fst ↔
        key ∈ members.map Prod.fst := by
  have written : (ofMembers (Assoc.ofList entries)).map Prod.fst =
      ((Assoc.ofList entries).map Prod.fst).map some := by
    rw [ofMembers_eq_map, List.map_map, List.map_map]
    rfl
  have keys : members.map Prod.fst = (entries.map Prod.fst).map some := by
    rw [(of_memberValues? values).2, List.map_map]
    rfl
  rw [written, keys]
  refine ⟨?_, fun key => ?_⟩
  · exact (Assoc.ofList_ascending entries).nodup_keys.map
      fun _ _ => Option.some.inj
  · simp only [List.mem_map (f := some), Assoc.mem_keys_ofList]

mutual

/-- The document that writes an ordered value has this value. -/
theorem value?_ofValue :
    ∀ {v : Value}, v.Ordered → (ofValue v).value? = some v
  | .null, _ | .bool _, _ | .int _, _ | .float _, _ | .str _, _ => rfl
  | .arr items, h => by
    rw [ofValue, value?, if_pos rfl, values?_ofItems h]
    rfl
  | .obj members, h => by
    rw [ofValue, value?, if_pos rfl, memberValues?_ofMembers h.2,
      Option.map_some, Assoc.ofList_eq_self h.1]

theorem values?_ofItems :
    ∀ {items : List Value}, Value.OrderedItems items →
      values? (ofItems items) = some items
  | [], _ => rfl
  | item :: rest, h => by
    rw [ofItems, values?, value?_ofValue h.1, values?_ofItems h.2]

theorem memberValues?_ofMembers :
    ∀ {members : List (String × Value)}, Value.OrderedMembers members →
      memberValues? (ofMembers members) = some members
  | [], _ => rfl
  | (key, value) :: rest, h => by
    simp only [ofMembers, memberValues?, value?_ofValue h.1,
      memberValues?_ofMembers h.2]

end

/-- A document that has a value goes on to its end. -/
theorem isComplete_of_value? :
    ∀ {doc : Document}, doc.value?.isSome = true → doc.isComplete = true
  | .null, _ | .bool _, _ | .int _, _ | .float _, _ | .str _, _ => rfl
  | .arr items closed, h | .obj members closed, h => by
    cases closed with
    | true => rfl
    | false => cases h

end Compositing.Json.Document
