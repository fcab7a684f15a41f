/-
Compositing.Proofs.Assoc — ascending lists of entries as finite maps.

`get?_eq_some_iff_mem`: in a list whose keys ascend, the value of a key
is what its one entry holds. Beside it stand the views of `modify` and of
`ofList`, and how long a list is after an insertion.
-/
import Compositing.Assoc
import Mathlib.Data.List.Nodup

namespace Compositing.Assoc

variable {κ β : Type} [Ord κ]

/-! ## Keys -/

@[simp]
theorem get?_nil (key : κ) : get? key ([] : List (κ × β)) = none := rfl

/-- A modification keeps the keys. -/
theorem map_fst_modify (key : κ) (f : β → β) (entries : List (κ × β)) :
    (modify key f entries).map Prod.fst = entries.map Prod.fst := by
  unfold modify
  rw [List.map_map]
  refine List.map_congr_left fun e _ => ?_
  simp only [Function.comp]
  split <;> rfl

theorem modify_ascending {key : κ} {f : β → β} {entries : List (κ × β)}
    (h : Ascending entries) : Ascending (modify key f entries) := by
  unfold Ascending
  rw [map_fst_modify]
  exact h

/-- An erasure takes entries away and adds none. -/
theorem erase_sublist (key : κ) :
    ∀ entries : List (κ × β), (erase key entries).Sublist entries
  | [] => List.Sublist.slnil
  | (k, v) :: rest => by
    unfold erase
    split
    · exact (erase_sublist key rest).trans (List.sublist_cons_self _ _)
    · exact (erase_sublist key rest).cons_cons _

theorem erase_ascending {key : κ} {entries : List (κ × β)}
    (h : Ascending entries) : Ascending (erase key entries) :=
  List.Pairwise.sublist ((erase_sublist key entries).map _) h

/-- Inserting under a new key makes the list longer by one. -/
theorem length_insert {key : κ} (value : β) :
    ∀ {entries : List (κ × β)}, get? key entries = none →
      (insert key value entries).length = entries.length + 1
  | [], _ => rfl
  | (k, v) :: rest, h => by
    unfold get? at h
    unfold insert
    split at h
    · cases h
    · rename_i ne
      split
      · simp
      · rename_i eq
        exact absurd eq ne
      · simp [length_insert value h]

/-! ## Entries -/

section

variable [Std.LawfulEqOrd κ]

theorem compare_eq_iff {a b : κ} : compare a b = .eq ↔ a = b :=
  Std.LawfulEqCmp.compare_eq_iff_eq

/-- The keys of an ascending list are pairwise distinct. -/
theorem Ascending.nodup_keys {entries : List (κ × β)}
    (h : Ascending entries) : (entries.map Prod.fst).Nodup := by
  refine List.Pairwise.imp ?_ h
  rintro a b lt rfl
  simp [Std.ReflCmp.compare_self] at lt

/-- Whatever `get?` finds is an entry. -/
theorem mem_of_get?_eq_some {key : κ} {value : β} :
    ∀ {entries : List (κ × β)}, get? key entries = some value →
      (key, value) ∈ entries
  | (k, v) :: rest, h => by
    unfold get? at h
    split at h
    · rename_i eq
      obtain rfl := compare_eq_iff.mp eq
      obtain rfl := Option.some.inj h
      exact List.mem_cons_self
    · exact List.mem_cons_of_mem _ (mem_of_get?_eq_some h)

/-- In a list of distinct keys every entry is found. -/
theorem get?_of_mem {key : κ} {value : β} :
    ∀ {entries : List (κ × β)}, (entries.map Prod.fst).Nodup →
      (key, value) ∈ entries → get? key entries = some value
  | (k, v) :: rest, nodup, h => by
    simp only [List.map_cons, List.nodup_cons] at nodup
    unfold get?
    rcases List.mem_cons.mp h with eq | mem
    · obtain ⟨rfl, rfl⟩ := Prod.mk.inj eq
      simp
    · have ne : ¬ compare key k = .eq := by
        rw [compare_eq_iff]
        rintro rfl
        exact nodup.1 (List.mem_map.mpr ⟨_, mem, rfl⟩)
      rw [if_neg ne]
      exact get?_of_mem nodup.2 mem

/-- In an ascending list the value of a key is what its entry holds. -/
theorem get?_eq_some_iff_mem {entries : List (κ × β)} (h : Ascending entries)
    {key : κ} {value : β} :
    get? key entries = some value ↔ (key, value) ∈ entries :=
  ⟨mem_of_get?_eq_some, get?_of_mem h.nodup_keys⟩

/-- A key without a value is no key of the list. -/
theorem get?_eq_none_iff {key : κ} :
    ∀ {entries : List (κ × β)},
      get? key entries = none ↔ key ∉ entries.map Prod.fst
  | [] => by simp
  | (k, v) :: rest => by
    have ih : get? key rest = none ↔ _ := get?_eq_none_iff
    by_cases h : key = k
    · simp [get?, h]
    · simp [get?, h, ih]

/-- The value of a key after a modification. -/
theorem get?_modify [DecidableEq κ] (key : κ) (f : β → β) (k : κ) :
    ∀ entries : List (κ × β), get? k (modify key f entries) =
      if k = key then (get? k entries).map f else get? k entries
  | [] => by simp [modify]
  | (k', v) :: rest => by
    have ih := get?_modify key f k rest
    simp only [modify, compare_eq_iff, List.map_cons] at ih ⊢
    by_cases hk : k = k'
    · subst hk
      by_cases hkey : key = k
      · simp [get?, hkey]
      · simp [get?, hkey, Ne.symm hkey]
    · have hne : ¬ compare k k' = .eq := mt compare_eq_iff.mp hk
      split <;> simp [get?, hne, ih]

end

/-! ## Several insertions -/

/-- Whatever stands in a list after several insertions is an entry of the
patch or stood there before. -/
theorem mem_of_mem_insertAll {e : κ × β} :
    ∀ {patch entries : List (κ × β)}, e ∈ insertAll entries patch →
      e ∈ patch ∨ e ∈ entries
  | [], _, h => .inr h
  | (k, v) :: rest, entries, h => by
    rw [insertAll, List.foldl_cons, ← insertAll] at h
    rcases mem_of_mem_insertAll h with h | h
    · exact .inl (List.mem_cons_of_mem _ h)
    · rcases mem_of_mem_insert h with rfl | h
      · exact .inl List.mem_cons_self
      · exact .inr h

variable [Std.TransOrd κ]

/-- A key behind all others is put in at the end. -/
theorem insert_of_forall_lt {key : κ} {value : β} :
    ∀ {entries : List (κ × β)},
      (∀ e ∈ entries, compare e.1 key = .lt) →
        insert key value entries = entries ++ [(key, value)]
  | [], _ => rfl
  | (k, v) :: rest, below => by
    obtain ⟨first, others⟩ := List.forall_mem_cons.mp below
    have above : compare key k = .gt := Std.OrientedCmp.gt_of_lt first
    rw [insert, above, insert_of_forall_lt others, List.cons_append]

/-- Entries that go on in ascending order are put in one behind the
other. -/
theorem insertAll_eq_append :
    ∀ {patch entries : List (κ × β)}, Ascending (entries ++ patch) →
      insertAll entries patch = entries ++ patch
  | [], entries, _ => (List.append_nil entries).symm
  | (k, v) :: rest, entries, h => by
    have below : ∀ e ∈ entries, compare e.1 k = .lt := by
      rw [Ascending, List.map_append, List.pairwise_append] at h
      exact fun e mem => h.2.2 _ (List.mem_map_of_mem mem) _
        List.mem_cons_self
    have first : insertAll entries ((k, v) :: rest) =
        insertAll (insert k v entries) rest := rfl
    rw [List.append_cons] at h ⊢
    rw [first, insert_of_forall_lt below, insertAll_eq_append h]

/-- Entries in ascending order are the map that is built from them. -/
theorem ofList_eq_self {entries : List (κ × β)} (h : Ascending entries) :
    ofList entries = entries :=
  insertAll_eq_append h

variable [Std.LawfulEqOrd κ]

/-- The keys after an insertion are the new one and those that were
there. -/
theorem mem_keys_insert {key k : κ} {value : β} {entries : List (κ × β)} :
    k ∈ (insert key value entries).map Prod.fst ↔
      k = key ∨ k ∈ entries.map Prod.fst := by
  rw [← not_iff_not, ← get?_eq_none_iff, get?_insert, not_or,
    ← get?_eq_none_iff]
  by_cases same : k = key <;> simp [same]

/-- The keys after several insertions are those of the patch and those that
were there. -/
theorem mem_keys_insertAll {k : κ} :
    ∀ {patch entries : List (κ × β)},
      k ∈ (insertAll entries patch).map Prod.fst ↔
        k ∈ patch.map Prod.fst ∨ k ∈ entries.map Prod.fst
  | [], entries => by simp [insertAll]
  | (key, value) :: rest, entries => by
    rw [insertAll, List.foldl_cons, ← insertAll, mem_keys_insertAll,
      mem_keys_insert, List.map_cons, List.mem_cons, or_left_comm, or_assoc]

/-- A map built from entries has their keys. -/
theorem mem_keys_ofList {k : κ} {entries : List (κ × β)} :
    k ∈ (ofList entries).map Prod.fst ↔ k ∈ entries.map Prod.fst := by
  rw [ofList, mem_keys_insertAll]
  simp

variable [DecidableEq κ]

/-- The value of a key after several insertions: that of the patch, if
the patch has one. -/
theorem get?_insertAll (k : κ) :
    ∀ patch entries : List (κ × β), (patch.map Prod.fst).Nodup →
      get? k (insertAll entries patch) =
        (get? k patch).or (get? k entries)
  | [], entries, _ => by simp [insertAll]
  | (k', v) :: rest, entries, nodup => by
    simp only [List.map_cons, List.nodup_cons] at nodup
    have ih := get?_insertAll k rest (insert k' v entries) nodup.2
    simp only [insertAll, List.foldl_cons] at ih ⊢
    rw [ih, get?_insert]
    by_cases hk : k = k'
    · subst hk
      have : get? k rest = none := get?_eq_none_iff.mpr nodup.1
      simp [get?, this]
    · have hne : ¬ compare k k' = .eq := mt compare_eq_iff.mp hk
      simp [get?, hne]

/-- A map built from entries of distinct keys holds these entries. -/
theorem get?_ofList (k : κ) {entries : List (κ × β)}
    (nodup : (entries.map Prod.fst).Nodup) :
    get? k (ofList entries) = get? k entries := by
  unfold ofList
  rw [get?_insertAll k entries [] nodup]
  simp

/-- In a map built from entries of distinct keys exactly these entries are
found. -/
theorem get?_ofList_eq_some_iff {entries : List (κ × β)}
    (nodup : (entries.map Prod.fst).Nodup) {key : κ} {value : β} :
    get? key (ofList entries) = some value ↔ (key, value) ∈ entries := by
  rw [get?_ofList key nodup]
  exact ⟨mem_of_get?_eq_some, get?_of_mem nodup⟩

omit [DecidableEq κ] in
/-- New keys of a patch make a map longer by so many. -/
theorem length_insertAll :
    ∀ patch entries : List (κ × β), (patch.map Prod.fst).Nodup →
      (∀ key ∈ patch.map Prod.fst, get? key entries = none) →
      (insertAll entries patch).length = entries.length + patch.length
  | [], entries, _, _ => rfl
  | (k, v) :: rest, entries, nodup, fresh => by
    simp only [List.map_cons, List.nodup_cons] at nodup
    have ih := length_insertAll rest (insert k v entries) nodup.2
      fun key mem => by
        rw [get?_insert, if_neg]
        · exact fresh key (List.mem_cons_of_mem _ mem)
        · rw [compare_eq_iff]
          rintro rfl
          exact nodup.1 mem
    have one := length_insert v (fresh k List.mem_cons_self)
    rw [insertAll, List.foldl_cons, ← insertAll, ih, one, List.length_cons]
    omega

omit [DecidableEq κ] in
/-- A map built from entries of distinct keys has so many entries. -/
theorem length_ofList {entries : List (κ × β)}
    (nodup : (entries.map Prod.fst).Nodup) :
    (ofList entries).length = entries.length := by
  rw [ofList, length_insertAll entries [] nodup fun _ _ => rfl]
  exact Nat.zero_add _

end Compositing.Assoc
