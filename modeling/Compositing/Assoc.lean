/-
Compositing.Assoc — association lists whose keys ascend strictly.

Parameters, manifests, the layer arena and the step map are all finite
maps that answers show in key order. Each is a list of pairs kept in
strictly ascending key order: `insert` keeps the order
(`insert_ascending`), and `get?` is the view in which an operation is
described (`get?_insert`, `get?_erase`).
-/
namespace Compositing.Assoc

variable {κ β : Type} [Ord κ]

/-- The keys of the list ascend strictly. -/
def Ascending (entries : List (κ × β)) : Prop :=
  (entries.map Prod.fst).Pairwise (compare · · = .lt)

/-- The value of a key. -/
def get? (key : κ) : List (κ × β) → Option β
  | [] => none
  | (k, v) :: rest => if compare key k = .eq then some v else get? key rest

/-- Set the value of a key, in its place by key order. -/
def insert (key : κ) (value : β) : List (κ × β) → List (κ × β)
  | [] => [(key, value)]
  | (k, v) :: rest =>
    match compare key k with
    | .lt => (key, value) :: (k, v) :: rest
    | .eq => (key, value) :: rest
    | .gt => (k, v) :: insert key value rest

/-- Take a key out. -/
def erase (key : κ) : List (κ × β) → List (κ × β)
  | [] => []
  | (k, v) :: rest =>
    if compare key k = .eq then erase key rest else (k, v) :: erase key rest

/-- Replace the value of a key by a function of it; nothing happens to
a key that has none. -/
def modify (key : κ) (f : β → β) (entries : List (κ × β)) :
    List (κ × β) :=
  entries.map fun (k, v) => if compare key k = .eq then (k, f v) else (k, v)

/-- Set several keys one after another; a later entry wins. -/
def insertAll (entries patch : List (κ × β)) : List (κ × β) :=
  patch.foldl (fun acc (k, v) => insert k v acc) entries

/-- The map that holds the given entries; of several for one key the
last wins. -/
def ofList (entries : List (κ × β)) : List (κ × β) :=
  insertAll [] entries

/-! ## The keys ascend -/

theorem ascending_nil : Ascending ([] : List (κ × β)) := List.Pairwise.nil

theorem ascending_cons {k : κ} {v : β} {rest : List (κ × β)} :
    Ascending ((k, v) :: rest) ↔
      (∀ e ∈ rest, compare k e.1 = .lt) ∧ Ascending rest := by
  simp [Ascending, List.pairwise_cons]

/-- Whatever stands in a list after an insertion is the new entry or
stood there before. -/
theorem mem_of_mem_insert {key : κ} {value : β} {e : κ × β} :
    ∀ {entries : List (κ × β)}, e ∈ insert key value entries →
      e = (key, value) ∨ e ∈ entries
  | [], h => by simpa [insert] using h
  | (k, v) :: rest, h => by
    unfold insert at h
    split at h
    · simpa using h
    · rcases List.mem_cons.mp h with h | h
      · exact .inl h
      · exact .inr (List.mem_cons_of_mem _ h)
    · rcases List.mem_cons.mp h with h | h
      · exact .inr (h ▸ List.mem_cons_self)
      · rcases mem_of_mem_insert h with h | h
        · exact .inl h
        · exact .inr (List.mem_cons_of_mem _ h)

/-- Insertion keeps the keys ascending. -/
theorem insert_ascending [Std.TransOrd κ] {key : κ} {value : β} :
    ∀ {entries : List (κ × β)}, Ascending entries →
      Ascending (insert key value entries)
  | [], _ => by simp [insert, Ascending]
  | (k, v) :: rest, h => by
    have ⟨below, tail⟩ := ascending_cons.mp h
    unfold insert
    split
    · rename_i lt
      refine ascending_cons.mpr ⟨fun e he => ?_, h⟩
      rcases List.mem_cons.mp he with he | he
      · exact he ▸ lt
      · exact Std.TransCmp.lt_trans lt (below e he)
    · rename_i eq
      refine ascending_cons.mpr ⟨fun e he => ?_, tail⟩
      exact Std.TransCmp.lt_of_eq_of_lt eq (below e he)
    · rename_i gt
      refine ascending_cons.mpr ⟨fun e he => ?_, insert_ascending tail⟩
      rcases mem_of_mem_insert he with he | he
      · exact he ▸ Std.OrientedCmp.lt_of_gt gt
      · exact below e he

/-- Setting several keys keeps the keys ascending. -/
theorem insertAll_ascending [Std.TransOrd κ] {entries : List (κ × β)}
    (h : Ascending entries) :
    ∀ patch : List (κ × β), Ascending (insertAll entries patch) := by
  intro patch
  induction patch generalizing entries with
  | nil => exact h
  | cons e rest ih => exact ih (insert_ascending h)

/-- Every map built from entries has ascending keys. -/
theorem ofList_ascending [Std.TransOrd κ] (entries : List (κ × β)) :
    Ascending (ofList entries) :=
  insertAll_ascending ascending_nil entries

/-! ## What a key's value is afterwards -/

/-- After an insertion the key has the new value and every other key
the one it had. -/
theorem get?_insert [Std.TransOrd κ] (key : κ) (value : β) (k : κ) :
    ∀ entries : List (κ × β), get? k (insert key value entries) =
      if compare k key = .eq then some value else get? k entries
  | [] => by simp [insert, get?]
  | (k', v) :: rest => by
    unfold insert
    split
    · simp [get?]
    · rename_i eq
      simp only [get?]
      by_cases h : compare k key = .eq
      · simp [h]
      · have : compare k k' ≠ .eq := fun hk =>
          h (Std.TransCmp.eq_trans hk (Std.OrientedCmp.eq_symm eq))
        simp [h, this]
    · rename_i gt
      simp only [get?, get?_insert key value k rest]
      by_cases h : compare k key = .eq
      · have : compare k k' ≠ .eq := by
          rw [Std.TransCmp.congr_left h, gt]
          decide
        simp [h, this]
      · simp [h]

/-- After an erasure the key has no value and every other key the one
it had. -/
theorem get?_erase [Std.TransOrd κ] (key k : κ) :
    ∀ entries : List (κ × β), get? k (erase key entries) =
      if compare k key = .eq then none else get? k entries
  | [] => by simp [erase, get?]
  | (k', v) :: rest => by
    unfold erase
    split
    · rename_i eq
      rw [get?_erase key k rest]
      by_cases h : compare k key = .eq
      · simp [h]
      · have : compare k k' ≠ .eq := fun hk =>
          h (Std.TransCmp.eq_trans hk (Std.OrientedCmp.eq_symm eq))
        simp [h, get?, this]
    · rename_i ne
      simp only [get?, get?_erase key k rest]
      by_cases h : compare k key = .eq
      · have : compare k k' ≠ .eq := by
          rw [Std.TransCmp.congr_left h]
          exact ne
        simp [h, this]
      · simp [h]

end Compositing.Assoc
