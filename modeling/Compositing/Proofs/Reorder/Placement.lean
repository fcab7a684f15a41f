/-
Compositing.Proofs.Reorder.Placement — candidates are the legal moves of
one layer.

A layer can be moved if it is another one than its target, is not the base,
and both are there (`Movable`). `Moved` says what the order is then to
become: the others keep their order, the base its place, and the source
stands beside its target. `Below` the base there is no place, so there the
source stands right above it. Among distinct layers there is exactly one
such order (`existsUnique_moved`), and it is the candidate unless it is the
order that there was (`reorderCandidate_exact`).
-/
import Compositing.Proofs.Reorder.Candidate
import Mathlib.Data.List.Nodup

namespace Compositing

/-- The source may be moved beside the target. -/
structure Movable (order : List LayerId) (source target : LayerId) :
    Prop where
  apart : source ≠ target
  not_base : order.head? ≠ some source
  source_mem : source ∈ order
  target_mem : target ∈ order

/-- The source stands on the side of the target that was asked for; below
the base it stands right above it. -/
def Beside (base? : Option LayerId) (source target : LayerId)
    (order : List LayerId) : DropSide → Prop
  | .above => [target, source] <:+: order
  | .below =>
    if base? = some target then order[1]? = some source
    else [source, target] <:+: order

/-- An order after the source was moved beside the target. -/
structure Moved (order : List LayerId) (source target : LayerId)
    (side : DropSide) (moved : List LayerId) : Prop where
  perm : moved.Perm order
  base : moved.head? = order.head?
  others : moved.filter (· ≠ source) = order.filter (· ≠ source)
  beside : Beside order.head? source target moved side

variable {order moved : List LayerId} {source target : LayerId}
  {side : DropSide}

/-! ## Taking the source out -/

/-- Another layer than the base leaves the base when it is taken out. -/
theorem head?_erase (not_base : order.head? ≠ some source) :
    (order.erase source).head? = order.head? := by
  cases order with
  | nil => rfl
  | cons base rest =>
    have ne : base ≠ source := fun eq => not_base (congrArg some eq)
    rw [List.erase_cons_tail (by simpa using ne)]
    rfl

/-- The others stand below and above the target. -/
theorem Movable.exists_split (h : Movable order source target) :
    ∃ below above, order.erase source = below ++ target :: above ∧
      target ∉ below := by
  have mem : target ∈ order.erase source :=
    (List.mem_erase_of_ne h.apart.symm).mpr h.target_mem
  exact List.eq_append_cons_of_mem mem

/-- Two splits at an entry that comes once are the same. -/
theorem split_inj {below above below' above' : List LayerId}
    (nodup : (below ++ target :: above).Nodup)
    (h : below' ++ target :: above' = below ++ target :: above) :
    below' = below ∧ above' = above := by
  obtain ⟨-, nodup_above, apart⟩ := List.nodup_append.mp nodup
  have not_below : target ∉ below := fun mem =>
    apart target mem target List.mem_cons_self rfl
  have not_above := (List.nodup_cons.mp nodup_above).1
  obtain ⟨same, -, same'⟩ :=
    (List.append_cons_inj_of_notMem not_below not_above).mp h.symm
  exact ⟨same.symm, same'.symm⟩

/-! ## Putting the source back -/

/-- The source beside a target that stands between others. -/
def placed (below : List LayerId) (source target : LayerId)
    (above : List LayerId) : DropSide → List LayerId
  | .above => below ++ target :: source :: above
  | .below =>
    if below = [] then target :: source :: above
    else below ++ source :: target :: above

theorem insertIdx_length_append (below above : List LayerId)
    (id : LayerId) :
    (below ++ above).insertIdx below.length id = below ++ id :: above := by
  induction below with
  | nil => rfl
  | cons a rest ih =>
    rw [List.cons_append, List.length_cons, List.insertIdx_succ_cons, ih]
    rfl

theorem findIdx?_split {below above : List LayerId}
    (new : target ∉ below) :
    (below ++ target :: above).findIdx? (· = target) =
      some below.length := by
  refine List.findIdx?_eq_some_iff_getElem.mpr ⟨by simp, by simp, ?_⟩
  intro i before
  have ne : below[i] ≠ target := fun eq =>
    new (eq ▸ List.getElem_mem before)
  simpa [List.getElem_append_left before] using ne

/-- The candidate puts the source beside its target, unless it stands there
already. -/
theorem Movable.reorderCandidate_eq (h : Movable order source target)
    {below above : List LayerId}
    (split : order.erase source = below ++ target :: above)
    (new : target ∉ below) (side : DropSide) :
    reorderCandidate order source target side =
      if placed below source target above side = order then none
      else some (placed below source target above side) := by
  have legal : ¬ (source = target ∨ order.head? = some source ∨
      source ∉ order) := by
    simp [h.apart, h.not_base, h.source_mem]
  unfold reorderCandidate
  simp only [if_neg legal, split, findIdx?_split new]
  cases side with
  | above =>
    have index := insertIdx_length_append (below ++ [target]) above source
    rw [List.length_append, List.append_assoc, List.append_assoc] at index
    exact congrArg (fun moved => if moved = order then none else some moved)
      index
  | below =>
    cases below with
    | nil => rfl
    | cons base rest =>
      have index := insertIdx_length_append (base :: rest)
        (target :: above) source
      have pos : max (base :: rest).length 1 = (base :: rest).length :=
        Nat.max_eq_left (Nat.succ_pos _)
      simp only [placed, pos, index, reduceCtorEq, if_false]

/-- What was put beside the target is the source between what is below and
above it; it is not put beneath everything. -/
theorem exists_placed_eq (below : List LayerId) (source target : LayerId)
    (above : List LayerId) (side : DropSide) :
    ∃ pre post, placed below source target above side =
        pre ++ source :: post ∧
      pre ++ post = below ++ target :: above ∧ pre ≠ [] := by
  cases side with
  | above => exact ⟨below ++ [target], above, by simp [placed]⟩
  | below =>
    by_cases bottom : below = []
    · exact ⟨[target], above, by simp [placed, bottom]⟩
    · exact ⟨below, target :: above, by simp [placed, bottom]⟩

/-- Taking an entry that comes once out of a list leaves what is before and
behind it. -/
theorem erase_split {pre post : List LayerId} {id : LayerId}
    (nodup : (pre ++ id :: post).Nodup) :
    (pre ++ id :: post).erase id = pre ++ post := by
  have new : id ∉ pre := fun mem =>
    (List.nodup_append.mp nodup).2.2 id mem id List.mem_cons_self rfl
  rw [List.erase_append_right _ new, List.erase_cons_head]

/-! ## There is one such order -/

/-- Taking a layer out leaves the others as they stand. -/
theorem erase_eq_filter_ne (nodup : order.Nodup) (id : LayerId) :
    order.erase id = order.filter (· ≠ id) := by
  rw [nodup.erase_eq_filter]
  refine List.filter_congr fun a _ => ?_
  by_cases eq : a = id <;> simp [eq]

/-- After a move the others stand as they stood. -/
theorem Moved.erase_eq (h : Moved order source target side moved)
    (nodup : order.Nodup) :
    moved.erase source = order.erase source := by
  rw [erase_eq_filter_ne (h.perm.nodup_iff.mpr nodup),
    erase_eq_filter_ne nodup]
  exact h.others

namespace Movable

variable (h : Movable order source target) (nodup : order.Nodup)
  {below above : List LayerId}
  (split : order.erase source = below ++ target :: above)

include h nodup split

/-- The source put beside its target makes a move. -/
theorem moved_placed (side : DropSide) :
    Moved order source target side
      (placed below source target above side) := by
  obtain ⟨pre, post, eq, rest, nonempty⟩ :=
    exists_placed_eq below source target above side
  have base : (below ++ target :: above).head? = order.head? := by
    rw [← split, head?_erase h.not_base]
  refine { perm := ?perm, base := ?base, others := ?others, beside := ?beside }
  case perm =>
    rw [eq]
    refine List.perm_middle.trans ?_
    rw [rest, ← split]
    exact (List.perm_cons_erase h.source_mem).symm
  case base =>
    rw [← base, eq, ← rest]
    obtain ⟨a, pre, rfl⟩ := List.exists_cons_of_ne_nil nonempty
    rfl
  case others =>
    rw [eq, List.filter_append, List.filter_cons_of_neg (by simp),
      ← List.filter_append, rest, ← split, erase_eq_filter_ne nodup,
      List.filter_filter]
    simp only [Bool.and_self]
  case beside =>
    cases side with
    | above => exact ⟨below, above, by simp [placed]⟩
    | below =>
      rw [Beside, ← base]
      cases below with
      | nil => simp [placed]
      | cons a below =>
        have ne : a ≠ target := by
          have nodup' := nodup.erase source
          rw [split] at nodup'
          rintro rfl
          simp at nodup'
        rw [if_neg (by simpa using ne)]
        exact ⟨a :: below, above, by simp [placed]⟩

/-- What has the source beside the target is the target between the others
with the source put beside it. -/
theorem eq_placed (m : Moved order source target side moved) :
    moved = placed below source target above side := by
  have others (pre post : List LayerId)
      (eq : moved = pre ++ source :: post) :
      pre ++ post = below ++ target :: above := by
    have nodup' := m.perm.nodup_iff.mpr nodup
    rw [eq] at nodup'
    rw [← split, ← m.erase_eq nodup, eq, erase_split nodup']
  have nodup_others := nodup.erase source
  rw [split] at nodup_others
  have bottom := head?_erase h.not_base
  rw [split] at bottom
  have beside := m.beside
  cases side with
  | above =>
    obtain ⟨pre, post, eq⟩ := beside
    have rest := others (pre ++ [target]) post (by simp [← eq])
    rw [List.append_assoc] at rest
    obtain ⟨rfl, rfl⟩ := split_inj nodup_others rest
    simp [placed, ← eq]
  | below =>
    unfold Beside at beside
    by_cases at_base : order.head? = some target
    case pos =>
      -- Nothing is below the base, so the source is the second.
      rw [if_pos at_base] at beside
      have base := m.base.trans at_base
      match moved, base, beside with
      | _ :: _ :: post, rfl, rfl =>
        have rest : [] ++ target :: post = below ++ target :: above :=
          others [target] post rfl
        obtain ⟨rfl, rfl⟩ := split_inj nodup_others rest
        rfl
    case neg =>
      rw [if_neg at_base] at beside
      obtain ⟨pre, post, eq⟩ := beside
      have rest := others pre (target :: post) (by simp [← eq])
      obtain ⟨rfl, rfl⟩ := split_inj nodup_others rest
      have nonempty : pre ≠ [] := by
        rintro rfl
        exact at_base bottom.symm
      simp [placed, nonempty, ← eq]

end Movable

/-- A layer that can be moved beside another can be moved there in one
way. -/
theorem Movable.existsUnique_moved (h : Movable order source target)
    (nodup : order.Nodup) (side : DropSide) :
    ∃! moved, Moved order source target side moved := by
  obtain ⟨below, above, split, -⟩ := h.exists_split
  exact ⟨_, h.moved_placed nodup split side,
    fun _ m => h.eq_placed nodup split m⟩

/-- There is no candidate for a move that is not legal. -/
theorem reorderCandidate_of_not_movable (h : ¬ Movable order source target)
    (side : DropSide) :
    reorderCandidate order source target side = none := by
  unfold reorderCandidate
  split
  · rfl
  · rename_i legal
    simp only [not_or, not_not] at legal
    obtain ⟨apart, not_base, source_mem⟩ := legal
    have missing : target ∉ order.erase source := fun mem =>
      h ⟨apart, not_base, source_mem, List.mem_of_mem_erase mem⟩
    have nowhere : (order.erase source).findIdx? (· = target) = none :=
      List.findIdx?_eq_none_iff.mpr fun id mem =>
        decide_eq_false fun eq => missing (eq ▸ mem)
    simp only [nowhere]

/-- Among distinct layers the candidate is the one order that the move asks
for, unless the move is not legal or changes nothing. -/
theorem reorderCandidate_exact (nodup : order.Nodup)
    (source target : LayerId) (side : DropSide) :
    (Movable order source target →
      ∃! moved, Moved order source target side moved) ∧
    (reorderCandidate order source target side = none ↔
      order = [] ∨ source = target ∨ order.head? = some source ∨
        source ∉ order ∨ target ∉ order ∨
        Moved order source target side order) ∧
    ∀ candidate,
      reorderCandidate order source target side = some candidate ↔
        Movable order source target ∧ candidate ≠ order ∧
          Moved order source target side candidate := by
  by_cases h : Movable order source target
  case pos =>
    obtain ⟨below, above, split, new⟩ := h.exists_split
    have moved_iff {moved : List LayerId} :
        Moved order source target side moved ↔
          moved = placed below source target above side :=
      ⟨h.eq_placed nodup split, fun eq => eq ▸ h.moved_placed nodup split side⟩
    refine ⟨fun _ => h.existsUnique_moved nodup side, ?none, ?some⟩
    case none =>
      have nonempty := List.ne_nil_of_mem h.source_mem
      simp [h.reorderCandidate_eq split new, moved_iff, nonempty, h.apart,
        h.not_base, h.source_mem, h.target_mem, eq_comm]
    case some =>
      intro candidate
      rw [h.reorderCandidate_eq split new, moved_iff]
      constructor
      · intro found
        split at found
        · cases found
        · rename_i changed
          cases found
          exact ⟨h, changed, rfl⟩
      · rintro ⟨-, changed, rfl⟩
        rw [if_neg changed]
  case neg =>
    have none := reorderCandidate_of_not_movable h side
    refine ⟨fun movable => absurd movable h, ⟨fun _ => ?_, fun _ => none⟩, ?_⟩
    · by_contra legal
      simp only [not_or, not_not] at legal
      obtain ⟨-, apart, not_base, source_mem, target_mem, -⟩ := legal
      exact h ⟨apart, not_base, source_mem, target_mem⟩
    · intro candidate
      rw [none]
      exact ⟨nofun, fun ⟨movable, _⟩ => absurd movable h⟩

/-- The topmost of four layers is dropped below the base. -/
theorem reorderCandidate_exact_below_base :
    let order : List LayerId := [.ofNat 0, .ofNat 1, .ofNat 2, .ofNat 3]
    order.Nodup ∧ Movable order (.ofNat 3) (.ofNat 0) ∧
      reorderCandidate order (.ofNat 3) (.ofNat 0) .below =
        some [.ofNat 0, .ofNat 3, .ofNat 1, .ofNat 2] ∧
      Moved order (.ofNat 3) (.ofNat 0) .below
        [.ofNat 0, .ofNat 3, .ofNat 1, .ofNat 2] := by
  intro order
  have nodup : order.Nodup := by decide
  obtain ⟨-, -, candidate_iff⟩ :=
    reorderCandidate_exact nodup (.ofNat 3) (.ofNat 0) .below
  have found : reorderCandidate order (.ofNat 3) (.ofNat 0) .below =
      some [.ofNat 0, .ofNat 3, .ofNat 1, .ofNat 2] := by decide
  obtain ⟨movable, -, moved⟩ := (candidate_iff _).mp found
  exact ⟨nodup, movable, found, moved⟩

end Compositing
