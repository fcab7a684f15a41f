/-
Compositing.Proofs.Layer.Identity — identities are handed out once.

A source covers an identity when it has been moved past it. As long as
the source stays below the bound, what it hands out is none of the
identities that it covers (`ne_ofNat_of_covers`), and several identities
that it hands out are consecutive numbers, hence distinct
(`map_mintEach`, `nodup_map_ofNat`). What it `Gives` ascends, from the
next identity on (`Gives.ascending`, `Gives.range`).
-/
import Compositing.Layer.Id
import Mathlib.Data.List.Nodup
import Mathlib.Data.List.Perm.Basic

namespace Compositing

theorem LayerId.val_ofNat {n : Nat} (h : n < bound) : (ofNat n).val = n :=
  Nat.mod_eq_of_lt h

namespace IdSource

/-- The source has been moved past an identity; past the largest one it
cannot be moved. -/
def Covers (ids : IdSource) (id : LayerId) : Prop :=
  min (id.val + 1) (LayerId.bound - 1) ≤ ids.next

theorem Covers.mono {ids ids' : IdSource} {id : LayerId}
    (h : ids.Covers id) (le : ids.next ≤ ids'.next) : ids'.Covers id :=
  Nat.le_trans h le

/-- Identities below the next one are covered. -/
theorem covers_of_val_lt {ids : IdSource} {id : LayerId}
    (h : id.val < ids.next) : ids.Covers id := by
  unfold Covers
  omega

/-! ## Observing -/

theorem next_le_observe (ids : IdSource) (id : LayerId) :
    ids.next ≤ (ids.observe id).next :=
  Nat.le_max_left _ _

theorem covers_observe (ids : IdSource) (id : LayerId) :
    (ids.observe id).Covers id :=
  Nat.le_max_right _ _

theorem next_le_observeAll (ids : IdSource) (seen : List LayerId) :
    ids.next ≤ (ids.observeAll seen).next := by
  induction seen generalizing ids with
  | nil => exact Nat.le_refl _
  | cons id rest ih => exact Nat.le_trans (next_le_observe ids id) (ih _)

/-- Every identity that was observed is covered. -/
theorem covers_observeAll {seen : List LayerId} {id : LayerId} :
    ∀ {ids : IdSource}, id ∈ seen → (ids.observeAll seen).Covers id := by
  induction seen with
  | nil =>
    intro ids mem
    cases mem
  | cons a rest ih =>
    intro ids mem
    rcases List.mem_cons.mp mem with rfl | mem
    · exact (covers_observe ids id).mono (next_le_observeAll _ rest)
    · exact ih mem

/-- In which order identities are observed makes no difference. -/
theorem observeAll_perm {seen seen' : List LayerId} (h : seen.Perm seen')
    (ids : IdSource) : ids.observeAll seen = ids.observeAll seen' := by
  have comm : RightCommutative observe :=
    ⟨fun ids a b => congrArg mk (Nat.max_right_comm _ _ _)⟩
  exact h.foldl_eq ids

/-! ## Handing out -/

/-- An identity that is covered is none from the next one on. -/
theorem ne_ofNat_of_covers {ids : IdSource} {id : LayerId}
    (covers : ids.Covers id) {n : Nat} (le : ids.next ≤ n)
    (h : n + 1 < LayerId.bound) : id ≠ .ofNat n := by
  rintro rfl
  have val := LayerId.val_ofNat (Nat.lt_of_succ_lt h)
  unfold Covers at covers
  omega

/-- What is handed out is covered. -/
theorem covers_ofNat {ids : IdSource} {n : Nat} (lt : n < ids.next)
    (h : n < LayerId.bound) : ids.Covers (.ofNat n) :=
  covers_of_val_lt (by rw [LayerId.val_ofNat h]; exact lt)

/-- Each item gets the next identity. -/
theorem mintEach_eq {α β : Type} (f : LayerId → α → β) (items : List α)
    (ids : IdSource) :
    mintEach f items ids =
      ((items.zipIdx ids.next).map fun (a, n) => f (.ofNat n) a,
        { next := ids.next + items.length }) := by
  induction items generalizing ids with
  | nil => rfl
  | cons a rest ih =>
    simp only [mintEach, mint, ih, List.zipIdx_cons, List.map_cons,
      List.length_cons]
    rw [Nat.add_right_comm, Nat.add_assoc]

/-- The identities of items that were given one each: consecutive
numbers from the next one on. -/
theorem map_mintEach {α β : Type} {f : LayerId → α → β} {key : β → LayerId}
    (hf : ∀ id a, key (f id a) = id) (items : List α) (ids : IdSource) :
    (mintEach f items ids).1.map key =
      (List.range' ids.next items.length).map LayerId.ofNat := by
  rw [mintEach_eq, List.map_map]
  have : key ∘ (fun (a, n) => f (.ofNat n) a) =
      LayerId.ofNat ∘ (Prod.snd : α × Nat → Nat) := by
    funext ⟨a, n⟩
    exact hf _ a
  rw [this, ← List.map_map, List.zipIdx_map_snd]

/-- Consecutive numbers below the bound are distinct identities. -/
theorem nodup_map_ofNat {start count : Nat}
    (h : start + count < LayerId.bound) :
    ((List.range' start count).map LayerId.ofNat).Nodup := by
  refine List.Nodup.map_on ?_ List.nodup_range'
  intro a ha b hb eq
  have ha := List.mem_range'_1.mp ha
  have hb := List.mem_range'_1.mp hb
  have eq := congrArg LayerId.val eq
  rwa [LayerId.val_ofNat (by omega), LayerId.val_ofNat (by omega)] at eq

/-- Identities were handed out one after the other, and the source has
been moved past them. -/
structure Gives (ids : IdSource) (given : List LayerId) (ids' : IdSource) :
    Prop where
  consecutive : given = (List.range' ids.next given.length).map .ofNat
  past : ids.next + given.length ≤ ids'.next

namespace Gives

variable {ids ids' : IdSource} {given : List LayerId}

/-- Nothing was handed out. -/
theorem nil (le : ids.next ≤ ids'.next) : ids.Gives [] ids' :=
  ⟨rfl, le⟩

theorem of_count {count : Nat}
    (consecutive : given = (List.range' ids.next count).map .ofNat)
    (next : ids'.next = ids.next + count) : ids.Gives given ids' := by
  have length : given.length = count := by
    rw [consecutive, List.length_map, List.length_range']
  rw [← length] at consecutive next
  exact ⟨consecutive, Nat.le_of_eq next.symm⟩

theorem next_le (h : ids.Gives given ids') : ids.next ≤ ids'.next :=
  Nat.le_trans (Nat.le_add_right _ _) h.past

/-- As long as identities have not run out, what was handed out has the
numbers from the old next identity up to the new one. -/
theorem range (h : ids.Gives given ids') (bound : ids'.next < LayerId.bound)
    {id : LayerId} (mem : id ∈ given) :
    ids.next ≤ id.val ∧ id.val < ids'.next := by
  have past := h.past
  rw [h.consecutive] at mem
  obtain ⟨n, range, rfl⟩ := List.mem_map.mp mem
  obtain ⟨le, lt⟩ := List.mem_range'_1.mp range
  rw [LayerId.val_ofNat (by omega)]
  omega

theorem ascending (h : ids.Gives given ids')
    (bound : ids'.next < LayerId.bound) :
    given.Pairwise (·.val < ·.val) := by
  have past := h.past
  rw [h.consecutive, List.pairwise_map]
  refine (List.pairwise_lt_range' 1).imp_of_mem fun ha hb lt => ?_
  have := List.mem_range'_1.mp ha
  have := List.mem_range'_1.mp hb
  rwa [LayerId.val_ofNat (by omega), LayerId.val_ofNat (by omega)]

/-- What was handed out is nothing that was covered before. -/
theorem ne_of_covers (h : ids.Gives given ids')
    (bound : ids'.next < LayerId.bound) {seen id : LayerId}
    (covers : ids.Covers seen) (mem : id ∈ given) : seen ≠ id := by
  have past := h.past
  rw [h.consecutive] at mem
  obtain ⟨n, range, rfl⟩ := List.mem_map.mp mem
  obtain ⟨le, lt⟩ := List.mem_range'_1.mp range
  exact ne_ofNat_of_covers covers le (by omega)

end Gives

end IdSource

end Compositing
