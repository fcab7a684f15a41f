/-
Compositing.Proofs.Distinct — lists with every entry once.

Erasing repeats keeps the first of each, so what is left stands in the
order in which it first appears (`pairwise_idxOf_eraseDups`), and an entry
moves forward, if it moves (`mem_take_eraseDups`). It stays where it is
exactly if nothing before it was erased (`getElem?_eraseDups_eq_iff`).
-/
import Mathlib.Data.List.Induction
import Mathlib.Data.List.Perm.Subperm

namespace Compositing

variable {α : Type} [DecidableEq α]

/-! ## Order -/

theorem eraseDups_concat (items : List α) (x : α) :
    (items ++ [x]).eraseDups =
      if x ∈ items then items.eraseDups else items.eraseDups ++ [x] := by
  rw [List.eraseDups_append]
  split
  case isTrue seen => simp [List.removeAll, seen]
  case isFalse new => simp [List.removeAll, new, List.eraseDups_cons]

/-- What is listed once each is listed in the order in which it first
appears. -/
theorem pairwise_idxOf_eraseDups (items : List α) :
    items.eraseDups.Pairwise fun a b => items.idxOf a < items.idxOf b := by
  induction items using List.reverseRecOn with
  | nil => exact .nil
  | append_singleton items x ih =>
    have place {a : α} (mem : a ∈ items.eraseDups) :
        (items ++ [x]).idxOf a = items.idxOf a :=
      List.idxOf_append_of_mem (List.mem_eraseDups.mp mem)
    have before : items.eraseDups.Pairwise fun a b =>
        (items ++ [x]).idxOf a < (items ++ [x]).idxOf b := by
      refine ih.imp_of_mem fun ha hb lt => ?_
      rwa [place ha, place hb]
    rw [eraseDups_concat]
    split
    case isTrue => exact before
    case isFalse new =>
      refine List.pairwise_append.mpr
        ⟨before, List.pairwise_singleton _ x, fun a ha b hb => ?_⟩
      rw [List.mem_singleton.mp hb, place ha,
        List.idxOf_append_of_notMem new]
      exact Nat.lt_add_right _
        (List.idxOf_lt_length_of_mem (List.mem_eraseDups.mp ha))

theorem nodup_eraseDups (items : List α) : items.eraseDups.Nodup := by
  refine (pairwise_idxOf_eraseDups items).imp fun before same => ?_
  rw [same] at before
  exact Nat.lt_irrefl _ before

/-- Where nothing comes twice there is nothing to erase. -/
theorem eraseDups_of_nodup {items : List α} (h : items.Nodup) :
    items.eraseDups = items := by
  induction items with
  | nil => rfl
  | cons a rest ih =>
    obtain ⟨new, nodup⟩ := List.nodup_cons.mp h
    have others : rest.filter (fun b => !b == a) = rest := by
      refine List.filter_eq_self.mpr fun b mem => ?_
      simpa using fun eq : b = a => new (eq ▸ mem)
    rw [List.eraseDups_cons, others, ih nodup]

/-! ## Places -/

theorem length_eraseDups_le {items : List α} :
    items.eraseDups.length ≤ items.length :=
  (nodup_eraseDups items).length_le_of_subset fun _ mem =>
    List.mem_eraseDups.mp mem

/-- If nothing was erased, nothing came twice. -/
theorem nodup_of_le_length_eraseDups {items : List α}
    (h : items.length ≤ items.eraseDups.length) : items.Nodup := by
  have all : items.eraseDups ⊆ items := fun _ mem => List.mem_eraseDups.mp mem
  have perm := (List.subperm_of_subset (nodup_eraseDups items)
    all).perm_of_length_le h
  exact perm.nodup_iff.mp (nodup_eraseDups items)

/-- The first entries are listed first. -/
theorem eraseDups_eq_append (items : List α) (n : Nat) :
    items.eraseDups = (items.take n).eraseDups ++
      ((items.drop n).removeAll (items.take n)).eraseDups := by
  rw [← List.eraseDups_append, List.take_append_drop]

theorem mem_eraseDups_take {items : List α} {n : Nat} {item : α}
    (at_n : items[n]? = some item) :
    item ∈ (items.take (n + 1)).eraseDups := by
  refine List.mem_eraseDups.mpr (List.mem_of_getElem? (i := n) ?_)
  rw [List.getElem?_take_of_lt (Nat.lt_succ_self n), at_n]

/-- What stands at some place is, once each is listed, at no later one. -/
theorem mem_take_eraseDups {items : List α} {n : Nat} {item : α}
    (at_n : items[n]? = some item) :
    item ∈ items.eraseDups.take (n + 1) := by
  have few : (items.take (n + 1)).eraseDups.length ≤ n + 1 :=
    Nat.le_trans length_eraseDups_le (List.length_take_le _ _)
  rw [eraseDups_eq_append items (n + 1), List.take_append,
    List.take_of_length_le few]
  exact List.mem_append_left _ (mem_eraseDups_take at_n)

/-- Listing each once leaves the entry at a place where it was exactly if
no two entries up to there are the same. -/
theorem getElem?_eraseDups_eq_iff {items : List α} {n : Nat} :
    items.eraseDups[n]? = items[n]? ↔
      (n < items.length → (items.take (n + 1)).Nodup) := by
  have split := eraseDups_eq_append items (n + 1)
  constructor
  · intro same lt
    by_contra twice
    have at_n : items[n]? = some items[n] := List.getElem?_eq_getElem lt
    have len : (items.take (n + 1)).length = n + 1 :=
      List.length_take_of_le lt
    -- The entries up to there fill fewer places, and this is one of them.
    have fewer : (items.take (n + 1)).eraseDups.length ≤ n := by
      by_contra all
      exact twice (nodup_of_le_length_eraseDups (by omega))
    obtain ⟨m, at_m⟩ := List.mem_iff_getElem?.mp (mem_eraseDups_take at_n)
    have before := (List.getElem?_eq_some_iff.mp at_m).1
    rw [← List.getElem?_append_left before, ← split] at at_m
    have bound := (List.getElem?_eq_some_iff.mp at_m).1
    have := (List.getElem?_inj bound (nodup_eraseDups items)).mp
      (at_m.trans (same.trans at_n).symm)
    omega
  · intro apart
    by_cases lt : n < items.length
    · have here : (items.take (n + 1)).eraseDups = items.take (n + 1) :=
        eraseDups_of_nodup (apart lt)
      have bound : n < (items.take (n + 1)).length := by
        rw [List.length_take_of_le lt]
        exact Nat.lt_succ_self n
      rw [split, here, List.getElem?_append_left bound,
        List.getElem?_take_of_lt (Nat.lt_succ_self n)]
    · have none := Nat.le_of_not_lt lt
      rw [List.getElem?_eq_none none,
        List.getElem?_eq_none (Nat.le_trans length_eraseDups_le none)]

end Compositing
