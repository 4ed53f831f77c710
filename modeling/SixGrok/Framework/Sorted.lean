import Mathlib.Data.List.Destutter
import Mathlib.Data.List.Sort
import Mathlib.Order.Basic

namespace SixGrok.Framework

/-- Core orders machine words without bundling the order. -/
instance instLinearOrderUInt8 : LinearOrder UInt8 where
  le_refl := UInt8.le_refl
  le_trans _ _ _ := UInt8.le_trans
  le_antisymm _ _ := UInt8.le_antisymm
  le_total := UInt8.le_total
  lt_iff_le_not_ge := Std.LawfulOrderLT.lt_iff
  toDecidableLE := UInt8.decLe
  toDecidableLT := UInt8.decLt
  toDecidableEq := instDecidableEqUInt8

instance instLinearOrderUInt16 : LinearOrder UInt16 where
  le_refl := UInt16.le_refl
  le_trans _ _ _ := UInt16.le_trans
  le_antisymm _ _ := UInt16.le_antisymm
  le_total := UInt16.le_total
  lt_iff_le_not_ge := Std.LawfulOrderLT.lt_iff
  toDecidableLE := UInt16.decLe
  toDecidableLT := UInt16.decLt
  toDecidableEq := instDecidableEqUInt16

section SortDedup

variable {α : Type} [LinearOrder α]

/-- `sort_unstable` followed by `dedup`: an ascending list without repetitions. -/
def sortDedup (xs : List α) : List α :=
  (xs.insertionSort (· ≤ ·)).destutter (· ≠ ·)

theorem sortDedup_eq_dedup (xs : List α) :
    sortDedup xs = (xs.insertionSort (· ≤ ·)).dedup :=
  (List.pairwise_insertionSort (· ≤ ·) xs).destutter_eq_dedup

@[simp] theorem mem_sortDedup {x : α} {xs : List α} : x ∈ sortDedup xs ↔ x ∈ xs := by
  rw [sortDedup_eq_dedup, List.mem_dedup, (List.perm_insertionSort (· ≤ ·) xs).mem_iff]

theorem sortDedup_pairwise (xs : List α) : (sortDedup xs).Pairwise (· < ·) := by
  have hsorted := (List.pairwise_insertionSort (· ≤ ·) xs).sublist
    (List.dedup_sublist (xs.insertionSort (· ≤ ·)))
  have hnodup : (xs.insertionSort (· ≤ ·)).dedup.Nodup := List.nodup_dedup _
  rw [sortDedup_eq_dedup]
  exact (hsorted.and hnodup).imp fun h => lt_of_le_of_ne h.1 h.2

end SortDedup

end SixGrok.Framework
