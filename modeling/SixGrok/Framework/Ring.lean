import Mathlib.Data.List.DropRight
import Mathlib.Data.List.Induction
import Mathlib.Tactic.Common

namespace SixGrok.Framework

variable {α : Type}

/-- `while len > limit { pop_front }`. -/
def evict (limit : Nat) : List α → List α
  | [] => []
  | x :: xs => if limit < (x :: xs).length then evict limit xs else x :: xs

theorem evict_eq_rtake (limit : Nat) (xs : List α) : evict limit xs = xs.rtake limit := by
  induction xs with
  | nil => simp [evict]
  | cons x xs ih =>
    rw [evict]
    split_ifs with hlong
    · have hle : limit ≤ xs.length := Nat.le_of_lt_succ hlong
      rw [ih, List.rtake, List.rtake, List.length_cons, Nat.succ_sub hle, List.drop_succ_cons]
    · rw [List.rtake, Nat.sub_eq_zero_of_le (Nat.le_of_not_lt hlong), List.drop_zero]

theorem rtake_of_length_le {n : Nat} {xs : List α} (few : xs.length ≤ n) : xs.rtake n = xs := by
  rw [List.rtake, Nat.sub_eq_zero_of_le few, List.drop_zero]

theorem length_rtake (n : Nat) (xs : List α) : (xs.rtake n).length = min xs.length n := by
  rw [List.rtake, List.length_drop]
  omega

theorem rtake_rtake (m n : Nat) (xs : List α) : (xs.rtake m).rtake n = xs.rtake (min n m) := by
  have hlength := length_rtake m xs
  rw [List.rtake, hlength, List.rtake, List.drop_drop, List.rtake]
  congr 1
  omega

/-- Eviction forgets nothing that a later eviction would keep. -/
theorem rtake_append_rtake (limit : Nat) (xs ys : List α) :
    (xs.rtake limit ++ ys).rtake limit = (xs ++ ys).rtake limit := by
  have hdrop : xs.rtake limit ++ ys = (xs ++ ys).drop (xs.length - limit) := by
    rw [List.rtake, List.drop_append_of_le_length (Nat.sub_le ..)]
  rw [hdrop, List.rtake, List.length_drop, List.drop_drop, List.rtake]
  congr 1
  rw [List.length_append]
  omega

/-- A bounded queue holds the most recent of everything that was ever pushed. -/
theorem foldl_evict (limit : Nat) (log : List α) :
    log.foldl (fun kept x => evict limit (kept ++ [x])) [] = log.rtake limit := by
  induction log using List.reverseRecOn with
  | nil => simp
  | append_singleton log x ih =>
    rw [List.foldl_append, ih, List.foldl_cons, List.foldl_nil, evict_eq_rtake, rtake_append_rtake]

end SixGrok.Framework
