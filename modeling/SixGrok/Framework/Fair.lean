import Mathlib.Order.WellFounded
import SixGrok.Framework.Tasks

namespace SixGrok.Framework.Tasks

variable {κ ι lam σ : Type} [DecidableEq κ]

/-- Every task has a turn again and again. -/
def Fair (turns : Nat → κ × ι) : Prop := ∀ k n, ∃ m, n ≤ m ∧ (turns m).1 = k

/-- The first turns of an endless schedule. -/
def first (turns : Nat → κ × ι) (n : Nat) : List (κ × ι) := (List.range n).map turns

section Eventually

variable (move : κ → ι → lam × σ → lam × σ)

theorem run_first_succ (tasks : Tasks κ lam σ) (turns : Nat → κ × ι) (n : Nat) :
    tasks.run move (first turns (n + 1)) =
      (tasks.run move (first turns n)).turn move (turns n).1 (turns n).2 := by
  rw [first, List.range_succ, List.map_append, run_append]
  rfl

/-- Why the tasks come to an end: a turn changes nothing or lowers the rank, and before the end there
is a task whose turn lowers it, whatever the world outside answers. -/
structure Variant {α : Type} [LT α] (inv done : Tasks κ lam σ → Prop) (rank : Tasks κ lam σ → α) :
    Prop where
  keeps : ∀ tasks k input, inv tasks → inv (tasks.turn move k input)
  lowers : ∀ tasks k input, inv tasks →
    tasks.turn move k input = tasks ∨ rank (tasks.turn move k input) < rank tasks
  helps : ∀ tasks, inv tasks → ¬ done tasks →
    ∃ k, ∀ input, rank (tasks.turn move k input) < rank tasks
  stays : ∀ tasks k input, done tasks → tasks.turn move k input = tasks

variable {move} {α : Type} [LT α] {inv done : Tasks κ lam σ → Prop} {rank : Tasks κ lam σ → α}

theorem Variant.inv_first (variant : Variant move inv done rank) {tasks : Tasks κ lam σ}
    (hinv : inv tasks) (turns : Nat → κ × ι) (n : Nat) : inv (tasks.run move (first turns n)) := by
  induction n with
  | zero => exact hinv
  | succ n ih =>
    rw [run_first_succ]
    exact variant.keeps _ _ _ ih

/-- Until the rank is lower, nothing has changed. -/
theorem Variant.unchanged (variant : Variant move inv done rank) {tasks : Tasks κ lam σ}
    (hinv : inv tasks) (turns : Nat → κ × ι) {n m : Nat} (hnm : n ≤ m)
    (same : ∀ i, n ≤ i → i ≤ m →
      ¬ rank (tasks.run move (first turns i)) < rank (tasks.run move (first turns n))) :
    tasks.run move (first turns m) = tasks.run move (first turns n) := by
  induction m, hnm using Nat.le_induction with
  | base => rfl
  | succ m hle ih =>
    have hm := ih fun i hni him => same i hni (Nat.le_succ_of_le him)
    rcases variant.lowers _ (turns m).1 (turns m).2 (variant.inv_first hinv turns m) with
      hturn | hlower
    · rw [run_first_succ, hturn, hm]
    · have hnot := same (m + 1) (Nat.le_succ_of_le hle) (Nat.le_refl _)
      rw [run_first_succ] at hnot
      rw [hm] at hlower hnot
      exact absurd hlower hnot

/-- Where the tasks are not at their end, a fair schedule lowers the rank. -/
theorem Variant.lowered (variant : Variant move inv done rank) {tasks : Tasks κ lam σ}
    (hinv : inv tasks) {turns : Nat → κ × ι} (fair : Fair turns) {n : Nat}
    (hdone : ¬ done (tasks.run move (first turns n))) :
    ∃ m, rank (tasks.run move (first turns m)) < rank (tasks.run move (first turns n)) := by
  by_contra hnever
  push Not at hnever
  obtain ⟨k, hk⟩ := variant.helps _ (variant.inv_first hinv turns n) hdone
  obtain ⟨m, hnm, hturn⟩ := fair k n
  have hsame := variant.unchanged hinv turns hnm fun i _ _ => hnever i
  apply hnever (m + 1)
  rw [run_first_succ, hsame, hturn]
  exact hk _

variable [WellFoundedLT α]

/-- The rule for what fair schedules bring about: tasks with a well-founded variant come to their end
and stay there. -/
theorem Variant.eventually (variant : Variant move inv done rank) {tasks : Tasks κ lam σ}
    (hinv : inv tasks) {turns : Nat → κ × ι} (fair : Fair turns) :
    ∃ n, ∀ m, n ≤ m → done (tasks.run move (first turns m)) ∧
      tasks.run move (first turns m) = tasks.run move (first turns n) := by
  have hend : ∃ n, done (tasks.run move (first turns n)) := by
    by_contra hnever
    push Not at hnever
    have hdescent (a : α) : ∀ n, rank (tasks.run move (first turns n)) ≠ a := by
      induction a using WellFoundedLT.induction with
      | ind a ih =>
        rintro n rfl
        obtain ⟨m, hm⟩ := variant.lowered hinv fair (hnever n)
        exact ih _ hm m rfl
    exact hdescent _ 0 rfl
  obtain ⟨n, hn⟩ := hend
  refine ⟨n, ?_⟩
  intro m hnm
  have hsame : tasks.run move (first turns m) = tasks.run move (first turns n) := by
    induction m, hnm using Nat.le_induction with
    | base => rfl
    | succ m _ ih =>
      rw [run_first_succ, ih]
      exact variant.stays _ _ _ hn
  exact ⟨hsame ▸ hn, hsame⟩

end Eventually

end SixGrok.Framework.Tasks
