import Mathlib.Logic.Function.Basic
import Mathlib.Tactic.Common

namespace SixGrok.Framework

/-- The tasks of a program: what each has to itself, and what all of them share. -/
structure Tasks (κ lam σ : Type) where
  own : κ → lam
  shared : σ

namespace Tasks

variable {κ ι lam σ : Type} [DecidableEq κ]

section Run

-- What a task does with its turn; the input is what the world outside answers.
variable (move : κ → ι → lam × σ → lam × σ)

def turn (tasks : Tasks κ lam σ) (k : κ) (input : ι) : Tasks κ lam σ :=
  let next := move k input (tasks.own k, tasks.shared)
  { own := Function.update tasks.own k next.1, shared := next.2 }

/-- The tasks take their turns in the order of a schedule. -/
def run (tasks : Tasks κ lam σ) : List (κ × ι) → Tasks κ lam σ
  | [] => tasks
  | (k, input) :: schedule => run (tasks.turn move k input) schedule

theorem run_append (tasks : Tasks κ lam σ) (schedule more : List (κ × ι)) :
    tasks.run move (schedule ++ more) = (tasks.run move schedule).run move more := by
  induction schedule generalizing tasks with
  | nil => rfl
  | cons first schedule ih => exact ih (tasks.turn move first.1 first.2)

@[simp] theorem turn_own (tasks : Tasks κ lam σ) (k : κ) (input : ι) :
    (tasks.turn move k input).own k = (move k input (tasks.own k, tasks.shared)).1 := by
  simp [turn]

theorem turn_own_of_ne (tasks : Tasks κ lam σ) {k other : κ} (h : other ≠ k) (input : ι) :
    (tasks.turn move k input).own other = tasks.own other := by
  simp [turn, h]

@[simp] theorem turn_shared (tasks : Tasks κ lam σ) (k : κ) (input : ι) :
    (tasks.turn move k input).shared = (move k input (tasks.own k, tasks.shared)).2 := rfl

/-- A task that has no turn stays where it is, and so does what the others never touch. -/
theorem run_unscheduled {β : Type} (view : σ → β) {k : κ}
    (untouched : ∀ other input l s, other ≠ k → view (move other input (l, s)).2 = view s)
    {schedule : List (κ × ι)} (absent : ∀ turn ∈ schedule, turn.1 ≠ k) (tasks : Tasks κ lam σ) :
    (tasks.run move schedule).own k = tasks.own k ∧
      view (tasks.run move schedule).shared = view tasks.shared := by
  induction schedule generalizing tasks with
  | nil => exact ⟨rfl, rfl⟩
  | cons first schedule ih =>
    obtain ⟨other, input⟩ := first
    have hother : other ≠ k := absent _ (List.mem_cons_self ..)
    obtain ⟨hown, hview⟩ := ih (fun turn hturn => absent turn (List.mem_cons_of_mem _ hturn))
      (tasks.turn move other input)
    refine ⟨hown.trans (turn_own_of_ne move tasks hother.symm input), hview.trans ?_⟩
    exact untouched other input (tasks.own other) tasks.shared hother

end Run

/-- An invariant of what is shared and an assertion about each task, such that a turn keeps
the invariant and the assertion of its own task, and changes what is shared only in ways that
the other tasks' assertions survive. -/
structure Compatible (move : κ → ι → lam × σ → lam × σ) (inv : σ → Prop)
    (claim : κ → lam × σ → Prop) (rely : κ → σ → σ → Prop) : Prop where
  keeps : ∀ k input l s, inv s → claim k (l, s) →
    inv (move k input (l, s)).2 ∧ claim k (move k input (l, s))
  guarantees : ∀ k other input l s, k ≠ other → claim other (l, s) →
    rely k s (move other input (l, s)).2
  stable : ∀ k l s s', claim k (l, s) → rely k s s' → claim k (l, s')

namespace Compatible

variable {move : κ → ι → lam × σ → lam × σ} {inv : σ → Prop} {claim : κ → lam × σ → Prop}
  {rely : κ → σ → σ → Prop}

theorem turn (h : Compatible move inv claim rely) {tasks : Tasks κ lam σ}
    (hinv : inv tasks.shared) (hclaim : ∀ k, claim k (tasks.own k, tasks.shared)) (k : κ)
    (input : ι) :
    let next := tasks.turn move k input
    inv next.shared ∧ ∀ k', claim k' (next.own k', next.shared) := by
  intro next
  have hnext := h.keeps k input (tasks.own k) tasks.shared hinv (hclaim k)
  refine ⟨hnext.1, ?_⟩
  intro k'
  by_cases hk : k' = k
  · subst hk
    simpa [next] using hnext.2
  · have hrely := h.guarantees k' k input (tasks.own k) tasks.shared hk (hclaim k)
    have hstable := h.stable k' (tasks.own k') tasks.shared _ (hclaim k') hrely
    simpa [next, turn_own_of_ne move tasks hk] using hstable

/-- The rule for programs of interleaved tasks: compatible assertions that hold at the start
hold after every schedule. -/
theorem run (h : Compatible move inv claim rely) (schedule : List (κ × ι))
    (tasks : Tasks κ lam σ) (hinv : inv tasks.shared)
    (hclaim : ∀ k, claim k (tasks.own k, tasks.shared)) :
    let final := tasks.run move schedule
    inv final.shared ∧ ∀ k, claim k (final.own k, final.shared) := by
  induction schedule generalizing tasks with
  | nil => exact ⟨hinv, hclaim⟩
  | cons first schedule ih =>
    obtain ⟨k, input⟩ := first
    have hturn := h.turn hinv hclaim k input
    exact ih (tasks.turn move k input) hturn.1 hturn.2

end Compatible

end Tasks

end SixGrok.Framework
