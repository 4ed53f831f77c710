import Mathlib.Data.List.Basic
import Mathlib.Tactic.Common

namespace SixGrok.Framework

/-- A callback over a state of its own: `FnMut(α) -> Result<(), ε>`. -/
abbrev Consumer (σ ε α : Type) := α → σ → Except ε Unit × σ

namespace Consumer

variable {σ ε α : Type}

/-- Hand the items over in order, up to the first that is refused. -/
def feedAll (consume : Consumer σ ε α) : List α → σ → Except ε Unit × σ
  | [], s => (.ok (), s)
  | a :: as, s =>
    match consume a s with
    | (.error err, s) => (.error err, s)
    | (.ok (), s) => feedAll consume as s

theorem feedAll_append_ok {consume : Consumer σ ε α} {as bs : List α} {s s' : σ}
    (h : feedAll consume (as ++ bs) s = (.ok (), s')) :
    ∃ mid, feedAll consume as s = (.ok (), mid) ∧ feedAll consume bs mid = (.ok (), s') := by
  induction as generalizing s with
  | nil => exact ⟨s, rfl, h⟩
  | cons a as ih =>
    rw [List.cons_append, feedAll] at h
    rcases ha : consume a s with ⟨err | ⟨⟩, next⟩
    · rw [ha] at h
      cases h
    · rw [ha] at h
      obtain ⟨mid, has, hbs⟩ := ih h
      refine ⟨mid, ?_, hbs⟩
      rw [feedAll, ha]
      exact has

theorem feedAll_append_error {consume : Consumer σ ε α} {as : List α} {s s' : σ} {err : ε}
    (h : feedAll consume as s = (.error err, s')) (bs : List α) :
    feedAll consume (as ++ bs) s = (.error err, s') := by
  induction as generalizing s with
  | nil => cases h
  | cons a as ih =>
    rw [List.cons_append, feedAll]
    rw [feedAll] at h
    rcases ha : consume a s with ⟨err' | ⟨⟩, next⟩
    · rw [ha] at h
      exact h
    · rw [ha] at h
      exact ih h

theorem feedAll_append_of_ok {consume : Consumer σ ε α} {as : List α} {s s' : σ}
    (h : feedAll consume as s = (.ok (), s')) (bs : List α) :
    feedAll consume (as ++ bs) s = feedAll consume bs s' := by
  induction as generalizing s with
  | nil =>
    obtain rfl := (Prod.mk.inj h).2
    rfl
  | cons a as ih =>
    rw [List.cons_append, feedAll]
    rw [feedAll] at h
    rcases ha : consume a s with ⟨err' | ⟨⟩, next⟩
    · rw [ha] at h
      cases h
    · rw [ha] at h
      exact ih h

/-- The items that a consumer has been handed: it has taken all of them, or refused the last. -/
inductive Handed (consume : Consumer σ ε α) : List α → σ → Except ε Unit → σ → Prop where
  | taken {items : List α} {s s' : σ} : feedAll consume items s = (.ok (), s') →
      Handed consume items s (.ok ()) s'
  | refused {done : List α} {last : α} {s mid s' : σ} {err : ε} :
      feedAll consume done s = (.ok (), mid) → consume last mid = (.error err, s') →
      Handed consume (done ++ [last]) s (.error err) s'

/-- One item more in front, that the consumer takes. -/
theorem Handed.cons {consume : Consumer σ ε α} {a : α} {items : List α} {s next s' : σ}
    {result : Except ε Unit} (ha : consume a s = (.ok (), next))
    (handed : Handed consume items next result s') :
    Handed consume (a :: items) s result s' := by
  cases handed with
  | taken hfed =>
    apply Handed.taken
    rw [feedAll, ha]
    exact hfed
  | refused hfed hlast =>
    rw [← List.cons_append]
    refine .refused ?_ hlast
    rw [feedAll, ha]
    exact hfed

theorem feedAll_handed (consume : Consumer σ ε α) (items : List α) (s : σ) :
    ∃ handed, handed <+: items ∧
      Handed consume handed s (feedAll consume items s).1 (feedAll consume items s).2 ∧
      ((feedAll consume items s).1 = .ok () → handed = items) := by
  induction items generalizing s with
  | nil => exact ⟨[], List.prefix_rfl, .taken rfl, fun _ => rfl⟩
  | cons a items ih =>
    rw [feedAll]
    rcases ha : consume a s with ⟨err | ⟨⟩, next⟩
    · have hnone : feedAll consume [] s = (.ok (), s) := rfl
      refine ⟨[a], List.prefix_append [a] items, .refused hnone ha, ?_⟩
      intro hok
      cases hok
    · obtain ⟨handed, hfirst, hhanded, hall⟩ := ih next
      exact ⟨a :: handed, (List.prefix_cons_inj a).mpr hfirst, hhanded.cons ha,
        fun hok => congrArg (a :: ·) (hall hok)⟩

/-- The consumer that keeps what it is handed. -/
def recorder : Consumer (List α) Empty α := fun a seen => (.ok (), seen ++ [a])

@[simp] theorem feedAll_recorder (as seen : List α) :
    feedAll recorder as seen = (.ok (), seen ++ as) := by
  induction as generalizing seen with
  | nil => simp [feedAll]
  | cons a as ih =>
    rw [feedAll, recorder]
    simp only [ih, List.append_assoc, List.singleton_append]

end Consumer

end SixGrok.Framework
