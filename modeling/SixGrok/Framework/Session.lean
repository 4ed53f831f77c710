import Mathlib.Tactic.Common

namespace SixGrok.Framework

section Except

variable {ε δ α : Type} {wrap : ε → δ} {result : Except ε α}

theorem mapError_eq_ok {a : α} : result.mapError wrap = .ok a ↔ result = .ok a := by
  cases result <;> simp [Except.mapError]

theorem mapError_eq_error (injective : Function.Injective wrap) {err : ε} :
    result.mapError wrap = .error (wrap err) ↔ result = .error err := by
  cases result <;> simp [Except.mapError, injective.eq_iff]

end Except

/-- A computation that talks to a stateful environment: it comes back with a value
or a failure, or it never comes back. -/
def Session (σ ε α : Type) := σ → Option (Except ε α × σ)

namespace Session

variable {σ ε α β γ : Type}

def run (x : Session σ ε α) (s : σ) : Option (Except ε α × σ) := x s

instance : Monad (Session σ ε) where
  pure a := fun s => some (.ok a, s)
  bind x f := fun s =>
    match x s with
    | none => none
    | some (.error err, s') => some (.error err, s')
    | some (.ok a, s') => f a s'

def fail (err : ε) : Session σ ε α := fun s => some (.error err, s)

/-- A pure result, with its error turned into a failure of the session. -/
def lift {δ : Type} (wrap : δ → ε) : Except δ α → Session σ ε α
  | .ok a => pure a
  | .error err => fail (wrap err)

/-- The same session, with its failures turned into others. -/
def mapError {δ : Type} (wrap : ε → δ) (x : Session σ ε α) : Session σ δ α := fun s =>
  (x s).map fun (r, s') => (r.mapError wrap, s')

/-- Run a body for each element, stopping at the first failure. -/
def each (body : α → Session σ ε Unit) : List α → Session σ ε Unit
  | [] => pure ()
  | a :: as => do
    body a
    each body as

theorem run_lift_ok {δ : Type} (wrap : δ → ε) (a : α) (s : σ) :
    (lift wrap (.ok a) : Session σ ε α).run s = some (.ok a, s) := rfl

theorem run_bind (x : Session σ ε α) (f : α → Session σ ε β) (s : σ) :
    (x >>= f).run s =
      match x.run s with
      | none => none
      | some (.error err, s') => some (.error err, s')
      | some (.ok a, s') => (f a).run s' := rfl

theorem run_bind_ok {x : Session σ ε α} {f : α → Session σ ε β} {s s' : σ} {a : α}
    (h : x.run s = some (.ok a, s')) : (x >>= f).run s = (f a).run s' := by
  rw [run_bind, h]

theorem run_bind_error {x : Session σ ε α} {f : α → Session σ ε β} {s s' : σ} {err : ε}
    (h : x.run s = some (.error err, s')) : (x >>= f).run s = some (.error err, s') := by
  rw [run_bind, h]

/-- A session comes back in one way only. -/
theorem run_unique {x : Session σ ε α} {s s₁ s₂ : σ} {r r' : Except ε α}
    (h : x.run s = some (r, s₁)) (h' : x.run s = some (r', s₂)) : r = r' ∧ s₁ = s₂ := by
  have hsame := h.symm.trans h'
  simpa using hsame

theorem run_ok_unique {x : Session σ ε α} {s s₁ s₂ : σ} {a b : α}
    (h : x.run s = some (.ok a, s₁)) (h' : x.run s = some (.ok b, s₂)) : a = b ∧ s₁ = s₂ := by
  have hsame := run_unique h h'
  simpa using hsame

theorem run_pure_eq_ok {s s' : σ} {a b : α}
    (h : (pure a : Session σ ε α).run s = some (.ok b, s')) : a = b ∧ s = s' :=
  run_ok_unique rfl h

/-- Everything that a finished bind can have done. -/
theorem run_bind_cases {x : Session σ ε α} {f : α → Session σ ε β} {s s' : σ} {r : Except ε β}
    (h : (x >>= f).run s = some (r, s')) :
    (∃ err, x.run s = some (.error err, s') ∧ r = .error err) ∨
    (∃ a s₁, x.run s = some (.ok a, s₁) ∧ (f a).run s₁ = some (r, s')) := by
  rw [run_bind] at h
  cases hx : x.run s with
  | none => simp [hx] at h
  | some result =>
    obtain ⟨outcome, s₁⟩ := result
    rw [hx] at h
    cases outcome with
    | error err =>
      left
      obtain ⟨rfl, rfl⟩ := Prod.mk.inj (Option.some.inj h)
      exact ⟨err, rfl, rfl⟩
    | ok a =>
      right
      exact ⟨a, s₁, rfl, h⟩

theorem run_bind_eq_ok {x : Session σ ε α} {f : α → Session σ ε β} {s s' : σ} {b : β}
    (h : (x >>= f).run s = some (.ok b, s')) :
    ∃ a s₁, x.run s = some (.ok a, s₁) ∧ (f a).run s₁ = some (.ok b, s') := by
  rcases run_bind_cases h with ⟨err, -, herr⟩ | hok
  · cases herr
  · exact hok

/-- A bind comes back when both of its parts do. -/
theorem run_bind_isSome {x : Session σ ε α} {f : α → Session σ ε β} (hx : ∀ s, (x.run s).isSome)
    (hf : ∀ a s, ((f a).run s).isSome) (s : σ) : ((x >>= f).run s).isSome := by
  obtain ⟨⟨result, s'⟩, hrun⟩ := Option.isSome_iff_exists.mp (hx s)
  cases result with
  | error err =>
    rw [run_bind_error hrun]
    rfl
  | ok a =>
    rw [run_bind_ok hrun]
    exact hf a s'

theorem run_each_nil (body : α → Session σ ε Unit) (s : σ) :
    (each body []).run s = some (.ok (), s) := rfl

/-- A loop over one element is its body. -/
theorem run_each_singleton {body : α → Session σ ε Unit} {a : α} {s s' : σ}
    (h : (body a).run s = some (.ok (), s')) : (each body [a]).run s = some (.ok (), s') := by
  rw [each, run_bind_ok h, run_each_nil]

/-- A loop over the first elements, and then over the others. -/
theorem each_append (body : α → Session σ ε Unit) (front back : List α) (s : σ) :
    (each body (front ++ back)).run s = (each body front >>= fun _ => each body back).run s := by
  induction front generalizing s with
  | nil => rfl
  | cons a front ih =>
    rw [List.cons_append, each, each, run_bind, run_bind, run_bind]
    cases ha : (body a).run s with
    | none => rfl
    | some result =>
      obtain ⟨outcome, s'⟩ := result
      cases outcome with
      | error err => rfl
      | ok _ => exact ih s'

theorem run_lift {δ : Type} (wrap : δ → ε) (x : Except δ α) (s : σ) :
    (lift wrap x : Session σ ε α).run s = some (x.mapError wrap, s) := by
  cases x <;> rfl

theorem run_mapError {δ : Type} (wrap : ε → δ) (x : Session σ ε α) (s : σ) :
    (mapError wrap x).run s = (x.run s).map fun (r, s') => (r.mapError wrap, s') := rfl

theorem run_mapError_eq_ok {δ : Type} {wrap : ε → δ} {x : Session σ ε α} {s s' : σ} {a : α} :
    (mapError wrap x).run s = some (.ok a, s') ↔ x.run s = some (.ok a, s') := by
  rw [run_mapError]
  cases x.run s with
  | none => simp
  | some outcome =>
    obtain ⟨result, s₁⟩ := outcome
    cases result <;> simp [Except.mapError]

theorem run_mapError_eq_error {δ : Type} {wrap : ε → δ} {x : Session σ ε α} {s s' : σ} {err : δ} :
    (mapError wrap x).run s = some (.error err, s') ↔
      ∃ err', x.run s = some (.error err', s') ∧ wrap err' = err := by
  rw [run_mapError]
  cases x.run s with
  | none => simp
  | some outcome =>
    obtain ⟨result, s₁⟩ := outcome
    cases result <;> simp [Except.mapError, and_comm]

theorem run_map_eq_error {x : Session σ ε α} {f : α → β} {s s' : σ} {err : ε} :
    (x >>= fun a => pure (f a)).run s = some (.error err, s') ↔
      x.run s = some (.error err, s') := by
  constructor
  · intro h
    rcases run_bind_cases h with ⟨_, hrun, herr⟩ | ⟨a, s₁, -, hpure⟩
    · cases herr
      exact hrun
    · cases hpure
  · exact run_bind_error

theorem run_lift_isSome {δ : Type} (wrap : δ → ε) (x : Except δ α) (s : σ) :
    ((lift wrap x : Session σ ε α).run s).isSome := by
  cases x <;> rfl

theorem run_lift_eq_ok {δ : Type} {wrap : δ → ε} {x : Except δ α} {a : α} {s s' : σ}
    (h : (lift wrap x : Session σ ε α).run s = some (.ok a, s')) : x = .ok a ∧ s' = s := by
  cases x with
  | ok b =>
    obtain ⟨hvalue, hstate⟩ := Prod.mk.inj (Option.some.inj h)
    exact ⟨congrArg Except.ok (Except.ok.inj hvalue), hstate.symm⟩
  | error err =>
    obtain ⟨hvalue, -⟩ := Prod.mk.inj (Option.some.inj h)
    cases hvalue

theorem run_lift_state {δ : Type} {wrap : δ → ε} {x : Except δ α} {r : Except ε α} {s s' : σ}
    (h : (lift wrap x : Session σ ε α).run s = some (r, s')) : s' = s := by
  cases x with
  | ok a => exact (Prod.mk.inj (Option.some.inj h)).2.symm
  | error err => exact (Prod.mk.inj (Option.some.inj h)).2.symm

/-- Partial correctness: whenever the session comes back from a state that meets `P`,
a value meets `Q` and a failure meets `E`. -/
def Meets (P : σ → Prop) (x : Session σ ε α) (Q : α → σ → Prop) (E : ε → σ → Prop) : Prop :=
  ∀ s, P s → ∀ r s', x.run s = some (r, s') →
    match r with
    | .ok a => Q a s'
    | .error err => E err s'

theorem Meets.bind {P : σ → Prop} {x : Session σ ε α} {Q : α → σ → Prop} {E : ε → σ → Prop}
    {f : α → Session σ ε β} {R : β → σ → Prop} (hx : Meets P x Q E)
    (hf : ∀ a, Meets (Q a) (f a) R E) : Meets P (x >>= f) R E := by
  intro s hs r s' h
  rcases run_bind_cases h with ⟨err, hrun, rfl⟩ | ⟨a, s₁, hrun, hrest⟩
  · exact hx s hs (.error err) s' hrun
  · exact hf a s₁ (hx s hs (.ok a) s₁ hrun) r s' hrest

/-- A triple for every value of a ghost parameter of the precondition and the result. -/
theorem Meets.exists {ι : Type} {P : ι → σ → Prop} {x : Session σ ε α} {Q : ι → α → σ → Prop}
    {E : ε → σ → Prop} (h : ∀ i, Meets (P i) x (Q i) E) :
    Meets (fun s => ∃ i, P i s) x (fun a s => ∃ i, Q i a s) E := by
  intro s hs r s' hrun
  obtain ⟨i, hi⟩ := hs
  have hres := h i s hi r s' hrun
  cases r with
  | ok a => exact ⟨i, hres⟩
  | error err => exact hres

theorem Meets.pure {P : σ → Prop} {Q : α → σ → Prop} {E : ε → σ → Prop} {a : α}
    (h : ∀ s, P s → Q a s) : Meets P (Pure.pure a : Session σ ε α) Q E := by
  intro s hs r s' hrun
  obtain ⟨rfl, rfl⟩ := Prod.mk.inj (Option.some.inj hrun)
  exact h _ hs

theorem Meets.fail {P : σ → Prop} {Q : α → σ → Prop} {E : ε → σ → Prop} {err : ε}
    (h : ∀ s, P s → E err s) : Meets P (Session.fail err : Session σ ε α) Q E := by
  intro s hs r s' hrun
  obtain ⟨rfl, rfl⟩ := Prod.mk.inj (Option.some.inj hrun)
  exact h _ hs

theorem Meets.lift {δ : Type} {wrap : δ → ε} {x : Except δ α} {P : σ → Prop} {Q : α → σ → Prop}
    {E : ε → σ → Prop} (hok : ∀ a s, P s → Q a s) (herr : ∀ err s, P s → E (wrap err) s) :
    Meets P (Session.lift wrap x) Q E := by
  cases x with
  | ok a => exact Meets.pure (hok a)
  | error err => exact Meets.fail (herr err)

theorem Meets.mapError {δ : Type} {wrap : ε → δ} {x : Session σ ε α} {P : σ → Prop}
    {Q : α → σ → Prop} {E : δ → σ → Prop} (h : Meets P x Q fun err => E (wrap err)) :
    Meets P (Session.mapError wrap x) Q E := by
  intro s hs r s' hrun
  obtain ⟨⟨result, s₁⟩, hresult, heq⟩ := Option.map_eq_some_iff.mp hrun
  obtain ⟨rfl, rfl⟩ := Prod.mk.inj heq
  have hres := h s hs result s₁ hresult
  cases result with
  | ok a => exact hres
  | error err => exact hres

theorem Meets.consequence {P P' : σ → Prop} {x : Session σ ε α} {Q Q' : α → σ → Prop}
    {E E' : ε → σ → Prop} (h : Meets P x Q E) (hP : ∀ s, P' s → P s)
    (hQ : ∀ a s, Q a s → Q' a s) (hE : ∀ err s, E err s → E' err s) : Meets P' x Q' E' := by
  intro s hs r s' hrun
  have hres := h s (hP s hs) r s' hrun
  cases r with
  | ok a => exact hQ a s' hres
  | error err => exact hE err s' hres

/-- A loop whose body keeps `P` keeps it. -/
theorem Meets.each {P : σ → Prop} {E : ε → σ → Prop} {body : α → Session σ ε Unit} (xs : List α)
    (h : ∀ x ∈ xs, Meets P (body x) (fun _ => P) E) : Meets P (each body xs) (fun _ => P) E := by
  induction xs with
  | nil => exact Meets.pure fun _ hs => hs
  | cons x xs ih =>
    apply Meets.bind
    · exact h x (List.mem_cons_self ..)
    · intro _
      exact ih fun y hy => h y (List.mem_cons_of_mem x hy)

end Session

end SixGrok.Framework
