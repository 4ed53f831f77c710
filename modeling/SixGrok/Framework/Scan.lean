import Mathlib.Data.List.Basic
import Mathlib.Tactic.Common

namespace SixGrok.Framework

variable {β ο τ : Type}

/-- One pass of a `loop` body over a buffer: it breaks with a final value, or it
yields one result and goes round again on what is left. -/
inductive Pass (β ο τ : Type) where
  | stop (t : τ)
  | next (o : ο) (rest : β)
  deriving DecidableEq

/-- The loop with a bound on its passes; none means that the bound was too small. -/
def loop (body : β → Pass β ο τ) : Nat → β → Option (List ο × τ)
  | 0, _ => none
  | fuel + 1, b =>
    match body b with
    | .stop t => some ([], t)
    | .next o rest => (loop body fuel rest).map fun r => (o :: r.1, r.2)

/-- A finished run of the loop, without any bound. -/
inductive Scans (body : β → Pass β ο τ) : β → List ο → τ → Prop where
  | stop {b : β} {t : τ} : body b = .stop t → Scans body b [] t
  | next {b rest : β} {o : ο} {os : List ο} {t : τ} :
      body b = .next o rest → Scans body rest os t → Scans body b (o :: os) t

/-- Every pass that goes round again leaves a smaller buffer. -/
def Shrinks (size : β → Nat) (body : β → Pass β ο τ) : Prop :=
  ∀ b o rest, body b = .next o rest → size rest < size b

theorem loop_scans (body : β → Pass β ο τ) (fuel : Nat) (b : β) (r : List ο × τ)
    (h : loop body fuel b = some r) : Scans body b r.1 r.2 := by
  induction fuel generalizing b r with
  | zero => simp [loop] at h
  | succ fuel ih =>
    rw [loop] at h
    cases hb : body b with
    | stop t =>
      rw [hb] at h
      obtain rfl : ([], t) = r := by simpa using h
      exact .stop hb
    | next o rest =>
      rw [hb] at h
      obtain ⟨r', hr', rfl⟩ := Option.map_eq_some_iff.mp h
      exact .next hb (ih rest r' hr')

theorem Scans.deterministic {body : β → Pass β ο τ} {b : β} {os os' : List ο} {t t' : τ}
    (h : Scans body b os t) (h' : Scans body b os' t') : os = os' ∧ t = t' := by
  induction h generalizing os' t' with
  | stop hb =>
    cases h' with
    | stop hb' =>
      obtain rfl := Pass.stop.inj (hb.symm.trans hb')
      exact ⟨rfl, rfl⟩
    | next hb' _ => exact absurd (hb.symm.trans hb') (by simp)
  | next hb _ ih =>
    cases h' with
    | stop hb' => exact absurd (hb.symm.trans hb') (by simp)
    | next hb' hrest' =>
      obtain ⟨rfl, rfl⟩ := Pass.next.inj (hb.symm.trans hb')
      obtain ⟨rfl, rfl⟩ := ih hrest'
      exact ⟨rfl, rfl⟩

/-- What every yielded result has, whatever the buffer. -/
theorem Scans.forall_results {body : β → Pass β ο τ} {P : ο → Prop}
    (h : ∀ b o rest, body b = .next o rest → P o) {b : β} {os : List ο} {t : τ}
    (run : Scans body b os t) : ∀ o ∈ os, P o := by
  induction run with
  | stop _ => exact List.forall_mem_nil _
  | next hb _ ih => exact List.forall_mem_cons.mpr ⟨h _ _ _ hb, ih⟩

/-- An invariant of the buffer that every pass keeps holds of the final value. -/
theorem Scans.invariant {body : β → Pass β ο τ} {I : β → Prop} {J : τ → Prop}
    (next : ∀ b o rest, I b → body b = .next o rest → I rest)
    (stop : ∀ b t, I b → body b = .stop t → J t) {b : β} {os : List ο} {t : τ}
    (run : Scans body b os t) (hI : I b) : J t := by
  induction run with
  | stop hb => exact stop _ _ hI hb
  | next hb _ ih => exact ih (next _ _ _ hI hb)

/-- A shrinking loop ends within as many passes as its buffer is long, plus one. -/
theorem loop_isSome {size : β → Nat} {body : β → Pass β ο τ} (h : Shrinks size body)
    (fuel : Nat) (b : β) (enough : size b < fuel) : (loop body fuel b).isSome := by
  induction fuel generalizing b with
  | zero => omega
  | succ fuel ih =>
    rw [loop]
    cases hb : body b with
    | stop t => rfl
    | next o rest =>
      have hrest := h b o rest hb
      simpa using ih rest (by omega)

/-- The value of a shrinking loop, run with exactly the passes that suffice. -/
def runLoop {size : β → Nat} (body : β → Pass β ο τ) (h : Shrinks size body) (b : β) :
    List ο × τ :=
  (loop body (size b + 1) b).get (loop_isSome h _ b (Nat.lt_succ_self _))

theorem runLoop_scans {size : β → Nat} {body : β → Pass β ο τ} (h : Shrinks size body) (b : β) :
    Scans body b (runLoop body h b).1 (runLoop body h b).2 :=
  loop_scans body (size b + 1) b _ (Option.some_get _).symm

theorem runLoop_eq {size : β → Nat} {body : β → Pass β ο τ} (h : Shrinks size body) {b : β}
    {os : List ο} {t : τ} (hs : Scans body b os t) : runLoop body h b = (os, t) := by
  obtain ⟨ho, ht⟩ := (runLoop_scans h b).deterministic hs
  exact Prod.ext ho ht

section Append

variable {α : Type} {body : List α → Pass (List α) ο (List α)}

/-- Decisions of a buffered scanner that more input cannot change: a result stays,
and a break only forgets bytes that no later pass would look at. -/
structure Stable (body : List α → Pass (List α) ο (List α)) : Prop where
  next : ∀ b o rest more, body b = .next o rest → body (b ++ more) = .next o (rest ++ more)
  stop : ∀ b rest more, body b = .stop rest → body (b ++ more) = body (rest ++ more)

/-- Scanning what a scan retained, with more input behind it, continues the scan. -/
theorem Scans.append (h : Stable body) {b retained more retained' : List α} {os os' : List ο}
    (first : Scans body b os retained) (second : Scans body (retained ++ more) os' retained') :
    Scans body (b ++ more) (os ++ os') retained' := by
  induction first with
  | @stop b retained hb =>
    have same := h.stop b retained more hb
    cases second with
    | stop hs => exact .stop (same.trans hs)
    | next hs hrest => exact .next (same.trans hs) hrest
  | next hb _ ih => exact .next (h.next _ _ _ more hb) (ih second)

end Append

end SixGrok.Framework
