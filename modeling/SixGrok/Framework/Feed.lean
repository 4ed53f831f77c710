import Mathlib.Data.List.Basic
import Mathlib.Tactic.Common

namespace SixGrok.Framework

variable {σ α ο : Type}

/-- Feed symbols one at a time to a machine that may answer each of them. -/
def feed (step : σ → α → Option ο × σ) : σ → List α → List ο × σ
  | s, [] => ([], s)
  | s, a :: as =>
    let first := step s a
    let rest := feed step first.2 as
    (first.1.toList ++ rest.1, rest.2)

@[simp] theorem feed_nil (step : σ → α → Option ο × σ) (s : σ) : feed step s [] = ([], s) := rfl

theorem feed_cons (step : σ → α → Option ο × σ) (s : σ) (a : α) (as : List α) :
    feed step s (a :: as) =
      ((step s a).1.toList ++ (feed step (step s a).2 as).1, (feed step (step s a).2 as).2) := rfl

/-- A search through the answers, one symbol at a time. -/
theorem findSome?_feed_cons {β : Type} (step : σ → α → Option ο × σ) (f : ο → Option β) (s : σ)
    (a : α) (as : List α) :
    (feed step s (a :: as)).1.findSome? f =
      ((step s a).1.bind f).or ((feed step (step s a).2 as).1.findSome? f) := by
  rw [feed_cons, List.findSome?_append]
  cases (step s a).1 <;> simp

/-- A push function is incremental when a chunk may be cut anywhere: the state
carried over the cut is all that the second half needs. -/
def Incremental (push : σ → List α → List ο × σ) : Prop :=
  ∀ s as bs, push s (as ++ bs) =
    ((push s as).1 ++ (push (push s as).2 bs).1, (push (push s as).2 bs).2)

theorem feed_incremental (step : σ → α → Option ο × σ) : Incremental (feed step) := by
  intro s as bs
  induction as generalizing s with
  | nil => simp
  | cons a as ih =>
    rw [List.cons_append, feed_cons, feed_cons, ih]
    simp

theorem feed_append (step : σ → α → Option ο × σ) (s : σ) (as bs : List α) :
    feed step s (as ++ bs) =
      ((feed step s as).1 ++ (feed step (feed step s as).2 bs).1,
        (feed step (feed step s as).2 bs).2) :=
  feed_incremental step s as bs

theorem findSome?_feed_append {β : Type} (step : σ → α → Option ο × σ) (f : ο → Option β) (s : σ)
    (as bs : List α) :
    (feed step s (as ++ bs)).1.findSome? f =
      ((feed step s as).1.findSome? f).or ((feed step (feed step s as).2 bs).1.findSome? f) := by
  rw [feed_append, List.findSome?_append]

/-- Push chunks in order and concatenate what each of them yields. -/
def pushAll (push : σ → List α → List ο × σ) : σ → List (List α) → List ο × σ
  | s, [] => ([], s)
  | s, c :: cs =>
    let first := push s c
    let rest := pushAll push first.2 cs
    (first.1 ++ rest.1, rest.2)

/-- The empty suffix of a chunk changes nothing: a state that some push has left is one that
an empty push keeps. -/
theorem Incremental.after {push : σ → List α → List ο × σ} (h : Incremental push) (s : σ)
    (c : List α) : push (push s c).2 [] = ([], (push s c).2) := by
  have hc := h s c []
  rw [List.append_nil] at hc
  have hout : (push (push s c).2 []).1 = [] :=
    List.append_right_eq_self.mp (congrArg Prod.fst hc).symm
  exact Prod.ext hout (congrArg Prod.snd hc).symm

/-- From a state that an empty push keeps, the chunks may be joined. -/
theorem pushAll_eq_push {push : σ → List α → List ο × σ} (h : Incremental push) (s : σ)
    (stable : push s [] = ([], s)) (cs : List (List α)) :
    pushAll push s cs = push s cs.flatten := by
  induction cs generalizing s with
  | nil => simpa [pushAll] using stable.symm
  | cons c cs ih =>
    rw [pushAll, ih _ (h.after s c), List.flatten_cons, h s c cs.flatten]

/-- Two ways to cut one stream give the same results and the same final state. -/
theorem pushAll_chunking {push : σ → List α → List ο × σ} (h : Incremental push) (s : σ)
    (stable : push s [] = ([], s)) (cs ds : List (List α)) (same : cs.flatten = ds.flatten) :
    pushAll push s cs = pushAll push s ds := by
  rw [pushAll_eq_push h s stable, pushAll_eq_push h s stable, same]

/-- Encoded items decode to one answer each when every encoding takes the machine
from its rest state back to it with a single answer. -/
theorem feed_items {π : Type} (step : σ → α → Option ο × σ) (rest : σ) (encode : π → List α)
    (answer : π → ο) (items : List π)
    (single : ∀ p ∈ items, feed step rest (encode p) = ([answer p], rest)) :
    feed step rest (items.map encode).flatten = (items.map answer, rest) := by
  induction items with
  | nil => rfl
  | cons p items ih =>
    have hp := single p (List.mem_cons_self ..)
    have hrest := ih (fun q hq => single q (List.mem_cons_of_mem p hq))
    rw [List.map_cons, List.flatten_cons, feed_append, hp, hrest]
    rfl

/-- A delimiter after which every state is the rest state cuts the stream in two:
what precedes it has no influence on what follows. -/
theorem feed_resync (step : σ → α → Option ο × σ) (rest : σ) (delimiter : α)
    (reset : ∀ s, (step s delimiter).2 = rest) (s : σ) (noise tail : List α) :
    feed step s (noise ++ [delimiter] ++ tail) =
      ((feed step s (noise ++ [delimiter])).1 ++ (feed step rest tail).1,
        (feed step rest tail).2) := by
  have hstate : (feed step s (noise ++ [delimiter])).2 = rest := by
    rw [feed_append, feed_cons]
    exact reset _
  rw [feed_append, hstate]

end SixGrok.Framework
