import SixGrok.Framework.Tasks

namespace SixGrok.Framework

/-- A list that is put together of the parts of several sources, each of them in its order. -/
inductive Interleaves {κ β : Type} [DecidableEq κ] : (κ → List β) → List β → Prop where
  | nil : Interleaves (fun _ => []) []
  | next {parts : κ → List β} {items : List β} (k : κ) (item : β) : Interleaves parts items →
      Interleaves (Function.update parts k (parts k ++ [item])) (items ++ [item])

variable {κ β ι lam σ : Type} [DecidableEq κ]

theorem Interleaves.append {parts : κ → List β} {items : List β} (h : Interleaves parts items)
    (k : κ) (more : List β) :
    Interleaves (Function.update parts k (parts k ++ more)) (items ++ more) := by
  induction more generalizing parts items with
  | nil =>
    rw [List.append_nil, List.append_nil, Function.update_eq_self]
    exact h
  | cons item more ih =>
    have hmore := ih (h.next k item)
    rw [Function.update_self, Function.update_idem, List.append_assoc, List.append_assoc] at hmore
    exact hmore

namespace Tasks.Compatible

variable {move : κ → ι → lam × σ → lam × σ} {inv : σ → Prop} {claim : κ → lam × σ → Prop}
  {rely : κ → σ → σ → Prop} {log : σ → List β} {part : κ → lam × σ → List β}

end Tasks.Compatible

end SixGrok.Framework
