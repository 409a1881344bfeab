import Mathlib.Data.List.Basic

/-!
# Fallible programs

A program that answers or fails, and what it takes for a composed one to answer.
-/
namespace Redskilled.Foundation.Fallible
variable {ε α β : Type*}

lemma map_ok_iff {f : α → β} {x : Except ε α} {b : β} :
    x.map f = .ok b ↔ ∃ a, x = .ok a ∧ f a = b := by
  cases x <;> simp [Except.map]

lemma bind_ok_iff {f : α → Except ε β} {x : Except ε α} {b : β} :
    x.bind f = .ok b ↔ ∃ a, x = .ok a ∧ f a = .ok b := by
  cases x <;> simp [Except.bind]

lemma do_ok_iff {γ δ : Type _} {f : γ → Except ε δ} {x : Except ε γ} {b : δ} :
    (x >>= f) = .ok b ↔ ∃ a, x = .ok a ∧ f a = .ok b := bind_ok_iff

end Redskilled.Foundation.Fallible
