import Mathlib.Data.Set.Lattice

/-!
# A slot with one owner

Parties go inside by putting their mark into a shared slot while it is empty.
As long as the slot is emptied only when it bears the mark of nobody inside,
there is at most one party inside.
-/
namespace Redskilled.Foundation
variable {ω α : Type*}

/-- Whoever is inside has its mark in the slot. -/
def Backed (slot : Option α) (mark : α → ω → Prop) (inside : Set ω) : Prop :=
  ∀ p ∈ inside, ∃ a ∈ slot, mark a p

namespace Backed
variable {slot slot' : Option α} {mark : α → ω → Prop} {inside inside' : Set ω}

lemma subsingleton (h : Backed slot mark inside)
    (hmark : ∀ a p q, mark a p → mark a q → p = q) : inside.Subsingleton := by
  intro p hp q hq
  obtain ⟨a, ha, hap⟩ := h p hp
  obtain ⟨b, hb, hbq⟩ := h q hq
  obtain rfl := Option.mem_unique ha hb
  exact hmark a p q hap hbq

lemma mono (h : Backed slot mark inside) (hsub : inside' ⊆ inside) :
    Backed slot mark inside' := fun p hp => h p (hsub hp)

lemma join {p : ω} {a : α} (h : Backed slot mark inside) (ha : a ∈ slot) (hp : mark a p)
    (hsub : ∀ q ∈ inside', q = p ∨ q ∈ inside) : Backed slot mark inside' := by
  intro q hq
  rcases hsub q hq with rfl | hq
  · exact ⟨a, ha, hp⟩
  · exact h q hq

lemma create {p : ω} {a : α} (h : Backed none mark inside) (hp : mark a p)
    (hsub : ∀ q ∈ inside', q = p ∨ q ∈ inside) : Backed (some a) mark inside' := by
  intro q hq
  rcases hsub q hq with rfl | hq
  · exact ⟨a, rfl, hp⟩
  · obtain ⟨b, hb, -⟩ := h q hq
    cases hb

lemma empty (h : Backed slot mark inside) (hfree : ∀ p ∈ inside, ∀ a ∈ slot, ¬ mark a p)
    (hsub : inside' ⊆ inside) : Backed slot' mark inside' := by
  intro p hp
  obtain ⟨a, ha, hap⟩ := h p (hsub hp)
  exact absurd hap (hfree p (hsub hp) a ha)

end Backed

section
variable {P φ : Type*} {mark : α → P → Prop} {slot slot' : Option α} {isInside : φ → Bool}
  {phase : P → φ}

def insiders (isInside : φ → Bool) (phase : P → φ) : Set P := {p | isInside (phase p) = true}

lemma mem_insiders {p : P} : p ∈ insiders isInside phase ↔ isInside (phase p) = true := Iff.rfl

variable [DecidableEq P] {p : P} {x : φ}

lemma mem_insiders_update {q : P} : q ∈ insiders isInside (Function.update phase p x) ↔
    if q = p then isInside x = true else q ∈ insiders isInside phase := by
  simp only [mem_insiders]
  split_ifs with hq
  · rw [hq, Function.update_self]
  · rw [Function.update_of_ne hq]

lemma Backed.stay (h : Backed slot mark (insiders isInside phase))
    (hx : isInside x = true → isInside (phase p) = true) :
    Backed slot mark (insiders isInside (Function.update phase p x)) := by
  apply h.mono
  intro q hq
  rw [mem_insiders_update] at hq
  split_ifs at hq with hqp
  · rw [mem_insiders, hqp]
    exact hx hq
  · exact hq

lemma Backed.enter (h : Backed none mark (insiders isInside phase)) {a : α} (ha : mark a p) :
    Backed (some a) mark (insiders isInside (Function.update phase p x)) := by
  apply h.create ha
  intro q hq
  rw [mem_insiders_update] at hq
  split_ifs at hq with hqp
  · exact Or.inl hqp
  · exact Or.inr hq

lemma Backed.clear (hoth : ∀ q ∈ insiders isInside phase, q = p) (hx : isInside x = false) :
    Backed slot' mark (insiders isInside (Function.update phase p x)) := by
  intro q hq
  rw [mem_insiders_update] at hq
  split_ifs at hq with hqp
  · rw [hx] at hq
    cases hq
  · exact absurd (hoth q hq) hqp

end
end Redskilled.Foundation
