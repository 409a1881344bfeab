import Mathlib.Data.Set.Lattice

/-!
# Seniority

Parties enter and withdraw in turn, and each keeps the number it first entered
with. A party leads when it is in and its first number is smaller than that of
everyone else who is in.
-/
namespace Redskilled.Foundation

/-- Who is in, and the number each party first entered with. -/
@[ext] structure Seniority (ω : Type*) where
  since : ω → Option ℕ
  active : ω → Prop

namespace Seniority
variable {ω : Type*} {q : Seniority ω} {v w : ω} {i j n : ℕ}

def Contends (q : Seniority ω) (w : ω) (i : ℕ) : Prop := q.active w ∧ q.since w = some i

def Leads (q : Seniority ω) (w : ω) : Prop :=
  ∃ i, q.Contends w i ∧ ∀ v j, v ≠ w → q.Contends v j → i < j

def enter [DecidableEq ω] (q : Seniority ω) (w : ω) (n : ℕ) : Seniority ω where
  since v := if v = w then (q.since v).or (some n) else q.since v
  active v := v = w ∨ q.active v

def withdraw (q : Seniority ω) (w : ω) : Seniority ω where
  since := q.since
  active v := v ≠ w ∧ q.active v

lemma Contends.unique (h : q.Contends w i) (h' : q.Contends w j) : i = j :=
  Option.some.inj (h.2.symm.trans h'.2)

lemma Leads.unique (h : q.Leads v) (h' : q.Leads w) : v = w := by
  obtain ⟨i, hi, hlead⟩ := h
  obtain ⟨j, hj, hlead'⟩ := h'
  by_contra hne
  have hij := hlead w j (fun h => hne h.symm) hj
  have hji := hlead' v i hne hi
  omega

lemma contends_withdraw : (q.withdraw w).Contends v i ↔ v ≠ w ∧ q.Contends v i := by
  simp [Contends, withdraw, and_assoc]

lemma Leads.withdraw (h : q.Leads v) (hne : v ≠ w) : (q.withdraw w).Leads v := by
  obtain ⟨i, hi, hlead⟩ := h
  refine ⟨i, contends_withdraw.mpr ⟨hne, hi⟩, fun u j hu huj => ?_⟩
  exact hlead u j hu (contends_withdraw.mp huj).2

section
variable [DecidableEq ω]

lemma contends_enter_ne (h : v ≠ w) : (q.enter w n).Contends v i ↔ q.Contends v i := by
  simp [Contends, enter, h]

lemma contends_enter_self : (q.enter w n).Contends w i ↔ (q.since w).or (some n) = some i := by
  simp [Contends, enter]

lemma enter_eq (ha : q.active w) (hs : q.since w ≠ none) : q.enter w n = q := by
  obtain ⟨i, hi⟩ := Option.ne_none_iff_exists'.mp hs
  ext1
  · funext v
    by_cases hv : v = w
    · simp [enter, hv, hi]
    · simp [enter, hv]
  · funext v
    by_cases hv : v = w
    · simp [enter, hv, ha]
    · simp [enter, hv]

lemma Leads.enter_self (h : q.Leads w) (n : ℕ) : (q.enter w n).Leads w := by
  obtain ⟨i, hi, hlead⟩ := h
  refine ⟨i, contends_enter_self.mpr (by simp [hi.2]), fun u j hu huj => ?_⟩
  exact hlead u j hu ((contends_enter_ne hu).mp huj)

/-- An entry keeps the leader if the one who enters is a newcomer with a larger
number, or was already junior to the leader. -/
lemma Leads.enter (h : q.Leads v) (hne : v ≠ w) (hnew : ∀ i, q.since v = some i → i < n)
    (hjun : ∀ i j, q.since v = some i → q.since w = some j → i < j) :
    (q.enter w n).Leads v := by
  obtain ⟨i, hi, hlead⟩ := h
  refine ⟨i, (contends_enter_ne hne).mpr hi, fun u j hu huj => ?_⟩
  by_cases huw : u = w
  · subst huw
    rw [contends_enter_self] at huj
    cases hs : q.since u with
    | none =>
      rw [hs, Option.none_or] at huj
      exact Option.some.inj huj ▸ hnew i hi.2
    | some k =>
      rw [hs, Option.some_or] at huj
      exact Option.some.inj huj ▸ hjun i k hi.2 hs
  · exact hlead u j hu ((contends_enter_ne huw).mp huj)

lemma Leads.overtaken (h : q.Leads v) (hne : v ≠ w) (hi : q.since w = some i)
    (holder : ∀ j, q.since v = some j → i < j) : (q.enter w n).Leads w := by
  obtain ⟨j, hj, hlead⟩ := h
  have hij := holder j hj.2
  refine ⟨i, contends_enter_self.mpr (by simp [hi]), fun u k hu huk => ?_⟩
  have huk' := (contends_enter_ne hu).mp huk
  by_cases huv : u = v
  · subst huv
    exact huk'.unique hj ▸ hij
  · exact hij.trans (hlead u k huv huk')

end
end Seniority
end Redskilled.Foundation
