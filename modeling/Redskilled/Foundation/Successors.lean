import Mathlib.Data.List.Nodup
import Mathlib.Logic.Relation

/-!
# Successors

A relation that has no cycle has none once an edge is added from a place to one that does
not lead back to it. Where each place has at most one successor, the head of a place is what
its successors end with. It is looked for among the places of a list, and no place is passed
twice.
-/
namespace Redskilled.Foundation

variable {α : Type*}

/-- No place leads to itself. -/
def Acyclic (edge : α → α → Prop) : Prop := ∀ a, ¬ Relation.TransGen edge a a

/-- The edges, with one from `a` to `b`. -/
def withEdge (edge : α → α → Prop) (a b : α) (x y : α) : Prop := edge x y ∨ (x = a ∧ y = b)

section
variable {edge edge' : α → α → Prop} {a b : α}

lemma Acyclic.mono (h : Acyclic edge) (hle : ∀ x y, edge' x y → edge x y) : Acyclic edge' :=
  fun x hx => h x (Relation.TransGen.mono hle x x hx)

lemma withEdge_cases {x y : α} (h : Relation.TransGen (withEdge edge a b) x y) :
    Relation.TransGen edge x y ∨
      (Relation.ReflTransGen edge x a ∧ Relation.ReflTransGen edge b y) := by
  induction h with
  | single h =>
    rcases h with h | ⟨rfl, rfl⟩
    · exact .inl (.single h)
    · exact .inr ⟨.refl, .refl⟩
  | tail _ hlast ih =>
    rcases hlast with hlast | ⟨rfl, rfl⟩
    · rcases ih with ih | ⟨hto, hfrom⟩
      · exact .inl (ih.tail hlast)
      · exact .inr ⟨hto, hfrom.tail hlast⟩
    · right
      refine ⟨?_, .refl⟩
      rcases ih with ih | ⟨hto, -⟩
      · exact ih.to_reflTransGen
      · exact hto

lemma Acyclic.withEdge (h : Acyclic edge) (hback : ¬ Relation.ReflTransGen edge b a) :
    Acyclic (withEdge edge a b) := by
  intro x hx
  rcases withEdge_cases hx with hold | ⟨hto, hfrom⟩
  · exact h x hold
  · exact hback (hfrom.trans hto)

end

section
variable [DecidableEq α] (next : α → Option α) (places : List α)

/-- The last of the successors, for as long as they are among the places and new. -/
def headFrom : ℕ → List α → α → α
  | 0, _, current => current
  | fuel + 1, seen, current =>
    match next current with
    | none => current
    | some found =>
      if found ∈ seen ∨ found ∉ places then current
      else headFrom fuel (found :: seen) found

/-- No place is passed twice, so as many steps do as there are places. -/
def headOf (a : α) : α := headFrom next places places.length [a] a

/-- A successor among the places. -/
def Along (x y : α) : Prop := next x = some y ∧ y ∈ places

variable {next places} {a b : α}

lemma headFrom_spec {fuel : ℕ} {seen : List α} {current : α} (hseen : seen.Nodup)
    (hplac : ∀ x ∈ seen, x ∈ places) (hcurr : current ∈ seen)
    (hleads : ∀ x ∈ seen, Relation.ReflTransGen (Along next places) x current)
    (hfuel : places.length < fuel + seen.length) :
    headFrom next places fuel seen current ∈ places ∧
      Relation.ReflTransGen (Along next places) current (headFrom next places fuel seen current) ∧
      ∀ found, Along next places (headFrom next places fuel seen current) found →
        Relation.ReflTransGen (Along next places) found
          (headFrom next places fuel seen current) := by
  induction fuel generalizing seen current with
  | zero =>
    have hle : seen.length ≤ places.length := hseen.length_le_of_subset hplac
    omega
  | succ fuel ih =>
    rw [headFrom]
    cases hnext : next current with
    | none =>
      refine ⟨hplac current hcurr, .refl, ?_⟩
      intro found hfound
      rw [Along, hnext] at hfound
      cases hfound.1
    | some found =>
      dsimp only
      split_ifs with hstop
      · refine ⟨hplac current hcurr, .refl, ?_⟩
        rintro other ⟨hoth, hin⟩
        obtain rfl : found = other := Option.some.inj (hnext.symm.trans hoth)
        rcases hstop with hstop | hstop
        · exact hleads found hstop
        · exact absurd hin hstop
      · rw [not_or, not_not] at hstop
        obtain ⟨hnew, hin⟩ := hstop
        have hnod : (found :: seen).Nodup := List.nodup_cons.mpr ⟨hnew, hseen⟩
        have hall : ∀ x ∈ found :: seen, x ∈ places := by
          intro x hx
          rcases List.mem_cons.mp hx with rfl | hx
          · exact hin
          · exact hplac x hx
        have hlead : ∀ x ∈ found :: seen, Relation.ReflTransGen (Along next places) x found := by
          intro x hx
          rcases List.mem_cons.mp hx with rfl | hx
          · exact .refl
          · exact (hleads x hx).tail ⟨hnext, hin⟩
        have hmore : places.length < fuel + (found :: seen).length := by
          rw [List.length_cons]
          omega
        obtain ⟨hplace, hway, hend⟩ := ih hnod hall List.mem_cons_self hlead hmore
        exact ⟨hplace, .head ⟨hnext, hin⟩ hway, hend⟩

variable (hacyclic : Acyclic fun x y => next x = some y)
include hacyclic

lemma headOf_spec (ha : a ∈ places) : headOf next places a ∈ places ∧
    Relation.ReflTransGen (Along next places) a (headOf next places a) ∧
      ∀ found, ¬ Along next places (headOf next places a) found := by
  have hspec := @headFrom_spec _ _ next places places.length [a] a (List.nodup_singleton a)
    (fun x hx => List.mem_singleton.mp hx ▸ ha) (List.mem_singleton_self a)
    (fun x hx => List.mem_singleton.mp hx ▸ .refl) (by rw [List.length_singleton]; omega)
  refine ⟨hspec.1, hspec.2.1, ?_⟩
  intro found hfound
  have hback := hspec.2.2 found hfound
  have hcycle : Relation.TransGen (Along next places) found found := .tail' hback hfound
  exact hacyclic found (Relation.TransGen.mono (fun x y h => h.1) _ _ hcycle)

lemma headOf_next (ha : a ∈ places) (hb : b ∈ places) (hnext : next b = some a) :
    headOf next places b = headOf next places a := by
  obtain ⟨-, hfrom, hend⟩ := headOf_spec hacyclic hb
  obtain ⟨-, hto, hstop⟩ := headOf_spec hacyclic ha
  have huniq : Relator.RightUnique (Along next places) := by
    rintro x y z ⟨hy, -⟩ ⟨hz, -⟩
    exact Option.some.inj (hy.symm.trans hz)
  have hboth : Relation.ReflTransGen (Along next places) b (headOf next places a) :=
    .head ⟨hnext, ha⟩ hto
  rcases Relation.ReflTransGen.total_of_right_unique huniq hfrom hboth with hway | hway
  · rcases hway.cases_head with heq | ⟨found, hfound, -⟩
    · exact heq
    · exact absurd hfound (hend found)
  · rcases hway.cases_head with heq | ⟨found, hfound, -⟩
    · exact heq.symm
    · exact absurd hfound (hstop found)

end
end Redskilled.Foundation
