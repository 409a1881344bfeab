import Mathlib.Data.List.Induction

/-!
# Openings and closings

A log in which some entries open a key and some close one. A key is closed at most
once an opening if between an opening and the next one of the same key there is at
most one closing. That is kept by appending a closing of a key that has not been
closed since it was last opened.
-/
namespace Redskilled.Foundation
open List

inductive Mark (κ : Type*) where
  | opens (k : κ)
  | closes (k : κ)
  | other
  deriving DecidableEq

namespace Lifetimes
variable {α κ : Type*} [DecidableEq κ] (mark : α → Mark κ)

/-- Between an opening of a key and the next there is at most one closing. -/
def ClosedOnce (log : List α) : Prop :=
  ∀ k before opening during after, log = before ++ opening :: (during ++ after) →
    mark opening = .opens k → (∀ a ∈ during, mark a ≠ .opens k) →
    during.countP (mark · = .closes k) ≤ 1

def closings (k : κ) (log : List α) : Option ℕ :=
  log.foldl (fun count a =>
    if mark a = .opens k then some 0
    else if mark a = .closes k then count.map (· + 1)
    else count) none

/-- A key that was opened has not been closed since. -/
def Unclosed (k : κ) (log : List α) : Prop := ∀ n ∈ closings mark k log, n = 0

variable {mark} {k : κ} {log : List α} {a : α}

lemma closings_concat (log : List α) (a : α) : closings mark k (log ++ [a]) =
      if mark a = .opens k then some 0
      else if mark a = .closes k then (closings mark k log).map (· + 1)
      else closings mark k log := by
  simp [closings]

lemma closings_of_opening (before : List α) {opening : α} (during : List α)
    (hopens : mark opening = .opens k) (hnone : ∀ a ∈ during, mark a ≠ .opens k) :
    closings mark k (before ++ opening :: during) = some (during.countP (mark · = .closes k)) := by
  induction during using reverseRecOn with
  | nil => simp [closings_concat, hopens]
  | append_singleton during a ih =>
    have hrest := ih fun b hb => hnone b (mem_append_left _ hb)
    have ha : mark a ≠ .opens k := hnone a (by simp)
    rw [← cons_append, ← append_assoc, closings_concat, if_neg ha, hrest, countP_append]
    by_cases hclos : mark a = .closes k
    · simp [hclos]
    · simp [hclos]

lemma closedOnce_nil : ClosedOnce mark ([] : List α) := by
  intro k before opening during after h
  simp at h

lemma ClosedOnce.concat (h : ClosedOnce mark log)
    (ha : ∀ k, mark a = .closes k → Unclosed mark k log) : ClosedOnce mark (log ++ [a]) := by
  intro k before opening during after hlog hopens hnone
  rcases eq_nil_or_concat after with rfl | ⟨after, b, rfl⟩
  · rw [append_nil] at hlog
    rcases eq_nil_or_concat during with rfl | ⟨during, b, rfl⟩
    · simp
    · -- the new entry is the last one behind the opening
      rw [concat_eq_append, ← cons_append, ← append_assoc] at hlog
      obtain ⟨rfl, hlast⟩ := append_inj' hlog rfl
      obtain rfl := singleton_inj.mp hlast
      have hdur : ∀ b ∈ during, mark b ≠ .opens k :=
        fun b hb => hnone b (by simp [hb])
      have hbef := h k before opening during [] (by simp) hopens hdur
      by_cases hclos : mark a = .closes k
      · have hzero := ha k hclos _
          (closings_of_opening before during hopens hdur)
        simp [hclos, hzero]
      · simpa [hclos] using hbef
  · have hlog' : log = before ++ opening :: (during ++ after) := by
      rw [concat_eq_append, ← append_assoc, ← cons_append, ← append_assoc] at hlog
      exact (append_inj' hlog rfl).1
    exact h k before opening during after hlog' hopens hnone

lemma Unclosed.concat (h : Unclosed mark k log) (ha : mark a ≠ .closes k) :
    Unclosed mark k (log ++ [a]) := by
  intro n hn
  rw [closings_concat, if_neg ha] at hn
  split_ifs at hn with hopens
  · exact (Option.some.inj hn).symm
  · exact h n hn

lemma unclosed_of_opens (ha : mark a = .opens k) : Unclosed mark k (log ++ [a]) := by
  intro n hn
  rw [closings_concat, if_pos ha] at hn
  exact (Option.some.inj hn).symm

lemma ClosedOnce.append (h : ClosedOnce mark log) {notes : List α}
    (hnotes : ∀ a ∈ notes, mark a = .other) : ClosedOnce mark (log ++ notes) := by
  induction notes using reverseRecOn with
  | nil => simpa using h
  | append_singleton notes a ih =>
    have ha := hnotes a (by simp)
    rw [← append_assoc]
    apply (ih fun b hb => hnotes b (mem_append_left _ hb)).concat
    intro k hclos
    rw [ha] at hclos
    cases hclos

lemma Unclosed.append (h : Unclosed mark k log) {notes : List α}
    (hnotes : ∀ a ∈ notes, mark a = .other) : Unclosed mark k (log ++ notes) := by
  induction notes using reverseRecOn with
  | nil => simpa using h
  | append_singleton notes a ih =>
    have ha := hnotes a (by simp)
    rw [← append_assoc]
    apply (ih fun b hb => hnotes b (mem_append_left _ hb)).concat
    simp [ha]

instance (k : κ) (log : List α) : Decidable (Unclosed mark k log) :=
  inferInstanceAs (Decidable (∀ n ∈ closings mark k log, n = 0))

end Lifetimes
end Redskilled.Foundation
