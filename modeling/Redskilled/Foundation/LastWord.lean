import Mathlib.Data.List.Basic

/-!
# The last word on a key

A log has, newest entry first, what was settled for a key and what was observed of it.
A key stands well where it has the word last settled for it or one observed since.
-/
namespace Redskilled.Foundation.LastWord

inductive Entry (κ ω : Type*) where
  | settled (key : κ) (word : ω)
  | observed (key : κ) (word : ω)

variable {κ ω : Type*} [DecidableEq κ]

def lastSettled : List (Entry κ ω) → κ → Option ω
  | [], _ => none
  | .settled key word :: log, k => if key = k then some word else lastSettled log k
  | .observed _ _ :: log, k => lastSettled log k

def observedSince : List (Entry κ ω) → κ → List ω
  | [], _ => []
  | .settled key _ :: log, k => if key = k then [] else observedSince log k
  | .observed key word :: log, k =>
    if key = k then word :: observedSince log k else observedSince log k

/-- The words `k` may stand with. -/
def words (initial : κ → ω) (log : List (Entry κ ω)) (k : κ) : List ω :=
  observedSince log k ++ [(lastSettled log k).getD (initial k)]

/-- The entries behind the first `n`. -/
def since (log : List (Entry κ ω)) (n : ℕ) : List (Entry κ ω) := log.take (log.length - n)

def touched (log : List (Entry κ ω)) : List κ :=
  log.filterMap fun entry =>
    match entry with
    | .settled key _ => some key
    | .observed _ _ => none

variable {initial : κ → ω} {log new : List (Entry κ ω)} {k : κ} {n : ℕ} {word : ω}

omit [DecidableEq κ] in
lemma since_append (new : List (Entry κ ω)) (h : n ≤ log.length) :
    since (new ++ log) n = new ++ since log n := by
  have hlength : (new ++ log).length - n = new.length + (log.length - n) := by
    simp only [List.length_append]
    omega
  rw [since, hlength, List.take_length_add_append]
  rfl

lemma lastSettled_append (new log : List (Entry κ ω)) (k : κ) :
    lastSettled (new ++ log) k = (lastSettled new k).or (lastSettled log k) := by
  induction new with
  | nil => rfl
  | cons entry new ih =>
    cases entry with
    | observed key word => exact ih
    | settled key word =>
      simp only [List.cons_append, lastSettled]
      split_ifs
      · rfl
      · exact ih

lemma lastSettled_since (h : n ≤ log.length) (new : List (Entry κ ω)) :
    lastSettled (since (new ++ log) n) k = (lastSettled new k).or (lastSettled (since log n) k) := by
  rw [since_append new h, lastSettled_append]

lemma lastSettled_eq_none : lastSettled log k = none ↔ k ∉ touched log := by
  induction log with
  | nil => simp [lastSettled, touched]
  | cons entry log ih =>
    cases entry with
    | observed key word => simpa [lastSettled, touched] using ih
    | settled key word =>
      by_cases hk : key = k
      · simp [lastSettled, touched, hk]
      · have hk' : k ≠ key := Ne.symm hk
        simpa [lastSettled, touched, hk, hk'] using ih

lemma observedSince_append (h : lastSettled new k = none) :
    observedSince (new ++ log) k = observedSince new k ++ observedSince log k := by
  induction new with
  | nil => rfl
  | cons entry new ih =>
    cases entry with
    | observed key word =>
      simp only [List.cons_append, observedSince, ih h]
      split_ifs
      · rfl
      · rfl
    | settled key word =>
      simp only [lastSettled] at h
      split_ifs at h with hk
      simp only [List.cons_append, observedSince, if_neg hk]
      exact ih h

lemma words_append (h : lastSettled new k = none) :
    words initial (new ++ log) k = observedSince new k ++ words initial log k := by
  rw [words, words, observedSince_append h, lastSettled_append, h, List.append_assoc]
  rfl

lemma mem_words_append (h : word ∈ words initial log k) (hnew : lastSettled new k = none) :
    word ∈ words initial (new ++ log) k := by
  rw [words_append hnew]
  exact List.mem_append_right _ h

lemma mem_words_of_observed (h : word ∈ observedSince log k) : word ∈ words initial log k :=
  List.mem_append_left _ h

lemma words_settled (key : κ) (word : ω) : words initial (.settled key word :: log) k =
      if key = k then [word] else words initial log k := by
  simp only [words, observedSince, lastSettled]
  split_ifs
  · rfl
  · rfl

lemma mem_words : word ∈ words initial log k ↔
    word ∈ observedSince log k ∨ word = (lastSettled log k).getD (initial k) := by
  simp [words]

/-- `copy` was made when the log had `n` entries. -/
structure Copied (initial : κ → ω) (log : List (Entry κ ω)) (n : ℕ) (copy : κ → ω) : Prop where
  made : n ≤ log.length
  word : ∀ k, lastSettled (since log n) k = none → copy k ∈ words initial log k

variable {copy : κ → ω}

lemma Copied.now (h : ∀ k, copy k ∈ words initial log k) : Copied initial log log.length copy :=
  ⟨Nat.le_refl _, fun k _ => h k⟩

lemma Copied.append (h : Copied initial log n copy) (new : List (Entry κ ω)) :
    Copied initial (new ++ log) n copy := by
  constructor
  · have hmade := h.made
    simp only [List.length_append]
    omega
  · intro k hk
    rw [lastSettled_since h.made new] at hk
    obtain ⟨hnew, hold⟩ := Option.or_eq_none_iff.mp hk
    exact mem_words_append (h.word k hold) hnew

lemma Copied.put (h : Copied initial log n copy)
    (hword : lastSettled (since log n) k = none → word ∈ words initial log k) :
    Copied initial log n (Function.update copy k word) := by
  constructor
  · exact h.made
  · intro a ha
    by_cases hak : a = k
    · subst hak
      rw [Function.update_self]
      exact hword ha
    · rw [Function.update_of_ne hak]
      exact h.word a ha

end Redskilled.Foundation.LastWord
