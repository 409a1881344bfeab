import Mathlib.Data.List.Nodup

/-!
# Retention of a queue

A queue sheds the entries that are done, all but the last `n` of them. An entry is
kept or shed by its place: it stays where fewer than `n` entries behind it are done.
-/
namespace Redskilled.Foundation
open List

variable {α : Type*}

/-- What of a queue is kept, where `done` entries are shed down to the last `n`. -/
def keepLast (n : ℕ) (done : α → Bool) : List α → List α
  | [] => []
  | a :: l =>
    if done a ∧ n ≤ l.countP done then keepLast n done l else a :: keepLast n done l

section
variable {n : ℕ} {done : α → Bool} {l : List α}

lemma keepLast_sublist : (keepLast n done l).Sublist l := by
  induction l with
  | nil => exact .slnil
  | cons a l ih =>
    unfold keepLast
    split_ifs
    · exact ih.cons a
    · exact ih.cons_cons a

lemma keepLast_eq_self (h : l.countP done ≤ n) : keepLast n done l = l := by
  induction l with
  | nil => rfl
  | cons a l ih =>
    rw [countP_cons] at h
    have hshort : ¬ (done a = true ∧ n ≤ l.countP done) := by
      rintro ⟨hdone, hle⟩
      rw [if_pos hdone] at h
      omega
    rw [keepLast, if_neg hshort, ih (by omega)]

lemma countP_keepLast {later : α → Bool} (hle : ∀ a, done a = true → later a = true) :
    (keepLast n done l).countP later =
      min n (l.countP done) + l.countP (fun a => later a && !done a) := by
  induction l with
  | nil => simp [keepLast]
  | cons a l ih =>
    unfold keepLast
    cases hdone : done a with
    | false =>
      simp only [countP_cons, hdone, Bool.false_eq_true, false_and, if_false, ih,
        Bool.not_false, Bool.and_true]
      omega
    | true =>
      simp only [countP_cons, hdone, hle a hdone, true_and, if_true, Bool.not_true,
        Bool.and_false, Bool.false_eq_true, if_false]
      split_ifs with hfull
      · rw [ih]
        omega
      · rw [countP_cons, ih, if_pos (hle a hdone)]
        omega

lemma keepLast_append {front : List α} : keepLast n done (front ++ l) =
      keepLast (n - l.countP done) done front ++ keepLast n done l := by
  induction front with
  | nil => rfl
  | cons a front ih =>
    have hcount : n ≤ (front ++ l).countP done ↔ n - l.countP done ≤ front.countP done := by
      rw [countP_append]
      omega
    simp only [cons_append, keepLast, hcount]
    split_ifs
    · exact ih
    · rw [ih, cons_append]

lemma keepLast_concat (a : α) (hdone : done a = false) :
    keepLast n done (l ++ [a]) = keepLast n done l ++ [a] := by
  rw [keepLast_append]
  simp [keepLast, hdone]

lemma keepLast_map_keepLast {change : α → α}
    (hchange : ∀ a, done a = true → done (change a) = true) :
    keepLast n done ((keepLast n done l).map change) = keepLast n done (l.map change) := by
  induction l with
  | nil => rfl
  | cons a l ih =>
    have hcount := @countP_keepLast _ n done l (done ∘ change) hchange
    have hall : l.countP (done ∘ change) =
        l.countP done + l.countP (fun a => (done ∘ change) a && !done a) := by
      have hunsh := @countP_keepLast _ l.length done l (done ∘ change) hchange
      have hle := countP_le_length (l := l) (p := done)
      rwa [keepLast_eq_self hle, Nat.min_eq_right hle] at hunsh
    simp only [keepLast, map_cons]
    split_ifs with hshed hlat hlat
    · exact ih
    · refine absurd ⟨hchange a hshed.1, ?_⟩ hlat
      rw [countP_map]
      omega
    · rw [map_cons, keepLast, if_pos, ih]
      rw [countP_map] at hlat ⊢
      exact ⟨hlat.1, by omega⟩
    · rw [map_cons, keepLast, if_neg, ih]
      rintro ⟨hdone, hle⟩
      rw [countP_map] at hlat hle
      exact hlat ⟨hdone, by omega⟩

/-- A queue without repetitions is shed by looking up which of its done entries are
among the last `n`. -/
lemma filter_eq_keepLast [DecidableEq α] (hnod : l.Nodup) : l.filter (fun a => !done a ||
      decide (a ∈ (l.filter done).drop ((l.filter done).length - n))) = keepLast n done l := by
  induction l with
  | nil => rfl
  | cons a l ih =>
    obtain ⟨hfresh, hnod⟩ := nodup_cons.mp hnod
    have hcount := countP_eq_length_filter (l := l) (p := done)
    cases hdone : done a with
    | false =>
      simp only [filter_cons, hdone, keepLast, Bool.not_false, Bool.true_or, if_true,
        Bool.false_eq_true, if_false, false_and]
      rw [ih hnod]
    | true =>
      have hlast : ∀ b ∈ l, (b ∈ (a :: l.filter done).drop ((l.filter done).length + 1 - n) ↔
          b ∈ (l.filter done).drop ((l.filter done).length - n)) := by
        intro b hb
        have hne : b ≠ a := fun heq => hfresh (heq ▸ hb)
        by_cases hfull : n ≤ (l.filter done).length
        · rw [Nat.succ_sub hfull, drop_succ_cons]
        · rw [Nat.sub_eq_zero_of_le (by omega), Nat.sub_eq_zero_of_le (by omega)]
          simp [hne]
      have htail : l.filter (fun b => !done b || decide
          (b ∈ (a :: l.filter done).drop ((l.filter done).length + 1 - n))) =
            keepLast n done l := by
        rw [← ih hnod]
        apply filter_congr
        intro b hb
        rw [decide_eq_decide.mpr (hlast b hb)]
      simp only [filter_cons, hdone, keepLast, if_true, length_cons, Bool.not_true,
        Bool.false_or, true_and, htail, hcount]
      by_cases hfull : n ≤ (l.filter done).length
      · have hshed : a ∉ (a :: l.filter done).drop ((l.filter done).length + 1 - n) := by
          rw [Nat.succ_sub hfull, drop_succ_cons]
          intro hmem
          exact hfresh (mem_of_mem_filter (mem_of_mem_drop hmem))
        simp [hshed, hfull]
      · have hkept : a ∈ (a :: l.filter done).drop ((l.filter done).length + 1 - n) := by
          rw [Nat.sub_eq_zero_of_le (by omega)]
          exact mem_cons_self
        simp [hkept, hfull]

end

/-- Of a sorted list the first `n` entries are kept: an entry is kept where at most `n`, itself
among them, rank as high as it does. -/
lemma mem_take_mergeSort {le : α → α → Bool} (htrans : ∀ a b c, le a b → le b c → le a c)
    (htot : ∀ a b, le a b || le b a) {l : List α} {a : α} {n : ℕ} (ha : a ∈ l)
    (hcount : l.countP (fun b => le b a) ≤ n) : a ∈ (l.mergeSort le).take n := by
  have hmem : a ∈ l.mergeSort le := mem_mergeSort.mpr ha
  obtain ⟨front, back, hspl⟩ := append_of_mem hmem
  have hsort := @List.pairwise_mergeSort _ le htrans htot l
  rw [hspl, pairwise_append] at hsort
  have hfront : front.countP (fun b => le b a) = front.length := by
    apply countP_eq_length.mpr
    intro b hb
    exact hsort.2.2 b hb a mem_cons_self
  have hself : le a a = true := by
    have hor := htot a a
    simpa using hor
  have hall : front.length + 1 ≤ l.countP (fun b => le b a) := by
    rw [← (mergeSort_perm l le).countP_eq, hspl, countP_append, countP_cons, hfront, if_pos hself]
    omega
  have hplace : front ++ [a] <+: (l.mergeSort le).take n := by
    rw [prefix_take_iff, hspl]
    constructor
    · exact ⟨back, by simp⟩
    · rw [length_append, length_singleton]
      omega
  exact hplace.subset (by simp)

end Redskilled.Foundation
