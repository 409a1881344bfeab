import Mathlib.Data.List.DropRight

/-!
# Complete lines

A text that grows at its end is read by its complete lines: the pieces before
each separator, without what follows the last one. A writer that was cut off
leaves an incomplete tail, and the next writer drops it.
-/
namespace Redskilled.Foundation
open List

variable {α : Type*} [DecidableEq α] (sep : α)

/-- The lines that `sep` ends. -/
def completeLines (text : List α) : List (List α) := (text.splitOn sep).dropLast

/-- The text up to and with its last separator. -/
def dropIncompleteTail (text : List α) : List α := text.rdropWhile (· ≠ sep)

def incompleteTail (text : List α) : List α := text.rtakeWhile (· ≠ sep)

/-- Nothing stands behind the last separator. -/
def AtBoundary (text : List α) : Prop := dropIncompleteTail sep text = text

instance (text : List α) : Decidable (AtBoundary sep text) :=
  inferInstanceAs (Decidable (dropIncompleteTail sep text = text))

/-- The text of some lines. -/
def unlines (ls : List (List α)) : List α := ls.flatMap (· ++ [sep])

variable {sep} {a b : List α}

lemma completeLines_nil : completeLines sep [] = [] := rfl

lemma drop_append_tail (a : List α) : dropIncompleteTail sep a ++ incompleteTail sep a = a :=
  rdropWhile_append_rtakeWhile ..

lemma notMem_tail : sep ∉ incompleteTail sep a := by
  intro h
  have hne := mem_rtakeWhile_imp h
  simp at hne

lemma completeLines_of_notMem (h : sep ∉ a) : completeLines sep a = [] := by
  rw [completeLines, splitOn_eq_singleton h]
  rfl

lemma atBoundary_iff : AtBoundary sep a ↔ a = [] ∨ ∃ a', a = a' ++ [sep] := by
  rw [AtBoundary, dropIncompleteTail, rdropWhile_eq_self_iff]
  constructor
  · intro h
    rcases eq_nil_or_concat a with rfl | ⟨a', x, rfl⟩
    · exact Or.inl rfl
    · have hx : x = sep := by simpa using h (by simp)
      exact Or.inr ⟨a', by simp [hx]⟩
  · rintro (rfl | ⟨a', rfl⟩) hne
    · exact absurd rfl hne
    · simp

lemma atBoundary_drop (a : List α) : AtBoundary sep (dropIncompleteTail sep a) :=
  rdropWhile_idempotent ..

lemma AtBoundary.drop_append (h : AtBoundary sep a) (b : List α) :
    dropIncompleteTail sep (a ++ b) = a ++ dropIncompleteTail sep b := by
  induction b using reverseRecOn with
  | nil =>
    rw [append_nil]
    exact h.trans (append_nil a).symm
  | append_singleton b x ih =>
    rw [dropIncompleteTail, dropIncompleteTail, ← append_assoc]
    by_cases hx : x = sep
    · rw [rdropWhile_concat_neg _ _ _ (by simp [hx]),
        rdropWhile_concat_neg _ _ _ (by simp [hx]), append_assoc]
    · rw [rdropWhile_concat_pos _ _ _ (by simp [hx]),
        rdropWhile_concat_pos _ _ _ (by simp [hx])]
      exact ih

lemma AtBoundary.append (hb : AtBoundary sep b) (ha : AtBoundary sep a) :
    AtBoundary sep (a ++ b) := by
  rcases atBoundary_iff.mp hb with rfl | ⟨b', rfl⟩
  · simpa using ha
  · exact atBoundary_iff.mpr (Or.inr ⟨a ++ b', by simp⟩)

lemma completeLines_append (h : AtBoundary sep a) :
    completeLines sep (a ++ b) = completeLines sep a ++ completeLines sep b := by
  rcases atBoundary_iff.mp h with rfl | ⟨a', rfl⟩
  · rfl
  · have hspl : ∀ c, (a' ++ sep :: c).splitOn sep = a'.splitOn sep ++ c.splitOn sep :=
      splitOn_append_cons_self a'
    simp only [completeLines, append_assoc, singleton_append, hspl]
    simp

lemma completeLines_drop (a : List α) :
    completeLines sep (dropIncompleteTail sep a) = completeLines sep a := by
  have hspl := @drop_append_tail _ _ sep a
  conv_rhs => rw [← hspl]
  rw [completeLines_append (atBoundary_drop a), completeLines_of_notMem notMem_tail, append_nil]

lemma completeLines_append_tail (a b : List α) : completeLines sep (a ++ b) =
      completeLines sep a ++ completeLines sep (incompleteTail sep a ++ b) := by
  have hspl := @drop_append_tail _ _ sep a
  conv_lhs => rw [← hspl, append_assoc]
  rw [completeLines_append (atBoundary_drop a), completeLines_drop]

lemma completeLines_line (h : sep ∉ a) : completeLines sep (a ++ [sep]) = [a] := by
  rw [completeLines, splitOn_append_cons_self_of_not_mem h]
  rfl

lemma atBoundary_unlines (ls : List (List α)) : AtBoundary sep (unlines sep ls) := by
  induction ls with
  | nil => rfl
  | cons l ls ih =>
    have hl : AtBoundary sep (l ++ [sep]) := atBoundary_iff.mpr (Or.inr ⟨l, rfl⟩)
    exact ih.append hl

lemma completeLines_unlines {ls : List (List α)} (h : ∀ l ∈ ls, sep ∉ l) :
    completeLines sep (unlines sep ls) = ls := by
  induction ls with
  | nil => rfl
  | cons l ls ih =>
    have hl : AtBoundary sep (l ++ [sep]) := atBoundary_iff.mpr (Or.inr ⟨l, rfl⟩)
    have hrest := ih fun l' hl' => h l' (mem_cons_of_mem l hl')
    rw [unlines, flatMap_cons, completeLines_append hl, completeLines_line (h l mem_cons_self)]
    rw [unlines] at hrest
    rw [hrest]
    rfl

lemma completeLines_take_unlines {ls : List (List α)} (h : ∀ l ∈ ls, sep ∉ l) (k : ℕ) :
    ∃ j, completeLines sep ((unlines sep ls).take k) = ls.take j ∧
      ∀ l ∈ ls.head?, l.length < k → 0 < j := by
  induction ls generalizing k with
  | nil => exact ⟨0, by simp [unlines, completeLines_nil], by simp⟩
  | cons l ls ih =>
    have hl : sep ∉ l := h l mem_cons_self
    have htext : unlines sep (l :: ls) = (l ++ [sep]) ++ unlines sep ls := rfl
    by_cases hk : l.length < k
    · obtain ⟨j, hj, -⟩ := ih (fun l' hl' => h l' (mem_cons_of_mem _ hl')) (k - (l.length + 1))
      have hline : AtBoundary sep (l ++ [sep]) := atBoundary_iff.mpr (Or.inr ⟨l, rfl⟩)
      have htake : (unlines sep (l :: ls)).take k =
          (l ++ [sep]) ++ (unlines sep ls).take (k - (l.length + 1)) := by
        rw [htext, take_append, take_of_length_le (by simp; omega)]
        simp
      refine ⟨j + 1, ?_, fun _ _ _ => Nat.succ_pos j⟩
      rw [htake, completeLines_append hline, completeLines_line hl, hj]
      rfl
    · have htake : (unlines sep (l :: ls)).take k = l.take k := by
        rw [htext, append_assoc, take_append_of_le_length (by omega)]
      refine ⟨0, ?_, ?_⟩
      · rw [htake, completeLines_of_notMem fun hmem => hl (mem_of_mem_take hmem)]
        rfl
      · intro l' hl' hlt
        rw [head?_cons, Option.mem_some_iff] at hl'
        rw [← hl'] at hlt
        exact absurd hlt hk

end Redskilled.Foundation
