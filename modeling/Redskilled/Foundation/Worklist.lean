import Mathlib.Data.List.Basic
import Mathlib.Logic.Relation

/-!
# Worklists

A breadth-first search keeps the nodes it has found and a queue of those it has still to
visit. Visiting a node puts those of its successors that are new on both. The search takes
one visit for each node that is ever queued, so it ends also where the successors form a
cycle, and what it has found then are the nodes that can be reached from the first ones.
-/
namespace Redskilled.Foundation
open List

structure Worklist (α : Type*) where
  found : List α
  queue : List α

namespace Worklist
variable {α : Type*} [DecidableEq α] {succ : α → List α} {nodes : List α}

def discover (w : Worklist α) (b : α) : Worklist α :=
  if b ∈ w.found then w else ⟨w.found ++ [b], w.queue ++ [b]⟩

/-- At most `fuel` visits. -/
def search (succ : α → List α) : ℕ → Worklist α → List α
  | 0, w => w.found
  | fuel + 1, w =>
    match w.queue with
    | [] => w.found
    | a :: queue => search succ fuel ((succ a).foldl discover ⟨w.found, queue⟩)

def missing (nodes found : List α) : ℕ := nodes.countP fun b => b ∉ found

/-- The visits that are left, if every node is one of `nodes`. -/
def budget (nodes : List α) (w : Worklist α) : ℕ := w.queue.length + missing nodes w.found

/-- `b` can be reached from `a`. -/
abbrev Leads (succ : α → List α) : α → α → Prop := Relation.ReflTransGen fun a b => b ∈ succ a

variable {a b : α} {bs found : List α} {w : Worklist α}

lemma missing_discover (hnode : b ∈ nodes) (hnew : b ∉ found) :
    missing nodes (found ++ [b]) + 1 ≤ missing nodes found := by
  have hspl := countP_eq_countP_filter_add nodes (fun a => decide (a ∉ found)) (· = b)
  have hrest : missing nodes (found ++ [b]) ≤
      (nodes.filter fun a => ¬ a = b).countP fun a => decide (a ∉ found) := by
    rw [missing, countP_filter]
    apply countP_mono_left
    intro a _ ha
    simp only [mem_append, mem_singleton, not_or, decide_eq_true_eq] at ha
    simpa using ha
  have hself : 0 < (nodes.filter fun a => a = b).countP fun a => decide (a ∉ found) := by
    rw [countP_pos_iff]
    exact ⟨b, by simpa using hnode, by simpa using hnew⟩
  simp only [missing, decide_not] at *
  omega

lemma budget_discover (hnode : b ∈ nodes) : budget nodes (w.discover b) ≤ budget nodes w := by
  by_cases hb : b ∈ w.found
  · simp [discover, hb]
  · have hless := missing_discover hnode hb
    simp only [budget, discover, if_neg hb, length_append, length_singleton]
    omega

lemma budget_foldl (hnod : ∀ b ∈ bs, b ∈ nodes) (w : Worklist α) :
    budget nodes (bs.foldl discover w) ≤ budget nodes w := by
  induction bs generalizing w with
  | nil => exact Nat.le_refl _
  | cons b bs ih =>
    have hrest := ih (fun c hc => hnod c (mem_cons_of_mem b hc)) (w.discover b)
    exact Nat.le_trans hrest (budget_discover (hnod b mem_cons_self))

lemma mem_found_discover : a ∈ (w.discover b).found ↔ a ∈ w.found ∨ a = b := by
  by_cases hb : b ∈ w.found
  · simp only [discover, if_pos hb, iff_self_or]
    rintro rfl
    exact hb
  · simp [discover, hb]

lemma mem_found_foldl : a ∈ (bs.foldl discover w).found ↔ a ∈ w.found ∨ a ∈ bs := by
  induction bs generalizing w with
  | nil => simp
  | cons b bs ih => rw [foldl_cons, ih, mem_found_discover, mem_cons, or_assoc]

lemma mem_queue_foldl
    (h : a ∈ (bs.foldl discover w).found) (hold : a ∈ w.found → a ∈ w.queue) :
    a ∈ (bs.foldl discover w).queue := by
  induction bs generalizing w with
  | nil => exact hold h
  | cons b bs ih =>
    apply ih h
    intro ha
    by_cases hb : b ∈ w.found
    · simp only [discover, if_pos hb] at ha ⊢
      exact hold ha
    · simp only [discover, if_neg hb, mem_append] at ha ⊢
      exact ha.imp_left hold

lemma found_of_queue_foldl (h : ∀ a ∈ w.queue, a ∈ w.found) :
    ∀ a ∈ (bs.foldl discover w).queue, a ∈ (bs.foldl discover w).found := by
  induction bs generalizing w with
  | nil => exact h
  | cons b bs ih =>
    apply ih
    intro a ha
    by_cases hb : b ∈ w.found
    · simp only [discover, if_pos hb] at ha ⊢
      exact h a ha
    · simp only [discover, if_neg hb, mem_append] at ha ⊢
      exact ha.imp_left (h a)

/-- The nodes found and not on the queue have all their successors found. -/
def Visited (succ : α → List α) (w : Worklist α) : Prop :=
  ∀ a ∈ w.found, a ∉ w.queue → ∀ b ∈ succ a, b ∈ w.found

lemma Visited.step {queue : List α} (h : Visited succ ⟨found, a :: queue⟩) :
    Visited succ ((succ a).foldl discover ⟨found, queue⟩) := by
  intro c hc hqueue b hb
  have hold : c ∈ found ∧ c ∉ queue := by
    by_contra hno
    apply hqueue
    apply mem_queue_foldl hc
    intro hfound
    by_contra hout
    exact hno ⟨hfound, hout⟩
  by_cases hca : c = a
  · subst hca
    exact mem_found_foldl.mpr (.inr hb)
  · apply mem_found_foldl.mpr
    left
    exact h c hold.1 (by simpa [hca] using hold.2) b hb

lemma leads_step {found queue : List α} {a b : α} (ha : a ∈ found) :
    (∃ c ∈ ((succ a).foldl discover ⟨found, queue⟩).found, Leads succ c b) ↔
      ∃ c ∈ found, Leads succ c b := by
  constructor
  · rintro ⟨c, hc, hlead⟩
    rcases mem_found_foldl.mp hc with hold | hnew
    · exact ⟨c, hold, hlead⟩
    · exact ⟨a, ha, .head hnew hlead⟩
  · rintro ⟨c, hc, hlead⟩
    exact ⟨c, mem_found_foldl.mpr (.inl hc), hlead⟩

omit [DecidableEq α] in
lemma Visited.closed (h : Visited succ ⟨found, []⟩)
    (ha : a ∈ found) (hlead : Leads succ a b) : b ∈ found := by
  induction hlead with
  | refl => exact ha
  | tail _ hstep ih => exact h _ ih not_mem_nil _ hstep

lemma mem_search {fuel : ℕ} (hnod : ∀ a, ∀ c ∈ succ a, c ∈ nodes)
    (hfuel : budget nodes w ≤ fuel) (hqueue : ∀ a ∈ w.queue, a ∈ w.found)
    (hvis : Visited succ w) :
    b ∈ search succ fuel w ↔ ∃ a ∈ w.found, Leads succ a b := by
  induction fuel generalizing w with
  | zero =>
    obtain ⟨found, queue⟩ := w
    have hempty : queue = [] := by
      apply length_eq_zero_iff.mp
      simp only [budget] at hfuel
      omega
    subst hempty
    exact ⟨fun hb => ⟨b, hb, .refl⟩, fun ⟨a, ha, hlead⟩ => hvis.closed ha hlead⟩
  | succ fuel ih =>
    obtain ⟨found, queue⟩ := w
    cases queue with
    | nil =>
      exact ⟨fun hb => ⟨b, hb, .refl⟩, fun ⟨a, ha, hlead⟩ => hvis.closed ha hlead⟩
    | cons a queue =>
      rw [← @leads_step α _ succ found queue a b (hqueue a mem_cons_self)]
      apply ih
      · have hstep := budget_foldl (hnod a) ⟨found, queue⟩
        simp only [budget, length_cons] at hfuel hstep ⊢
        omega
      · exact found_of_queue_foldl fun c hc => hqueue c (mem_cons_of_mem a hc)
      · exact hvis.step

lemma mem_search_roots {roots : List α} {fuel : ℕ}
    (hfound : ∀ a, a ∈ found ↔ a ∈ roots) (hnod : ∀ a, ∀ c ∈ succ a, c ∈ nodes)
    (hfuel : roots.length + nodes.length ≤ fuel) :
    b ∈ search succ fuel ⟨found, roots⟩ ↔ ∃ a ∈ roots, Leads succ a b := by
  have hbudg : budget nodes ⟨found, roots⟩ ≤ fuel := by
    have hmiss : missing nodes found ≤ nodes.length := countP_le_length
    simp only [budget]
    omega
  rw [mem_search hnod hbudg (fun a ha => (hfound a).mpr ha)]
  · simp only [hfound]
  · intro a ha hout
    exact absurd ((hfound a).mp ha) hout

end Worklist
end Redskilled.Foundation
