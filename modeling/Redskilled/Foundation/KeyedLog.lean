import Mathlib.Data.List.Induction
import Redskilled.Foundation.JsMap

/-!
# Logs of keyed writes

An entry of such a log puts a value under a key, drops a key, or does neither.
Replaying the log leaves under each key what its last word says. A log may be
thinned without changing what its replay leaves: it is enough to keep every put
that stands, and behind every put that is kept a later word of the same key,
where there was one.

Entries are numbered, so that a thinned log still tells which of two entries was
the later one.
-/
namespace Redskilled.Foundation
open List

inductive Word (κ ν : Type*) where
  | put (k : κ) (v : ν)
  | drop (k : κ)
  | other

namespace Word
variable {κ ν : Type*}

def key : Word κ ν → Option κ
  | put k _ | drop k => some k
  | other => none

def write [DecidableEq κ] (m : JsMap κ ν) : Word κ ν → JsMap κ ν
  | put k v => m.set k v
  | drop k => m.erase k
  | other => m

lemma lookup_write [DecidableEq κ] (m : JsMap κ ν) (w : Word κ ν) (k : κ) : (w.write m).lookup k =
      if w.key = some k then (match w with | put _ v => some v | _ => none)
      else m.lookup k := by
  cases w with
  | put a v => simp [write, key, JsMap.lookup_set, eq_comm]
  | drop a => simp [write, key, JsMap.lookup_erase_eq, eq_comm]
  | other => simp [write, key]

end Word

namespace KeyedLog
variable {α κ ν : Type*} [DecidableEq κ] (word : α → Word κ ν)

def replay (log : List α) : JsMap κ ν := log.foldl (fun m a => (word a).write m) ∅

/-- Numbered entries, the numbers going up. -/
def Numbered (log : List (α × ℕ)) : Prop := log.Pairwise fun p q => p.2 < q.2

/-- The entry puts `v` under `k`, and no later entry says anything of `k`. -/
def Stands (log : List (α × ℕ)) (k : κ) (v : ν) (p : α × ℕ) : Prop :=
  p ∈ log ∧ word p.1 = .put k v ∧ ∀ q ∈ log, p.2 < q.2 → (word q.1).key ≠ some k

lemma numbered_zipIdx (log : List α) : Numbered log.zipIdx := by
  have h := pairwise_lt_range (n := log.length)
  rw [Numbered, ← pairwise_map (f := Prod.snd) (R := fun i j => i < j)]
  simpa [range_eq_range'] using h

variable {word} {log : List (α × ℕ)}

omit [DecidableEq κ] in
lemma stands_concat {k : κ} {v : ν} {e : α × ℕ} (h : Numbered (log ++ [e])) :
    (∃ p, Stands word (log ++ [e]) k v p) ↔
      word e.1 = .put k v ∨ (word e.1).key ≠ some k ∧ ∃ p, Stands word log k v p := by
  have hlt : ∀ p ∈ log, p.2 < e.2 := fun p hp =>
    (pairwise_append.mp h).2.2 p hp e mem_cons_self
  constructor
  · rintro ⟨p, hp, hput, hlat⟩
    rcases mem_append.mp hp with hp | hp
    · refine Or.inr ⟨hlat e (by simp) (hlt p hp), p, hp, hput, ?_⟩
      intro q hq hpq
      exact hlat q (mem_append_left _ hq) hpq
    · rw [mem_singleton.mp hp] at hput
      exact Or.inl hput
  · rintro (hput | ⟨hkey, p, hp, hput, hlat⟩)
    · refine ⟨e, by simp, hput, ?_⟩
      intro q hq heq
      rcases mem_append.mp hq with hq | hq
      · have := hlt q hq
        omega
      · rw [mem_singleton.mp hq] at heq
        omega
    · refine ⟨p, mem_append_left _ hp, hput, ?_⟩
      intro q hq hpq
      rcases mem_append.mp hq with hq | hq
      · exact hlat q hq hpq
      · rwa [mem_singleton.mp hq]

lemma replay_concat (l : List α) (a : α) :
    replay word (l ++ [a]) = (word a).write (replay word l) := by
  simp [replay]

lemma lookup_replay (h : Numbered log) (k : κ) (v : ν) :
    (replay word (log.map Prod.fst)).lookup k = some v ↔ ∃ p, Stands word log k v p := by
  induction log using reverseRecOn with
  | nil =>
    constructor
    · intro hnone
      cases hnone
    · rintro ⟨p, hp, -⟩
      cases hp
  | append_singleton log e ih =>
    rw [map_append, map_singleton, replay_concat, Word.lookup_write,
      stands_concat h, ← ih (pairwise_append.mp h).1]
    cases hword : word e.1 with
    | put a w =>
      by_cases hk : a = k
      · simp [Word.key, hk]
      · simp [Word.key, hk]
    | drop a =>
      by_cases hk : a = k
      · simp [Word.key, hk]
      · simp [Word.key, hk]
    | other => simp [Word.key]

lemma lookup_replay_filter (h : Numbered log) {keep : α × ℕ → Bool}
    (hstands : ∀ k v p, Stands word log k v p → keep p)
    (hcov : ∀ k v, ∀ p ∈ log, keep p → word p.1 = .put k v →
      (∃ q ∈ log, p.2 < q.2 ∧ (word q.1).key = some k) →
      ∃ q ∈ log, keep q ∧ p.2 < q.2 ∧ (word q.1).key = some k) (k : κ) :
    (replay word ((log.filter keep).map Prod.fst)).lookup k =
      (replay word (log.map Prod.fst)).lookup k := by
  apply Option.ext
  intro v
  rw [lookup_replay (h.filter _), lookup_replay h]
  constructor
  · rintro ⟨p, hp, hput, hlat⟩
    have ⟨hlog, hkeep⟩ := mem_filter.mp hp
    refine ⟨p, hlog, hput, fun q hq hpq hkey => ?_⟩
    obtain ⟨q', hq', hkeep', hpq', hkey'⟩ := hcov k v p hlog hkeep hput ⟨q, hq, hpq, hkey⟩
    exact hlat q' (mem_filter.mpr ⟨hq', hkeep'⟩) hpq' hkey'
  · rintro ⟨p, hp⟩
    have hkeep := hstands k v p hp
    obtain ⟨hlog, hput, hlat⟩ := hp
    exact ⟨p, mem_filter.mpr ⟨hlog, hkeep⟩, hput, fun q hq => hlat q (mem_of_mem_filter hq)⟩

end KeyedLog
end Redskilled.Foundation
