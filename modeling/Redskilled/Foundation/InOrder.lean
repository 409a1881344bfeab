import Mathlib.Data.List.Induction
import Mathlib.Data.List.Nodup

/-!
# Rows made in order

For one key after the other something is done to a state, and a row says how it went. Each key
has a view of the state, which only what is done for that key changes.
-/
namespace Redskilled.Foundation
open List
variable {K V W σ : Type*}

def inOrder (act : K → σ → V × σ) : List K → σ → List (K × V) × σ
  | [], s => ([], s)
  | key :: keys, s =>
    let rest := inOrder act keys (act key s).2
    ((key, (act key s).1) :: rest.1, rest.2)

/-- What is done for a key leaves the views of the others. -/
def Framed (act : K → σ → V × σ) (view : K → σ → W) : Prop :=
  ∀ key key' s, key ≠ key' → view key (act key' s).2 = view key s

def reported [DecidableEq K] (rows : List (K × V)) (key : K) : Option V :=
  (rows.reverse.find? fun row => row.1 = key).map Prod.snd

variable {act : K → σ → V × σ} {view : K → σ → W} {key : K} {keys : List K} {s : σ}

lemma inOrder_append (keys keys' : List K) (s : σ) : inOrder act (keys ++ keys') s =
      ((inOrder act keys s).1 ++ (inOrder act keys' (inOrder act keys s).2).1,
        (inOrder act keys' (inOrder act keys s).2).2) := by
  induction keys generalizing s with
  | nil => rfl
  | cons key keys ih => simp [inOrder, ih]

lemma view_of_notMem (hframe : Framed act view) (h : key ∉ keys) : view key (inOrder act keys s).2 = view key s := by
  induction keys generalizing s with
  | nil => rfl
  | cons first keys ih =>
    simp only [mem_cons, not_or] at h
    exact (ih h.2).trans (hframe key first s h.1)

variable [DecidableEq K]

lemma view_of_idem (hframe : Framed act view) {F : K → W → W}
    (hown : ∀ key s, view key (act key s).2 = F key (view key s))
    (hidem : ∀ key w, F key (F key w) = F key w) :
    view key (inOrder act keys s).2 = if key ∈ keys then F key (view key s) else view key s := by
  induction keys generalizing s with
  | nil => rfl
  | cons first keys ih =>
    refine ih.trans ?_
    by_cases hfirst : key = first
    · subst hfirst
      simp [hown, hidem]
    · simp [hfirst, hframe key first s hfirst]

lemma reported_concat (rows : List (K × V)) (row : K × V) (key : K) :
    reported (rows ++ [row]) key = if row.1 = key then some row.2 else reported rows key := by
  simp only [reported, reverse_append, reverse_singleton, singleton_append, find?_cons]
  by_cases h : row.1 = key <;> simp [h]

lemma reported_map {f : K → V} (h : key ∈ keys) :
    reported (keys.map fun key => (key, f key)) key = some (f key) := by
  induction keys using reverseRecOn with
  | nil => cases h
  | append_singleton keys last ih =>
    rw [map_append, map_singleton, reported_concat]
    split_ifs with heq
    · rw [← heq]
    · exact ih ((mem_append.mp h).resolve_right fun hlast => heq (mem_singleton.mp hlast).symm)

lemma last_row (hframe : Framed act view) (h : key ∈ keys) (s : σ) :
    ∃ before after, keys = before ++ key :: after ∧ key ∉ after ∧
      reported (inOrder act keys s).1 key = some (act key (inOrder act before s).2).1 ∧
      view key (inOrder act keys s).2 = view key (act key (inOrder act before s).2).2 := by
  induction keys using reverseRecOn with
  | nil => cases h
  | append_singleton keys last ih =>
    rw [inOrder_append]
    simp only [inOrder, reported_concat]
    split_ifs with heq
    · subst heq
      exact ⟨keys, [], rfl, not_mem_nil, rfl, rfl⟩
    · have hne : key ≠ last := fun hkey => heq hkey.symm
      obtain ⟨before, after, hspl, haft, hrep, hview⟩ :=
        ih ((mem_append.mp h).resolve_right fun hlast => hne (mem_singleton.mp hlast))
      exact ⟨before, after ++ [last], by simp [hspl], by simp [haft, hne], hrep,
        (hframe key last _ hne).trans hview⟩

lemma row_of_nodup (hframe : Framed act view) (hkeys : keys.Nodup) (h : key ∈ keys) (s : σ) :
    ∃ u, view key u = view key s ∧ reported (inOrder act keys s).1 key = some (act key u).1 ∧
      view key (inOrder act keys s).2 = view key (act key u).2 := by
  obtain ⟨before, after, rfl, -, hlast⟩ := last_row hframe h s
  have hbef : key ∉ before := fun hmem =>
    (nodup_append.mp hkeys).2.2 key hmem key mem_cons_self rfl
  exact ⟨_, view_of_notMem hframe hbef, hlast⟩

/-- Where what is done for a key blocks what is done for it after, all reports are good only if
the keys differ and none was blocked before. -/
lemma nodup_of_reported (Blocked : W → Prop) (hframe : Framed act view) {good : V}
    (hblocks : ∀ key s, Blocked (view key (act key s).2))
    (hbad : ∀ key s, Blocked (view key s) → (act key s).1 ≠ good)
    (h : ∀ key ∈ keys, reported (inOrder act keys s).1 key = some good) :
    keys.Nodup ∧ ∀ key ∈ keys, ¬ Blocked (view key s) := by
  have hfirst : ∀ key ∈ keys, keys.count key = 1 ∧ ¬ Blocked (view key s) := by
    intro key hkey
    obtain ⟨before, after, hspl, haft, hrep, -⟩ := last_row hframe hkey s
    have hopen : ¬ Blocked (view key (inOrder act before s).2) := fun hblock =>
      hbad key _ hblock (Option.some.inj (hrep.symm.trans (h key hkey)))
    have hbef : key ∉ before := by
      intro hmem
      obtain ⟨_, _, -, -, -, hview⟩ := last_row hframe hmem s
      exact hopen (hview ▸ hblocks key _)
    rw [view_of_notMem hframe hbef] at hopen
    refine ⟨?_, hopen⟩
    simp [hspl, count_append, count_eq_zero_of_not_mem haft, count_eq_zero_of_not_mem hbef]
  refine ⟨nodup_iff_count_le_one.mpr fun key => ?_, fun key hkey => (hfirst key hkey).2⟩
  by_cases hkey : key ∈ keys
  · exact Nat.le_of_eq (hfirst key hkey).1
  · simp [count_eq_zero_of_not_mem hkey]

end Redskilled.Foundation
