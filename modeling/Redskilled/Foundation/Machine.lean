import Mathlib.Data.Set.Lattice

/-!
# Machines and guarded runs

A machine is a partial step function: `next s a` is the state after step `a`,
or `none` where `a` is not enabled in `s`. All nondeterminism (which party
moves, what an oracle answers, which id a server hands out) is carried by the
step label, so that one concrete run can be executed.

A run is guarded by a condition on the state before each of its steps. With the
condition `anyStep` it is an arbitrary run. The induction over runs is made
once, in `Run.inv` and `Reach.inv`.
-/
namespace Redskilled.Foundation

structure Machine (σ α : Type*) where
  start : σ → Prop
  /-- The state after one step, `none` where the step is not enabled. -/
  next : σ → α → Option σ

/-- The condition every step meets. -/
def anyStep {σ α : Type*} (_ : σ) (_ : α) : Prop := True

namespace Machine
variable {σ α : Type*} {M : Machine σ α} {ok ok' : σ → α → Prop}

def execIf (M : Machine σ α) (ok : σ → α → Bool) (s : σ) : List α → Option σ
  | [] => some s
  | a :: as => if ok s a then (M.next s a).bind fun t => M.execIf ok t as else none

def exec (M : Machine σ α) : σ → List α → Option σ := M.execIf fun _ _ => true

inductive Run (M : Machine σ α) (ok : σ → α → Prop) : σ → List α → σ → Prop
  | nil (s : σ) : Run M ok s [] s
  | cons {s t u : σ} {a : α} {as : List α} :
      ok s a → M.next s a = some t → Run M ok t as u → Run M ok s (a :: as) u

/-- The states that guarded runs reach. -/
def Reach (M : Machine σ α) (ok : σ → α → Prop) (s : σ) : Prop :=
  ∃ s₀ as, M.start s₀ ∧ M.Run ok s₀ as s

lemma Run.append {s t u : σ} {as bs : List α} (h : M.Run ok s as t)
    (h' : M.Run ok t bs u) : M.Run ok s (as ++ bs) u := by
  induction h with
  | nil => exact h'
  | cons hok hn _ ih => exact .cons hok hn (ih h')

lemma Run.single {s t : σ} {a : α} (hok : ok s a) (hn : M.next s a = some t) : M.Run ok s [a] t :=
  .cons hok hn (.nil t)

lemma Run.mono (hle : ∀ s a, ok s a → ok' s a) {s t : σ} {as : List α}
    (h : M.Run ok s as t) : M.Run ok' s as t := by
  induction h with
  | nil => exact .nil _
  | cons hok hn _ ih => exact .cons (hle _ _ hok) hn ih

lemma Run.any {s t : σ} {as : List α} (h : M.Run ok s as t) : M.Run anyStep s as t :=
  h.mono fun _ _ _ => trivial

lemma Run.inv (I : σ → Prop) (step : ∀ s a t, I s → ok s a → M.next s a = some t → I t)
    {s t : σ} {as : List α} (h : M.Run ok s as t) (hs : I s) : I t := by
  induction h with
  | nil => exact hs
  | cons hok hn _ ih => exact ih (step _ _ _ hs hok hn)

lemma Run.length_add_le (I : σ → Prop) (μ : σ → ℕ)
    (step : ∀ s a t, I s → ok s a → M.next s a = some t → I t)
    (lower : ∀ s a t, I s → ok s a → M.next s a = some t → μ t < μ s)
    {s t : σ} {as : List α} (h : M.Run ok s as t) (hs : I s) : as.length + μ t ≤ μ s := by
  induction h with
  | nil => simp
  | cons hok hn _ ih =>
    have hlow := lower _ _ _ hs hok hn
    have hrest := ih (step _ _ _ hs hok hn)
    rw [List.length_cons]
    omega

lemma run_of_execIf {ok : σ → α → Bool} {s t : σ} {as : List α}
    (h : M.execIf ok s as = some t) : M.Run (fun s a => ok s a = true) s as t := by
  induction as generalizing s with
  | nil =>
    cases h
    exact .nil _
  | cons a as ih =>
    rw [execIf] at h
    split_ifs at h with hok
    obtain ⟨u, hn, hu⟩ := Option.bind_eq_some_iff.mp h
    exact .cons hok hn (ih hu)

lemma run_of_exec {s t : σ} {as : List α} (h : M.exec s as = some t) : M.Run anyStep s as t :=
  (run_of_execIf h).any

lemma Reach.of_start {s : σ} (h : M.start s) : M.Reach ok s :=
  ⟨s, [], h, .nil s⟩

lemma Reach.trans {s t : σ} {as : List α} (h : M.Reach ok s) (h' : M.Run ok s as t) :
    M.Reach ok t := by
  obtain ⟨s₀, bs, hs, hr⟩ := h
  exact ⟨s₀, bs ++ as, hs, hr.append h'⟩

lemma Reach.step {s t : σ} {a : α} (h : M.Reach ok s) (hok : ok s a)
    (hn : M.next s a = some t) : M.Reach ok t :=
  h.trans (.single hok hn)

lemma Reach.mono (hle : ∀ s a, ok s a → ok' s a) {s : σ} (h : M.Reach ok s) : M.Reach ok' s := by
  obtain ⟨s₀, as, hs, hr⟩ := h
  exact ⟨s₀, as, hs, hr.mono hle⟩

lemma Reach.inv (I : σ → Prop) (init : ∀ s, M.start s → I s)
    (step : ∀ s a t, I s → ok s a → M.next s a = some t → I t)
    {s : σ} (h : M.Reach ok s) : I s := by
  obtain ⟨s₀, as, hs, hr⟩ := h
  exact hr.inv I step (init s₀ hs)

lemma reach_of_exec {s₀ s : σ} {as : List α} (hs : M.start s₀)
    (h : M.exec s₀ as = some s) : M.Reach anyStep s :=
  ⟨s₀, as, hs, run_of_exec h⟩

end Machine
end Redskilled.Foundation
