import Redskilled.Foundation.Dialogue

/-!
# Programs among others

Several programs ask of one world. What the others do between two questions of a program is
bounded by a relation on the world, the interference. A program withstands it where, however
the world was moved and whatever the questions are answered, it returns what the
postcondition holds of, and fails only where that is allowed. A guard leaves out answers,
which may depend on what is left of the program.
-/
namespace Redskilled.Foundation.Dialogue
variable {Q : Type} {A : Q → Type} {α β : Type} {σ : Type*}

/-- What may be answered to a program in a state of the world. -/
abbrev Guard (Q : Type) (A : Q → Type) (α : Type) (σ : Type*) :=
  σ → Dialogue Q A α → Exchange Q A → Prop

/-- What is left of the program after the exchanges, none where one answers another
question. -/
def rest [DecidableEq Q] : Dialogue Q A α → List (Exchange Q A) → Option (Dialogue Q A α)
  | p, [] => some p
  | .ask q next, e :: trace =>
    if h : e.question = q then (next (h ▸ e.answer)).rest trace else none
  | .done _, _ :: _ => none
  | .fail, _ :: _ => none

lemma rest_nil [DecidableEq Q] (p : Dialogue Q A α) : p.rest [] = some p := by
  cases p <;> rfl

section
variable (steps : σ → Exchange Q A → σ → Prop) (interferes : σ → σ → Prop)

def Withstands (guard : Guard Q A α σ) (post : α → σ → Prop) (failed : σ → Prop) :
    Dialogue Q A α → σ → Prop
  | .done value, s => post value s
  | .fail, s => failed s
  | .ask q next, s => ∀ t answer u, interferes s t → guard t (.ask q next) ⟨q, answer⟩ →
      steps t ⟨q, answer⟩ u → (next answer).Withstands guard post failed u

end

section
variable {steps : σ → Exchange Q A → σ → Prop} {interferes : σ → σ → Prop}
  {guard : Guard Q A α σ} {post : α → σ → Prop} {failed : σ → Prop} {s t : σ}

variable {p : Dialogue Q A α}

lemma Withstands.mono {guard' : Guard Q A α σ} {post' : α → σ → Prop} {failed' : σ → Prop}
    (h : p.Withstands steps interferes guard post failed s)
    (hguard : ∀ s p e, guard' s p e → guard s p e)
    (hpost : ∀ value s, post value s → post' value s) (hfail : ∀ s, failed s → failed' s) :
    p.Withstands steps interferes guard' post' failed' s := by
  induction p generalizing s with
  | done value => exact hpost value s h
  | fail => exact hfail s h
  | ask q next ih =>
    intro t answer u ht hall hstep
    exact ih answer (h t answer u ht (hguard _ _ _ hall) hstep)

lemma Withstands.and {post' : α → σ → Prop} {failed' : σ → Prop}
    (h : p.Withstands steps interferes guard post failed s)
    (h' : p.Withstands steps interferes guard post' failed' s) :
    p.Withstands steps interferes guard (fun value s => post value s ∧ post' value s)
      (fun s => failed s ∧ failed' s) s := by
  induction p generalizing s with
  | done value => exact ⟨h, h'⟩
  | fail => exact ⟨h, h'⟩
  | ask q next ih =>
    intro t answer u ht hall hstep
    exact ih answer (h t answer u ht hall hstep) (h' t answer u ht hall hstep)

lemma Withstands.moved
    (h : p.Withstands steps interferes guard post failed s) (hst : interferes s t)
    (htrans : ∀ a b c, interferes a b → interferes b c → interferes a c)
    (hpost : ∀ value s t, interferes s t → post value s → post value t)
    (hfail : ∀ s t, interferes s t → failed s → failed t) :
    p.Withstands steps interferes guard post failed t := by
  cases p with
  | done value => exact hpost value s t hst h
  | fail => exact hfail s t hst h
  | ask q next =>
    intro u answer v hu
    exact h u answer v (htrans s t u hst hu)

lemma Withstands.bind (guard : Guard Q A α σ) {guard' : Guard Q A β σ}
    {f : α → Dialogue Q A β} {post : β → σ → Prop}
    (hguard : ∀ s q next e, guard' s ((Dialogue.ask q next).bind f) e → guard s (.ask q next) e)
    (h : p.Withstands steps interferes guard
      (fun value => (f value).Withstands steps interferes guard' post failed) failed s) :
    (p >>= f).Withstands steps interferes guard' post failed s := by
  induction p generalizing s with
  | done value => exact h
  | fail => exact h
  | ask q next ih =>
    intro t answer u ht hall hstep
    exact ih answer (h t answer u ht (hguard t q next _ hall) hstep)

lemma Withstands.caught (guard : Guard Q A α σ) {guard' : Guard Q A (Option α) σ}
    {post : Option α → σ → Prop}
    (hguard : ∀ s q next e, guard' s (Dialogue.ask q next).caught e → guard s (.ask q next) e)
    (h : p.Withstands steps interferes guard (fun value => post (some value)) (post none) s) :
    p.caught.Withstands steps interferes guard' post failed s := by
  induction p generalizing s with
  | done value => exact h
  | fail => exact h
  | ask q next ih =>
    intro t answer u ht hall hstep
    exact ih answer (h t answer u ht (hguard t q next _ hall) hstep)

section
variable {allowed : σ → Exchange Q A → Prop}

lemma Withstands.seq {f : α → Dialogue Q A β} {middle : α → σ → Prop} {post : β → σ → Prop}
    {p : Dialogue Q A α}
    (h : p.Withstands steps interferes (fun s _ e => allowed s e) middle failed s)
    (hnext : ∀ value t, middle value t →
      (f value).Withstands steps interferes (fun s _ e => allowed s e) post failed t) :
    (p >>= f).Withstands steps interferes (fun s _ e => allowed s e) post failed s :=
  Withstands.bind (fun s _ e => allowed s e) (fun _ _ _ _ h => h)
    (h.mono (fun _ _ _ h => h) hnext fun _ h => h)

lemma Withstands.caught_seq {f : Option α → Dialogue Q A β} {middle : α → σ → Prop}
    {missed : σ → Prop} {post : β → σ → Prop} {p : Dialogue Q A α}
    (h : p.Withstands steps interferes (fun s _ e => allowed s e) middle missed s)
    (hsome : ∀ value t, middle value t →
      (f (some value)).Withstands steps interferes (fun s _ e => allowed s e) post failed t)
    (hnone : ∀ t, missed t →
      (f none).Withstands steps interferes (fun s _ e => allowed s e) post failed t) :
    (p.caught >>= f).Withstands steps interferes (fun s _ e => allowed s e) post failed s :=
  Withstands.bind (fun s _ e => allowed s e) (fun _ _ _ _ h => h)
    (Withstands.caught (fun s _ e => allowed s e) (fun _ _ _ _ h => h)
      (h.mono (fun _ _ _ h => h) hsome hnone))

end

lemma withstands_kept {kept : σ → Prop} (hmov : ∀ s t, interferes s t → kept s → kept t)
    (hstep : ∀ s e t, steps s e t → kept s → kept t) (p : Dialogue Q A α) (h : kept s) :
    p.Withstands steps interferes guard (fun _ => kept) kept s := by
  induction p generalizing s with
  | done value => exact h
  | fail => exact h
  | ask q next ih =>
    intro t answer u ht _ hu
    exact ih answer (hstep t _ u hu (hmov s t ht h))

end

end Redskilled.Foundation.Dialogue
