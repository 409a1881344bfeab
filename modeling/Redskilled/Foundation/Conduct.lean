import Redskilled.Foundation.Dialogue

/-!
# What a program asks

A program is followed with what it has asked so far and how that was answered. Its conduct
says which questions it may ask then, and what holds where it returns or fails. The rules
follow the ways programs are put together.
-/
namespace Redskilled.Foundation.Dialogue
variable {Q : Type} {A : Q → Type} {α β : Type}

section
variable (asks : List (Exchange Q A) → Q → Prop)

/-- Behind the past, every question may be asked, and the end is as it should be. -/
def Conducts (ends : List (Exchange Q A) → Option α → Prop) :
    Dialogue Q A α → List (Exchange Q A) → Prop
  | .done value, past => ends past (some value)
  | .fail, past => ends past none
  | .ask q next, past =>
    asks past q ∧ ∀ answer, (next answer).Conducts ends (past ++ [⟨q, answer⟩])

end

section
variable {asks : List (Exchange Q A) → Q → Prop} {past : List (Exchange Q A)}

lemma Conducts.mono {ends ends' : List (Exchange Q A) → Option α → Prop}
    {p : Dialogue Q A α} (h : p.Conducts asks ends past)
    (himp : ∀ past value, ends past value → ends' past value) : p.Conducts asks ends' past := by
  induction p generalizing past with
  | done value => exact himp past _ h
  | fail => exact himp past _ h
  | ask q next ih => exact ⟨h.1, fun answer => ih answer (h.2 answer)⟩

lemma Conducts.seq {middle : List (Exchange Q A) → Option α → Prop}
    {ends : List (Exchange Q A) → Option β → Prop} {p : Dialogue Q A α}
    {f : α → Dialogue Q A β} (h : p.Conducts asks middle past)
    (hsome : ∀ value past, middle past (some value) → (f value).Conducts asks ends past)
    (hnone : ∀ past, middle past none → ends past none) :
    (p >>= f).Conducts asks ends past := by
  induction p generalizing past with
  | done value => exact hsome value past h
  | fail => exact hnone past h
  | ask q next ih => exact ⟨h.1, fun answer => ih answer (h.2 answer)⟩

lemma Conducts.caught {ends : List (Exchange Q A) → Option (Option α) → Prop}
    {p : Dialogue Q A α} (h : p.Conducts asks (fun past value => ends past (some value)) past) :
    p.caught.Conducts asks ends past := by
  induction p generalizing past with
  | done value => exact h
  | fail => exact h
  | ask q next ih => exact ⟨h.1, fun answer => ih answer (h.2 answer)⟩

lemma conducts_need {q : Q} {ends : List (Exchange Q A) → Option (A q) → Prop}
    (hasks : asks past q) (hends : ∀ answer, ends (past ++ [⟨q, answer⟩]) answer) :
    (need q : Dialogue Q A (A q)).Conducts asks ends past := by
  refine ⟨hasks, ?_⟩
  intro answer
  cases answer with
  | none => exact hends none
  | some a => exact hends (some a)

lemma conducts_attempt {q : Q} {ends : List (Exchange Q A) → Option (Option (A q)) → Prop}
    (hasks : asks past q) (hends : ∀ answer, ends (past ++ [⟨q, answer⟩]) (some answer)) :
    (attempt q : Dialogue Q A (Option (A q))).Conducts asks ends past :=
  ⟨hasks, hends⟩

end

section
variable {asks : List (Exchange Q A) → Q → Prop} {past : List (Exchange Q A)}

/-- Nothing of the past is gone, and what is returned is as it should be. -/
def Onward (past : List (Exchange Q A)) (post : α → List (Exchange Q A) → Prop)
    (later : List (Exchange Q A)) (value : Option α) : Prop :=
  past ⊆ later ∧ ∀ a, value = some a → post a later

lemma Conducts.onward {post : α → List (Exchange Q A) → Prop}
    {post' : β → List (Exchange Q A) → Prop} {p : Dialogue Q A α} {f : α → Dialogue Q A β}
    (h : p.Conducts asks (Onward past post) past)
    (hnext : ∀ a later, past ⊆ later → post a later →
      (f a).Conducts asks (Onward later post') later) :
    (p >>= f).Conducts asks (Onward past post') past := by
  apply h.seq
  · rintro a later ⟨hsub, hpost⟩
    apply (hnext a later hsub (hpost a rfl)).mono
    rintro last value ⟨hlat, hvalue⟩
    exact ⟨List.Subset.trans hsub hlat, hvalue⟩
  · rintro later ⟨hsub, -⟩
    refine ⟨hsub, ?_⟩
    rintro b ⟨⟩

lemma onward_pure {post : α → List (Exchange Q A) → Prop} {a : α} (h : post a past) :
    (pure a : Dialogue Q A α).Conducts asks (Onward past post) past := by
  refine ⟨List.Subset.refl _, ?_⟩
  rintro b ⟨⟩
  exact h

lemma onward_need {q : Q} (hasks : asks past q) : (need q : Dialogue Q A (A q)).Conducts asks
      (Onward past fun a later => ⟨q, some a⟩ ∈ later) past := by
  apply conducts_need hasks
  intro answer
  refine ⟨List.subset_append_left _ _, ?_⟩
  rintro a rfl
  exact List.mem_append_right _ List.mem_cons_self

lemma onward_attempt {q : Q} (hasks : asks past q) :
    (attempt q : Dialogue Q A (Option (A q))).Conducts asks
      (Onward past fun answer later => ⟨q, answer⟩ ∈ later) past := by
  apply conducts_attempt hasks
  intro answer
  refine ⟨List.subset_append_left _ _, ?_⟩
  rintro a ⟨⟩
  exact List.mem_append_right _ List.mem_cons_self

end

section
variable {σ : Type*} (perform : σ → (q : Q) → Option (A q) × σ)

/-- The run in which the world gives every answer. -/
def performed : Dialogue Q A α → σ → Option α × σ
  | .done value, s => (some value, s)
  | .fail, s => (none, s)
  | .ask q next, s => (next (perform s q).1).performed (perform s q).2

variable {perform} {s t : σ}

lemma performed_bind {p : Dialogue Q A α} {f : α → Dialogue Q A β} {value : α}
    (h : p.performed perform s = (some value, t)) :
    (p >>= f).performed perform s = (f value).performed perform t := by
  induction p generalizing s with
  | done a =>
    obtain ⟨hvalue, rfl⟩ := Prod.mk.inj h
    cases hvalue
    rfl
  | fail =>
    obtain ⟨hvalue, -⟩ := Prod.mk.inj h
    cases hvalue
  | ask q next ih => exact ih _ h

end
end Redskilled.Foundation.Dialogue
