import Mathlib.Data.List.Basic

/-!
# Programs that ask

A program asks one question after the other, and goes on with the answer it is given. A
question may throw instead, and what is thrown ends the program unless it is caught. A
run is told by the questions with their answers, and may stop at any question.

A world goes along with the questions and answers. `Ensures` says what holds of it where the
program returns; `AtMost` bounds how often it asks.
-/
namespace Redskilled.Foundation

inductive Dialogue (Q : Type) (A : Q → Type) (α : Type) where
  | done (value : α)
  | fail
  /-- `none` is a question that throws. -/
  | ask (q : Q) (next : Option (A q) → Dialogue Q A α)

structure Exchange (Q : Type) (A : Q → Type) where
  question : Q
  answer : Option (A question)

inductive Outcome (α : Type) where
  | returned (value : α)
  | failed
  | waiting

namespace Dialogue
variable {Q : Type} {A : Q → Type} {α β : Type}

def bind (p : Dialogue Q A α) (f : α → Dialogue Q A β) : Dialogue Q A β :=
  match p with
  | .done value => f value
  | .fail => .fail
  | .ask q next => .ask q fun answer => (next answer).bind f

instance : Monad (Dialogue Q A) where
  pure := .done
  bind := bind

/-- Ask, and throw what the question throws. -/
def need (q : Q) : Dialogue Q A (A q) :=
  .ask q fun answer =>
    match answer with
    | some a => .done a
    | none => .fail

/-- Ask, and catch what the question throws. -/
def attempt (q : Q) : Dialogue Q A (Option (A q)) := .ask q .done

/-- The program, with what it throws caught. -/
def caught : Dialogue Q A α → Dialogue Q A (Option α)
  | .done value => .done (some value)
  | .fail => .done none
  | .ask q next => .ask q fun answer => (next answer).caught

/-- A run of the program, up to its end or to a question. -/
inductive Run : Dialogue Q A α → List (Exchange Q A) → Outcome α → Prop
  | stop (p : Dialogue Q A α) : Run p [] .waiting
  | done (value : α) : Run (.done value) [] (.returned value)
  | fail : Run .fail [] .failed
  | ask {q : Q} {next : Option (A q) → Dialogue Q A α} {answer : Option (A q)}
      {trace : List (Exchange Q A)} {outcome : Outcome α} :
      Run (next answer) trace outcome → Run (.ask q next) (⟨q, answer⟩ :: trace) outcome

/-- The run that the answers of a list give, none where one answers another question. -/
def replay [DecidableEq Q] : Dialogue Q A α → List (Exchange Q A) → Option (Outcome α)
  | .done value, [] => some (.returned value)
  | .fail, [] => some .failed
  | .ask _ _, [] => some .waiting
  | .ask q next, e :: trace =>
    if h : e.question = q then (next (h ▸ e.answer)).replay trace else none
  | _, _ :: _ => none

variable {outcome : Outcome β} {p : Dialogue Q A α} {trace : List (Exchange Q A)}

lemma run_of_replay [DecidableEq Q]
    {outcome : Outcome α} (h : p.replay trace = some outcome) : Run p trace outcome := by
  induction p generalizing trace with
  | done value =>
    cases trace with
    | nil =>
      cases h
      exact .done value
    | cons e trace => cases h
  | fail =>
    cases trace with
    | nil =>
      cases h
      exact .fail
    | cons e trace => cases h
  | ask q next ih =>
    cases trace with
    | nil =>
      cases h
      exact .stop _
    | cons e trace =>
      obtain ⟨question, answer⟩ := e
      simp only [replay] at h
      split_ifs at h with hq
      subst hq
      exact .ask (ih answer h)

lemma Run.bind_cases {f : α → Dialogue Q A β} (h : Run (p >>= f) trace outcome) :
    (∃ value first rest, trace = first ++ rest ∧ Run p first (.returned value) ∧
        Run (f value) rest outcome) ∨
      ∃ before, Run p trace before := by
  induction p generalizing trace with
  | done value => exact .inl ⟨value, [], trace, rfl, .done value, h⟩
  | fail =>
    cases h with
    | stop => exact .inr ⟨_, .stop _⟩
    | fail => exact .inr ⟨_, .fail⟩
  | ask q next ih =>
    cases h with
    | stop => exact .inr ⟨_, .stop _⟩
    | ask hrest =>
      rcases ih _ hrest with ⟨value, first, rest, rfl, hfirst, hrun⟩ | ⟨before, hrun⟩
      · exact .inl ⟨value, _ :: first, rest, rfl, .ask hfirst, hrun⟩
      · exact .inr ⟨before, .ask hrun⟩

lemma Run.bind_returned {f : α → Dialogue Q A β}
    {value : β} (h : Run (p >>= f) trace (.returned value)) :
    ∃ a first rest, trace = first ++ rest ∧ Run p first (.returned a) ∧
      Run (f a) rest (.returned value) := by
  induction p generalizing trace with
  | done a => exact ⟨a, [], trace, rfl, .done a, h⟩
  | fail => cases h
  | ask q next ih =>
    cases h with
    | ask hrest =>
      obtain ⟨a, first, rest, rfl, hfirst, hrun⟩ := ih _ hrest
      exact ⟨a, _ :: first, rest, rfl, .ask hfirst, hrun⟩

lemma Run.need_cases {q : Q} {f : A q → Dialogue Q A β} (h : Run (need q >>= f) trace outcome) :
    trace = [] ∨ trace = [⟨q, none⟩] ∨
      ∃ a rest, trace = ⟨q, some a⟩ :: rest ∧ Run (f a) rest outcome := by
  cases h with
  | stop => exact .inl rfl
  | @ask _ _ answer rest _ hrest =>
    cases answer with
    | none =>
      have hnil : rest = [] := by cases hrest <;> rfl
      exact .inr (.inl (by rw [hnil]))
    | some a => exact .inr (.inr ⟨a, rest, rfl, hrest⟩)

lemma Run.need_ends {q : Q} {f : A q → Dialogue Q A β} (h : Run (need q >>= f) trace outcome) :
    (trace = [] ∧ outcome = .waiting) ∨
      (trace = [⟨q, none⟩] ∧ (outcome = .waiting ∨ outcome = .failed)) ∨
      ∃ a rest, trace = ⟨q, some a⟩ :: rest ∧ Run (f a) rest outcome := by
  cases h with
  | stop => exact .inl ⟨rfl, rfl⟩
  | @ask _ _ answer rest _ hrest =>
    cases answer with
    | some a => exact .inr (.inr ⟨a, rest, rfl, hrest⟩)
    | none =>
      right
      left
      cases hrest with
      | stop => exact ⟨rfl, .inl rfl⟩
      | fail => exact ⟨rfl, .inr rfl⟩

section
variable (answers : ∀ q, Option (A q))

/-- The run in which a table gives every answer. -/
def told : Dialogue Q A α → List (Exchange Q A) × Outcome α
  | .done value => ([], .returned value)
  | .fail => ([], .failed)
  | .ask q next => (⟨q, answers q⟩ :: (next (answers q)).told.1, (next (answers q)).told.2)

lemma run_told (p : Dialogue Q A α) : Run p (p.told answers).1 (p.told answers).2 := by
  induction p with
  | done value => exact .done value
  | fail => exact .fail
  | ask q next ih => exact .ask (ih _)

variable {answers}

lemma told_bind {p : Dialogue Q A α} {f : α → Dialogue Q A β} {value : α}
    {trace : List (Exchange Q A)} (h : p.told answers = (trace, .returned value)) :
    (p >>= f).told answers = (trace ++ ((f value).told answers).1, ((f value).told answers).2) := by
  change (p.bind f).told answers = _
  induction p generalizing trace with
  | done a =>
    obtain ⟨rfl, hvalue⟩ := Prod.mk.inj h
    cases hvalue
    rfl
  | fail =>
    obtain ⟨-, hvalue⟩ := Prod.mk.inj h
    cases hvalue
  | ask q next ih =>
    obtain ⟨rfl, hvalue⟩ := Prod.mk.inj h
    have hrest := ih (answers q) (Prod.ext rfl hvalue)
    simp only [Dialogue.bind, told]
    rw [hrest]
    rfl

lemma told_need {q : Q} {a : A q} {f : A q → Dialogue Q A β} (h : answers q = some a) :
    (need q >>= f).told answers =
      (⟨q, some a⟩ :: ((f a).told answers).1, ((f a).told answers).2) := by
  change ((need q).bind f).told answers = _
  simp only [need, Dialogue.bind, told, h]

lemma mem_told {p : Dialogue Q A α} {e : Exchange Q A} (h : e ∈ (p.told answers).1) :
    e.answer = answers e.question := by
  induction p with
  | done value => exact absurd h List.not_mem_nil
  | fail => exact absurd h List.not_mem_nil
  | ask q next ih =>
    rcases List.mem_cons.mp h with rfl | hrest
    · rfl
    · exact ih _ hrest

end

section
variable {σ : Type*} (steps : σ → Exchange Q A → σ → Prop)

inductive Leads : σ → List (Exchange Q A) → σ → Prop
  | nil (s : σ) : Leads s [] s
  | cons {s t u : σ} {e : Exchange Q A} {trace : List (Exchange Q A)} :
      steps s e t → Leads t trace u → Leads s (e :: trace) u

/-- Where the program returns, `post` holds of the value and of the world. -/
def Ensures (post : α → σ → Prop) : Dialogue Q A α → σ → Prop
  | .done value, s => post value s
  | .fail, _ => True
  | .ask q next, s => ∀ answer t, steps s ⟨q, answer⟩ t → (next answer).Ensures post t

variable {steps} {post : α → σ → Prop} {s t : σ}

variable {p : Dialogue Q A α}

lemma Ensures.mono {post' : α → σ → Prop} (h : p.Ensures steps post s)
    (himp : ∀ value s, post value s → post' value s) : p.Ensures steps post' s := by
  induction p generalizing s with
  | done value => exact himp _ _ h
  | fail => trivial
  | ask q next ih => exact fun answer t hstep => ih answer (h answer t hstep)

lemma Ensures.bind {f : α → Dialogue Q A β} {post : β → σ → Prop}
    (h : p.Ensures steps (fun value => (f value).Ensures steps post) s) :
    (p >>= f).Ensures steps post s := by
  induction p generalizing s with
  | done value => exact h
  | fail => trivial
  | ask q next ih => exact fun answer t hstep => ih answer (h answer t hstep)

lemma Ensures.seq {f : α → Dialogue Q A β} {post : β → σ → Prop}
    {middle : α → σ → Prop} (h : p.Ensures steps middle s)
    (hnext : ∀ value t, middle value t → (f value).Ensures steps post t) :
    (p >>= f).Ensures steps post s :=
  (h.mono hnext).bind

lemma ensures_need {q : Q} {post : A q → σ → Prop} (h : ∀ a t, steps s ⟨q, some a⟩ t → post a t) :
    (need q : Dialogue Q A (A q)).Ensures steps post s := by
  intro answer t hstep
  cases answer with
  | none => trivial
  | some a => exact h a t hstep

lemma ensures_asked {q : Q} {f : A q → Dialogue Q A β} {post : β → σ → Prop}
    (h : ∀ a t, steps s ⟨q, some a⟩ t → (f a).Ensures steps post t) :
    (need q >>= f).Ensures steps post s :=
  (ensures_need h).bind

lemma Ensures.run (h : p.Ensures steps post s)
    {trace : List (Exchange Q A)} {value : α} (hrun : Run p trace (.returned value))
    (hleads : Leads steps s trace t) : post value t := by
  induction p generalizing s trace with
  | done a =>
    cases hrun
    cases hleads
    exact h
  | fail => cases hrun
  | ask q next ih =>
    cases hrun with
    | ask hrest =>
      cases hleads with
      | cons hstep hlat => exact ih _ (h _ _ hstep) hrest hlat

end

section
variable (counts : Q → Bool)

/-- No run asks more than `n` of the questions that count. -/
def AtMost : Dialogue Q A α → ℕ → Prop
  | .done _, _ => True
  | .fail, _ => True
  | .ask q next, n =>
    if counts q then 0 < n ∧ ∀ answer, (next answer).AtMost (n - 1)
    else ∀ answer, (next answer).AtMost n

variable {counts} {n m : ℕ}

variable {p : Dialogue Q A α}

lemma AtMost.mono (h : p.AtMost counts n) (hle : n ≤ m) : p.AtMost counts m := by
  induction p generalizing n m with
  | done value => trivial
  | fail => trivial
  | ask q next ih =>
    simp only [AtMost] at h ⊢
    split_ifs at h ⊢
    · exact ⟨by omega, fun answer => ih answer (h.2 answer) (by omega)⟩
    · exact fun answer => ih answer (h answer) hle

lemma AtMost.bind {f : α → Dialogue Q A β} (h : p.AtMost counts n)
    (hf : ∀ value, (f value).AtMost counts m) : (p >>= f).AtMost counts (n + m) := by
  change (p.bind f).AtMost counts (n + m)
  induction p generalizing n with
  | done value => exact (hf value).mono (by omega)
  | fail => trivial
  | ask q next ih =>
    simp only [AtMost, Dialogue.bind] at h ⊢
    split_ifs at h ⊢
    · refine ⟨by omega, fun answer => ?_⟩
      rw [show n + m - 1 = n - 1 + m by omega]
      exact ih answer (h.2 answer)
    · exact fun answer => ih answer (h answer)

lemma atMost_pure (value : α) (n : ℕ) : (pure value : Dialogue Q A α).AtMost counts n := trivial

lemma atMost_need (q : Q) :
    (need q : Dialogue Q A (A q)).AtMost counts (if counts q then 1 else 0) := by
  simp only [need, AtMost]
  split_ifs
  · refine ⟨Nat.zero_lt_one, fun answer => ?_⟩
    cases answer <;> trivial
  · intro answer
    cases answer <;> trivial

lemma atMost_attempt (q : Q) :
    (attempt q : Dialogue Q A (Option (A q))).AtMost counts (if counts q then 1 else 0) := by
  simp only [attempt, AtMost]
  split_ifs
  · exact ⟨Nat.zero_lt_one, fun answer => trivial⟩
  · exact fun answer => trivial

lemma AtMost.run (h : p.AtMost counts n) {trace : List (Exchange Q A)}
    {outcome : Outcome α} (hrun : Run p trace outcome) :
    trace.countP (fun e => counts e.question) ≤ n := by
  induction hrun generalizing n with
  | stop p => simp
  | done value => simp
  | fail => simp
  | @ask q next answer trace outcome _ ih =>
    rw [List.countP_cons]
    simp only [AtMost] at h
    split_ifs at h ⊢
    · have hrest := ih (h.2 _)
      omega
    · exact ih (h _)

end
end Dialogue
end Redskilled.Foundation
