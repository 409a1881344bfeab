import Mathlib.Data.List.Induction
import Mathlib.Data.List.Nodup
import Redskilled.Foundation.Machine
import Redskilled.Foundation.SoleOwner

/-!
# A file behind a lock file

Calls in any number of processes change the content of one file. A call creates a lock file
exclusively, which it tries a number of times, reads the file, writes what it made of the
content to a temporary file, renames that over the file, and closes and removes the lock
file. Each operation on the files is a step and may fail. A read that fails is taken for a
file that is not there.
-/
namespace Redskilled.Foundation.LockedFile
open List Option Function

/-- What the calls make of the content, with the draws of the moment; `none` is a throw. -/
structure Store (σ ρ δ : Type*) where
  /-- The content for a file that is not there. -/
  initial : ρ → δ → Option σ
  apply : ρ → δ → σ → Option σ
  /-- How often the lock file is tried. -/
  attempts : ℕ

structure Commit (σ ρ δ : Type*) where
  call : ℕ
  request : ρ
  draw : δ
  base : σ
  next : σ

/-- Where a call stands. -/
inductive Phase (σ ρ δ : Type*) where
  | making
  | opening (attempt : ℕ)
  | reading
  | writing (draft : Commit σ ρ δ)
  | renaming (draft : Commit σ ρ δ)
  | closing (committed : Bool)
  | removing (committed : Bool)
  | returned
  | rejected

structure Call (σ ρ δ : Type*) where
  request : ρ
  phase : Phase σ ρ δ

structure State (σ ρ δ : Type*) where
  file : Option σ
  /-- The call that created the lock file, while there is one. -/
  lock : Option ℕ
  calls : ℕ → Option (Call σ ρ δ)
  commits : List (Commit σ ρ δ)

inductive Step (ρ δ : Type*) where
  | call (call : ℕ) (request : ρ)
  | mkdir (call : ℕ) (fails : Bool)
  | openLock (call : ℕ) (fails : Bool)
  | read (call : ℕ) (fails : Bool) (draw : δ)
  | write (call : ℕ) (fails : Bool)
  | rename (call : ℕ) (fails : Bool)
  | close (call : ℕ) (fails : Bool)
  | remove (call : ℕ) (fails : Bool)

section
variable {σ ρ δ : Type*} (S : Store σ ρ δ)

namespace State
variable (g : State σ ρ δ)

def goto (i : ℕ) (request : ρ) (phase : Phase σ ρ δ) : State σ ρ δ :=
  { g with calls := Function.update g.calls i (some ⟨request, phase⟩) }

def opened (i : ℕ) (request : ρ) (attempt : ℕ) (fails : Bool) : State σ ρ δ :=
  if fails = false ∧ g.lock = none then { g.goto i request .reading with lock := some i }
  else if attempt + 1 < S.attempts then g.goto i request (.opening (attempt + 1))
  else g.goto i request .rejected

def content (request : ρ) (draw : δ) (fails : Bool) : Option σ :=
  match if fails then none else g.file with
  | some content => some content
  | none => S.initial request draw

def drafted (i : ℕ) (request : ρ) (draw : δ) (fails : Bool) : Phase σ ρ δ :=
  match g.content S request draw fails with
  | none => .closing false
  | some base =>
    match S.apply request draw base with
    | none => .closing false
    | some next => .writing ⟨i, request, draw, base, next⟩

def renamed (i : ℕ) (request : ρ) (draft : Commit σ ρ δ) : State σ ρ δ :=
  { g.goto i request (.closing true) with
    file := some draft.next
    commits := g.commits ++ [draft] }

def removed (i : ℕ) (request : ρ) (committed : Bool) : State σ ρ δ :=
  { g.goto i request (if committed then .returned else .rejected) with lock := none }

def next : Step ρ δ → Option (State σ ρ δ)
  | .call i request => if (g.calls i).isNone then some (g.goto i request .making) else none
  | .mkdir i fails =>
    match g.calls i with
    | some ⟨request, .making⟩ => some (g.goto i request (if fails then .rejected else .opening 0))
    | _ => none
  | .openLock i fails =>
    match g.calls i with
    | some ⟨request, .opening attempt⟩ => some (g.opened S i request attempt fails)
    | _ => none
  | .read i fails draw =>
    match g.calls i with
    | some ⟨request, .reading⟩ => some (g.goto i request (g.drafted S i request draw fails))
    | _ => none
  | .write i fails =>
    match g.calls i with
    | some ⟨request, .writing draft⟩ =>
      some (g.goto i request (if fails then .closing false else .renaming draft))
    | _ => none
  | .rename i fails =>
    match g.calls i with
    | some ⟨request, .renaming draft⟩ =>
      some (if fails then g.goto i request (.closing false) else g.renamed i request draft)
    | _ => none
  | .close i fails =>
    match g.calls i with
    | some ⟨request, .closing committed⟩ =>
      some (g.goto i request (if fails then .rejected else .removing committed))
    | _ => none
  | .remove i fails =>
    match g.calls i with
    | some ⟨request, .removing committed⟩ =>
      some (if fails then g.goto i request .rejected else g.removed i request committed)
    | _ => none

end State

def machine : Machine (State σ ρ δ) (Step ρ δ) where
  start g := g.lock = none ∧ (∀ i, g.calls i = none) ∧ g.commits = []
  next g := g.next S

def contentAfter (origin : Option σ) (commits : List (Commit σ ρ δ)) : Option σ :=
  (commits.getLast?.map Commit.next).or origin

/-- A change of the content that the changes before it left. -/
structure Follows (origin : Option σ) (commits : List (Commit σ ρ δ)) (c : Commit σ ρ δ) :
    Prop where
  base : (contentAfter origin commits).or (S.initial c.request c.draw) = some c.base
  next : S.apply c.request c.draw c.base = some c.next

inductive Serial (origin : Option σ) : List (Commit σ ρ δ) → Prop
  | nil : Serial origin []
  | snoc {commits : List (Commit σ ρ δ)} {c : Commit σ ρ δ} :
      Serial origin commits → Follows S origin commits c → Serial origin (commits ++ [c])

variable {S} {origin : Option σ} {commits : List (Commit σ ρ δ)} {c : Commit σ ρ δ}

@[simp] lemma contentAfter_nil : contentAfter origin ([] : List (Commit σ ρ δ)) = origin := rfl

@[simp] lemma contentAfter_snoc : contentAfter origin (commits ++ [c]) = some c.next := by
  simp [contentAfter]

lemma Serial.split (h : Serial S origin commits) {before after : List (Commit σ ρ δ)}
    (hspl : commits = before ++ c :: after) :
    Serial S origin before ∧ Follows S origin before c := by
  induction h generalizing after with
  | nil => simp at hspl
  | @snoc commits last hser hfoll ih =>
    rcases eq_nil_or_concat after with rfl | ⟨rest, e, rfl⟩
    · obtain ⟨rfl, hlast⟩ := append_inj' hspl rfl
      obtain rfl := singleton_inj.mp hlast
      exact ⟨hser, hfoll⟩
    · rw [concat_eq_append, ← cons_append, ← append_assoc] at hspl
      exact ih (append_inj' hspl rfl).1

lemma Serial.persists {I : σ → Prop} {except : ρ → Prop}
    (hstep : ∀ request draw s s', S.apply request draw s = some s' → I s → except request ∨ I s')
    {before after : List (Commit σ ρ δ)} (h : Serial S origin (before ++ c :: after))
    (hc : I c.next) :
    (∃ c' ∈ after, except c'.request) ∨
      ∃ s, contentAfter origin (before ++ c :: after) = some s ∧ I s := by
  induction after using reverseRecOn with
  | nil => exact .inr ⟨c.next, contentAfter_snoc, hc⟩
  | append_singleton after last ih =>
    have hspl : before ++ c :: (after ++ [last]) = (before ++ c :: after) ++ last :: [] := by
      simp
    obtain ⟨hfront, hfoll⟩ := h.split hspl
    rcases ih hfront with ⟨c', hc', hexc⟩ | ⟨s, hs, hI⟩
    · exact .inl ⟨c', by simp [hc'], hexc⟩
    · have hbase := hfoll.base
      rw [hs, some_or, some.injEq] at hbase
      subst hbase
      rcases hstep _ _ _ _ hfoll.next hI with hexc | hnext
      · exact .inl ⟨last, by simp, hexc⟩
      · refine .inr ⟨last.next, ?_, hnext⟩
        rw [hspl]
        exact contentAfter_snoc

def Phase.inside : Phase σ ρ δ → Bool
  | .reading => true
  | .writing _ => true
  | .renaming _ => true
  | .closing _ => true
  | .removing _ => true
  | _ => false

def Phase.draft : Phase σ ρ δ → Option (Commit σ ρ δ)
  | .writing draft => some draft
  | .renaming draft => some draft
  | _ => none

lemma Phase.inside_of_draft {phase : Phase σ ρ δ} {draft : Commit σ ρ δ}
    (h : phase.draft = some draft) : phase.inside = true := by
  unfold Phase.draft at h
  split at h
  · rfl
  · rfl
  · cases h

def Phase.committed : Phase σ ρ δ → Bool
  | .closing committed => committed
  | .removing committed => committed
  | .returned => true
  | _ => false

def isInside (call : Option (Call σ ρ δ)) : Bool := call.any fun call => call.phase.inside

/-- A read that fails where there is a file leads to a throw. -/
def Harmless (S : Store σ ρ δ) (g : State σ ρ δ) (i : ℕ) (draw : δ) : Prop :=
  g.file = none ∨ ∀ request, g.calls i = some ⟨request, .reading⟩ →
    ∀ base, S.initial request draw = some base → S.apply request draw base = none

/-- No change is in place of a call that fails now. -/
def Uncommitted (g : State σ ρ δ) (i : ℕ) : Prop :=
  ∀ call, g.calls i = some call → call.phase.committed = false

/-- Reads that fail are harmless, and the lock file of a change in place goes away. -/
def Reads (S : Store σ ρ δ) (g : State σ ρ δ) : Step ρ δ → Prop
  | .read i true draw => Harmless S g i draw
  | .close i true => Uncommitted g i
  | .remove i true => Uncommitted g i
  | _ => True

def Step.fails : Step ρ δ → Bool
  | .call _ _ => false
  | .mkdir _ fails => fails
  | .openLock _ fails => fails
  | .read _ fails _ => fails
  | .write _ fails => fails
  | .rename _ fails => fails
  | .close _ fails => fails
  | .remove _ fails => fails

lemma reads_of_not_fails {g : State σ ρ δ} {a : Step ρ δ} (h : a.fails = false) : Reads S g a := by
  cases a with
  | read i fails draw =>
    obtain rfl : fails = false := h
    trivial
  | close i fails =>
    obtain rfl : fails = false := h
    trivial
  | remove i fails =>
    obtain rfl : fails = false := h
    trivial
  | _ => trivial

structure Inv (S : Store σ ρ δ) (origin : Option σ) (g : State σ ρ δ) : Prop where
  lock : Backed g.lock (fun a p => a = p) (insiders isInside g.calls)
  serial : Serial S origin g.commits
  file : g.file = contentAfter origin g.commits
  drafts : ∀ i call draft, g.calls i = some call → call.phase.draft = some draft →
    draft.call = i ∧ draft.request = call.request ∧ Follows S origin g.commits draft
  settled : ∀ c ∈ g.commits, ∃ call, g.calls c.call = some call ∧ c.request = call.request ∧
    call.phase.committed = true
  committed : ∀ i call, g.calls i = some call → call.phase.committed = true →
    ∃ c ∈ g.commits, c.call = i
  single : (g.commits.map Commit.call).Nodup

section
variable {g : State σ ρ δ} {i : ℕ} {request : ρ} {phase phase' : Phase σ ρ δ}

lemma calls_update {calls : ℕ → Option (Call σ ρ δ)} {call found : Call σ ρ δ} {j : ℕ}
    (h : Function.update calls i (some call) j = some found) :
    j = i ∧ found = call ∨ j ≠ i ∧ calls j = some found := by
  by_cases hj : j = i
  · subst hj
    rw [update_self] at h
    exact .inl ⟨rfl, (some.inj h).symm⟩
  · rw [update_of_ne hj] at h
    exact .inr ⟨hj, h⟩

lemma Inv.locked (h : Inv S origin g) (hcall : g.calls i = some ⟨request, phase⟩)
    (hins : phase.inside = true) : g.lock = some i := by
  have hin : i ∈ insiders isInside g.calls := by
    rw [mem_insiders, hcall]
    exact hins
  obtain ⟨a, ha, rfl⟩ := h.lock i hin
  exact ha

lemma Inv.moved (h : Inv S origin g) {lock : Option ℕ}
    (hcall : ∀ call, g.calls i = some call → call.request = request)
    (hlock : Backed lock (fun a p => a = p)
      (insiders isInside (Function.update g.calls i (some ⟨request, phase'⟩))))
    (hdraft : ∀ draft, phase'.draft = some draft →
      draft.call = i ∧ draft.request = request ∧ Follows S origin g.commits draft)
    (hsame : phase'.committed = true ↔ ∃ call, g.calls i = some call ∧
      call.phase.committed = true) :
    Inv S origin { g.goto i request phase' with lock := lock } where
  lock := hlock
  serial := h.serial
  file := h.file
  drafts := by
    intro j call draft hj hdraft'
    rcases calls_update hj with ⟨rfl, rfl⟩ | ⟨-, hold⟩
    · exact hdraft draft hdraft'
    · exact h.drafts j call draft hold hdraft'
  settled := by
    intro c hc
    obtain ⟨call, hold, hreq, hcomm⟩ := h.settled c hc
    by_cases hi : c.call = i
    · refine ⟨⟨request, phase'⟩, ?_, ?_, ?_⟩
      · change Function.update _ _ _ _ = _
        rw [hi, Function.update_self]
      · rw [hi] at hold
        exact hreq.trans (hcall call hold)
      · exact hsame.mpr ⟨call, hi ▸ hold, hcomm⟩
    · refine ⟨call, ?_, hreq, hcomm⟩
      change Function.update _ _ _ _ = _
      rw [Function.update_of_ne hi]
      exact hold
  committed := by
    intro j call hj hcomm
    rcases calls_update hj with ⟨rfl, rfl⟩ | ⟨-, hold⟩
    · obtain ⟨old, hold, hold'⟩ := hsame.mp hcomm
      exact h.committed j old hold hold'
    · exact h.committed j call hold hcomm
  single := h.single

lemma Inv.goto (h : Inv S origin g) (hcall : g.calls i = some ⟨request, phase⟩)
    (hins : phase'.inside = true → phase.inside = true)
    (hdraft : ∀ draft, phase'.draft = some draft →
      draft.call = i ∧ draft.request = request ∧ Follows S origin g.commits draft)
    (hsame : phase'.committed = phase.committed) : Inv S origin (g.goto i request phase') := by
  refine @Inv.moved σ ρ δ S origin g i request phase' h g.lock ?_ ?_ hdraft ?_
  · intro call hcall'
    rw [hcall, some.injEq] at hcall'
    rw [← hcall']
  · apply h.lock.stay
    intro hin
    rw [hcall]
    exact hins hin
  · rw [hsame]
    constructor
    · exact fun hcomm => ⟨_, hcall, hcomm⟩
    · rintro ⟨call, hcall', hcomm⟩
      rw [hcall, some.injEq] at hcall'
      rw [← hcall'] at hcomm
      exact hcomm

lemma Inv.leave (h : Inv S origin g) (hcall : g.calls i = some ⟨request, phase⟩)
    (hins : phase.inside = true) (hout : phase'.inside = false) (hdraft : phase'.draft = none)
    (hsame : phase'.committed = phase.committed) :
    Inv S origin { g.goto i request phase' with lock := none } := by
  refine @Inv.moved σ ρ δ S origin g i request phase' h none ?_ ?_ ?_ ?_
  · intro call hcall'
    rw [hcall, some.injEq] at hcall'
    rw [← hcall']
  · refine Backed.clear ?_ hout
    intro j hj
    obtain ⟨a, ha, rfl⟩ := h.lock j hj
    rw [h.locked hcall hins] at ha
    exact (some.inj ha).symm
  · intro draft hsome
    rw [hdraft] at hsome
    cases hsome
  · rw [hsame]
    constructor
    · exact fun hcomm => ⟨_, hcall, hcomm⟩
    · rintro ⟨call, hcall', hcomm⟩
      rw [hcall, some.injEq] at hcall'
      rw [← hcall'] at hcomm
      exact hcomm

lemma Inv.opened (h : Inv S origin g) {attempt : ℕ}
    (hcall : g.calls i = some ⟨request, .opening attempt⟩) (fails : Bool) :
    Inv S origin (g.opened S i request attempt fails) := by
  rw [State.opened]
  split_ifs with hopen hagain
  · have hnone : Backed none (fun a p => a = p) (insiders isInside g.calls) := hopen.2 ▸ h.lock
    refine @Inv.moved σ ρ δ S origin g i request .reading h (some i) ?_ (hnone.enter rfl) ?_ ?_
    · intro call hcall'
      rw [hcall, some.injEq] at hcall'
      rw [← hcall']
    · intro draft hdraft
      cases hdraft
    · constructor
      · intro hno
        cases hno
      · rintro ⟨call, hcall', hcomm⟩
        rw [hcall, some.injEq] at hcall'
        rw [← hcall'] at hcomm
        cases hcomm
  · apply h.goto hcall
    · intro hno
      cases hno
    · intro draft hdraft
      cases hdraft
    · rfl
  · apply h.goto hcall
    · intro hno
      cases hno
    · intro draft hdraft
      cases hdraft
    · rfl

lemma Inv.drafted (h : Inv S origin g) (hcall : g.calls i = some ⟨request, .reading⟩)
    {draw : δ} {fails : Bool} (hreads : fails = true → Harmless S g i draw)
    {draft : Commit σ ρ δ}
    (hdraft : (g.drafted S i request draw fails).draft = some draft) :
    draft.call = i ∧ draft.request = request ∧ Follows S origin g.commits draft := by
  rw [State.drafted] at hdraft
  cases hcont : g.content S request draw fails with
  | none =>
    rw [hcont] at hdraft
    cases hdraft
  | some base =>
    cases hnext : S.apply request draw base with
    | none =>
      simp only [hcont, hnext] at hdraft
      cases hdraft
    | some next =>
      simp only [hcont, hnext] at hdraft
      cases hdraft
      refine ⟨rfl, rfl, ?_, hnext⟩
      rw [← h.file]
      cases hfails : fails with
      | false =>
        rw [State.content, hfails] at hcont
        cases hfile : g.file with
        | none =>
          rw [hfile] at hcont
          exact hcont
        | some content =>
          rw [hfile] at hcont
          exact hcont
      | true =>
        rw [State.content, hfails] at hcont
        rcases hreads hfails with hnone | hthr
        · rw [hnone]
          exact hcont
        · rw [hthr request hcall base hcont] at hnext
          cases hnext

lemma drafted_cases (g : State σ ρ δ) (i : ℕ) (request : ρ) (draw : δ) (fails : Bool) :
    (g.drafted S i request draw fails).committed = false := by
  rw [State.drafted]
  split
  · rfl
  · split <;> rfl

lemma Inv.renamed (h : Inv S origin g) {draft : Commit σ ρ δ}
    (hcall : g.calls i = some ⟨request, .renaming draft⟩) :
    Inv S origin (g.renamed i request draft) := by
  obtain ⟨hown, hreq, hfoll⟩ := h.drafts i _ draft hcall rfl
  have honly : ∀ j call, g.calls j = some call → call.phase.inside = true → j = i := by
    intro j call hj hins
    have hlocked := h.locked hj hins
    rw [h.locked hcall rfl] at hlocked
    exact (some.inj hlocked).symm
  have hnew : ∀ c ∈ g.commits, c.call ≠ i := by
    intro c hc hi
    obtain ⟨call, hold, -, hcomm⟩ := h.settled c hc
    rw [hi, hcall, some.injEq] at hold
    rw [← hold] at hcomm
    cases hcomm
  constructor
  · apply h.lock.stay
    intro _
    rw [hcall]
    rfl
  · exact .snoc h.serial hfoll
  · exact contentAfter_snoc.symm
  · intro j call other hj hoth
    rcases calls_update hj with ⟨rfl, rfl⟩ | ⟨hne, hold⟩
    · cases hoth
    · exact absurd (honly j call hold (Phase.inside_of_draft hoth)) hne
  · intro c hc
    rcases mem_append.mp hc with hold | hlast
    · obtain ⟨call, hcall', hrest⟩ := h.settled c hold
      refine ⟨call, ?_, hrest⟩
      change update _ _ _ _ = _
      rw [update_of_ne (hnew c hold)]
      exact hcall'
    · obtain rfl := mem_singleton.mp hlast
      refine ⟨⟨request, .closing true⟩, ?_, hreq, rfl⟩
      change update _ _ _ _ = _
      rw [hown, update_self]
  · intro j call hj hcomm
    rcases calls_update hj with ⟨rfl, rfl⟩ | ⟨-, hold⟩
    · exact ⟨draft, by simp [State.renamed], hown⟩
    · obtain ⟨c, hc, hcj⟩ := h.committed j call hold hcomm
      exact ⟨c, mem_append_left _ hc, hcj⟩
  · change ((g.commits ++ [draft]).map Commit.call).Nodup
    rw [map_append, nodup_append]
    refine ⟨h.single, nodup_singleton _, ?_⟩
    intro a ha b hb
    obtain ⟨c, hc, rfl⟩ := mem_map.mp ha
    obtain rfl := mem_singleton.mp hb
    rw [hown]
    exact hnew c hc

lemma Inv.called (h : Inv S origin g) (hnone : g.calls i = none) (request : ρ) :
    Inv S origin (g.goto i request .making) := by
  refine @Inv.moved σ ρ δ S origin g i request .making h g.lock ?_ ?_ ?_ ?_
  · intro call hcall
    rw [hnone] at hcall
    cases hcall
  · apply h.lock.stay
    intro hin
    cases hin
  · intro draft hdraft
    cases hdraft
  · constructor
    · intro hno
      cases hno
    · rintro ⟨call, hcall, -⟩
      rw [hnone] at hcall
      cases hcall

lemma Inv.reject (h : Inv S origin g) (hcall : g.calls i = some ⟨request, phase⟩)
    (hopen : phase.committed = false) : Inv S origin (g.goto i request .rejected) := by
  apply h.goto hcall
  · intro hno
    cases hno
  · intro draft hdraft
    cases hdraft
  · exact hopen.symm

lemma Inv.step {g' : State σ ρ δ} {a : Step ρ δ} (h : Inv S origin g) (hreads : Reads S g a)
    (hnext : g.next S a = some g') : Inv S origin g' := by
  cases a with
  | call i request =>
    simp only [State.next] at hnext
    split_ifs at hnext with hnone
    cases hnext
    exact h.called (isNone_iff_eq_none.mp hnone) request
  | mkdir i fails =>
    simp only [State.next] at hnext
    split at hnext
    · next request hcall =>
      cases hnext
      apply h.goto hcall
      · intro hno
        split_ifs at hno <;> cases hno
      · intro draft hdraft
        split_ifs at hdraft <;> cases hdraft
      · split_ifs <;> rfl
    · cases hnext
  | openLock i fails =>
    simp only [State.next] at hnext
    split at hnext
    · next request attempt hcall =>
      cases hnext
      exact h.opened hcall fails
    · cases hnext
  | read i fails draw =>
    simp only [State.next] at hnext
    split at hnext
    · next request hcall =>
      cases hnext
      apply h.goto hcall
      · exact fun _ => rfl
      · intro draft hdraft
        apply h.drafted hcall _ hdraft
        intro hfails
        rw [hfails] at hreads
        exact hreads
      · exact drafted_cases g i request draw fails
    · cases hnext
  | write i fails =>
    simp only [State.next] at hnext
    split at hnext
    · next request draft hcall =>
      cases hnext
      apply h.goto hcall
      · exact fun _ => rfl
      · intro other hoth
        split_ifs at hoth
        · cases hoth
        · cases hoth
          exact h.drafts i _ draft hcall rfl
      · split_ifs <;> rfl
    · cases hnext
  | rename i fails =>
    simp only [State.next] at hnext
    split at hnext
    · next request draft hcall =>
      cases hnext
      split_ifs
      · apply h.goto hcall
        · exact fun _ => rfl
        · intro other hoth
          cases hoth
        · rfl
      · exact h.renamed hcall
    · cases hnext
  | close i fails =>
    simp only [State.next] at hnext
    split at hnext
    · next request committed hcall =>
      cases hnext
      cases fails with
      | true => exact h.reject hcall (hreads _ hcall)
      | false =>
        apply h.goto hcall
        · exact fun _ => rfl
        · intro other hoth
          cases hoth
        · rfl
    · cases hnext
  | remove i fails =>
    simp only [State.next] at hnext
    split at hnext
    · next request committed hcall =>
      cases hnext
      cases fails with
      | true => exact h.reject hcall (hreads _ hcall)
      | false =>
        apply h.leave hcall rfl
        · cases committed <;> rfl
        · cases committed <;> rfl
        · cases committed <;> rfl
    · cases hnext

end

lemma inv_of_run {g₀ g : State σ ρ δ} {as : List (Step ρ δ)} (hstart : (machine S).start g₀)
    (hrun : (machine S).Run (Reads S) g₀ as g) : Inv S g₀.file g := by
  obtain ⟨hlock, hcalls, hcommi⟩ := hstart
  have hinit : Inv S g₀.file g₀ := by
    constructor
    · intro i hi
      rw [mem_insiders, hcalls] at hi
      cases hi
    · rw [hcommi]
      exact .nil
    · rw [hcommi]
      rfl
    · intro i call draft hcall
      rw [hcalls] at hcall
      cases hcall
    · intro c hc
      rw [hcommi] at hc
      cases hc
    · intro i call hcall
      rw [hcalls] at hcall
      cases hcall
    · rw [hcommi]
      exact nodup_nil
  exact hrun.inv (Inv S g₀.file) (fun _ _ _ hs hok hnext => hs.step hok hnext) hinit

lemma Inv.rejected {g : State σ ρ δ} (h : Inv S origin g) {i : ℕ} {request : ρ}
    (hcall : g.calls i = some ⟨request, .rejected⟩) : ∀ c ∈ g.commits, c.call ≠ i := by
  intro c hc hi
  obtain ⟨call, hold, -, hcomm⟩ := h.settled c hc
  rw [hi, hcall, some.injEq] at hold
  rw [← hold] at hcomm
  cases hcomm

lemma Inv.returned {g : State σ ρ δ} (h : Inv S origin g) {i : ℕ} {request : ρ}
    (hcall : g.calls i = some ⟨request, .returned⟩) :
    ∃ c ∈ g.commits, c.call = i ∧ c.request = request := by
  obtain ⟨c, hc, hi⟩ := h.committed i _ hcall rfl
  obtain ⟨call, hold, hreq, -⟩ := h.settled c hc
  rw [hi, hcall, some.injEq] at hold
  rw [← hold] at hreq
  exact ⟨c, hc, hi, hreq⟩

end

end Redskilled.Foundation.LockedFile
