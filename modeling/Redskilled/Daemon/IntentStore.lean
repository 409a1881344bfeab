import Mathlib.Data.List.Basic
import Redskilled.Foundation.Machine

/-!
# The registration intent store

The daemon hands each new set of registrations to `replace`, which keeps the last one
pending and has a drain write what is pending until nothing is. One drain is under way
at a time. A caller waits for the tail of the drains and is then told whether the last
of them failed.
-/
namespace Redskilled.Daemon.IntentStore
open Foundation

abbrev Snapshot (ρ : Type*) := ℕ × ρ

inductive Stage (ρ : Type*) where
  | settled
  | queued
  | writing (snapshot : Snapshot ρ)
  /-- The loop is over, and the flag is still set. -/
  | drained
  | threw

/-- A caller that waits for a drain, with the number of sets handed over by then. -/
structure Wait where
  drain : ℕ
  calls : ℕ

/-- A caller was told that all went well, when `disk` was on the disk. -/
structure Answer (ρ : Type*) where
  calls : ℕ
  disk : Option (Snapshot ρ)

structure State (ρ : Type*) where
  replaced : List ρ
  pending : Option (Snapshot ρ)
  draining : Bool
  failure : Bool
  drains : ℕ
  stage : Stage ρ
  /-- `none` is what was there at the start. -/
  disk : Option (Snapshot ρ)
  waits : List Wait
  answers : List (Answer ρ)

variable {ρ : Type*}

namespace State
variable (s : State ρ)

def settled (drain : ℕ) : Prop := drain < s.drains ∨ s.stage = .settled

def loop : State ρ :=
  match s.pending with
  | some next => { s with pending := none, stage := .writing next }
  | none => { s with stage := .drained }

def replace (registrations : ρ) : State ρ :=
  let pending := (s.replaced.length, registrations)
  let s := { s with replaced := s.replaced ++ [registrations], pending := some pending }
  let s :=
    if s.draining then s
    else { s with draining := true, drains := s.drains + 1, stage := .queued }
  { s with waits := s.waits ++ [⟨s.drains, s.replaced.length⟩] }

def flush : State ρ := { s with waits := s.waits ++ [⟨s.drains, s.replaced.length⟩] }

def finish (failed : Bool) : State ρ :=
  { s with failure := failed, draining := false, stage := .settled }

def answer (i : ℕ) (wait : Wait) : State ρ :=
  { s with
    waits := s.waits.eraseIdx i
    answers := if s.failure then s.answers else s.answers ++ [⟨wait.calls, s.disk⟩] }

end State

inductive Step (ρ : Type*) where
  | replace (registrations : ρ)
  | flush
  | drain
  | written
  | writeFailed
  | finish
  | answer (i : ℕ)

def next (s : State ρ) : Step ρ → Option (State ρ)
  | .replace registrations => some (s.replace registrations)
  | .flush => some s.flush
  | .drain =>
    match s.stage with
    | .queued => some s.loop
    | _ => none
  | .written =>
    match s.stage with
    | .writing snapshot => some { s with disk := some snapshot }.loop
    | _ => none
  | .writeFailed =>
    match s.stage with
    | .writing _ => some { s with stage := .threw }
    | _ => none
  | .finish =>
    match s.stage with
    | .drained => some (s.finish false)
    | .threw => some (s.finish true)
    | _ => none
  | .answer i =>
    match s.waits[i]? with
    | none => none
    | some wait =>
      if wait.drain < s.drains then some (s.answer i wait)
      else
        match s.stage with
        | .settled => some (s.answer i wait)
        | _ => none

def fresh : State ρ := ⟨[], none, false, false, 0, .settled, none, [], []⟩

def store : Machine (State ρ) (Step ρ) where
  start s := s = fresh
  next := next

def Covers (replaced : List ρ) (disk : Option (Snapshot ρ)) (calls : ℕ) : Prop :=
  0 < calls → ∃ call registrations, disk = some (call, registrations) ∧ calls ≤ call + 1 ∧
    replaced[call]? = some registrations

def Durable (s : State ρ) : Prop := ∀ a ∈ s.answers, Covers s.replaced a.disk a.calls

/-- No set is handed over between the end of the loop and the callback behind it. -/
def Timely (s : State ρ) : Step ρ → Prop
  | .replace _ => match s.stage with
    | .drained => False
    | _ => True
  | _ => True

instance (s : State ρ) (a : Step ρ) : Decidable (Timely s a) :=
  match a with
  | .replace _ =>
    match h : s.stage with
    | .drained => isFalse fun ht => by simp [Timely, h] at ht
    | .settled | .queued | .writing _ | .threw => isTrue (by simp [Timely, h])
  | .flush | .drain | .written | .writeFailed | .finish | .answer _ => isTrue trivial

structure Inv (s : State ρ) : Prop where
  pending : ∀ call r, s.pending = some (call, r) →
    call + 1 = s.replaced.length ∧ s.replaced[call]? = some r
  writing : ∀ call r, s.stage = .writing (call, r) → s.replaced[call]? = some r ∧
    (s.pending = none → call + 1 = s.replaced.length) ∧
      ∀ old r', s.disk = some (old, r') → old ≤ call
  disk : ∀ call r, s.disk = some (call, r) → s.replaced[call]? = some r
  draining : s.draining = false ↔ s.stage = .settled
  queued : s.stage = .queued → s.pending.isSome
  drained : s.stage = .drained → Covers s.replaced s.disk s.replaced.length
  settled : s.stage = .settled → s.failure = false → Covers s.replaced s.disk s.replaced.length
  waits : ∀ w ∈ s.waits, w.calls ≤ s.replaced.length ∧ w.drain ≤ s.drains ∧
    (s.settled w.drain → s.failure = false → Covers s.replaced s.disk w.calls)
  answers : Durable s

variable {s t : State ρ} {replaced : List ρ} {disk : Option (Snapshot ρ)} {calls : ℕ}

lemma Covers.mono (h : Covers replaced disk calls) {fewer : ℕ} (hle : fewer ≤ calls) :
    Covers replaced disk fewer := by
  intro hpos
  obtain ⟨call, r, hdisk, hcall, hr⟩ := h (by omega)
  exact ⟨call, r, hdisk, by omega, hr⟩

lemma getElem?_concat {call : ℕ} {r : ρ} (h : replaced[call]? = some r) (new : ρ) :
    (replaced ++ [new])[call]? = some r := by
  rw [List.getElem?_append_left (List.getElem?_eq_some_iff.mp h).1]
  exact h

lemma Covers.concat (h : Covers replaced disk calls) (new : ρ) :
    Covers (replaced ++ [new]) disk calls := by
  intro hpos
  obtain ⟨call, r, hdisk, hcall, hr⟩ := h hpos
  exact ⟨call, r, hdisk, hcall, getElem?_concat hr new⟩

lemma Covers.of_zero : Covers replaced disk 0 := by
  intro hpos
  omega

lemma Covers.of_disk {call : ℕ} {r : ρ} (hdisk : disk = some (call, r))
    (hr : replaced[call]? = some r) : Covers replaced disk (call + 1) :=
  fun _ => ⟨call, r, hdisk, le_rfl, hr⟩

lemma Inv.loop (hpend : ∀ call r, s.pending = some (call, r) →
      call + 1 = s.replaced.length ∧ s.replaced[call]? = some r)
    (hdisk : ∀ call r, s.disk = some (call, r) → s.replaced[call]? = some r)
    (hdraini : s.draining = true)
    (hcovers : s.pending = none → Covers s.replaced s.disk s.replaced.length)
    (hwaits : ∀ w ∈ s.waits, w.calls ≤ s.replaced.length ∧ w.drain ≤ s.drains ∧
      (w.drain < s.drains → s.failure = false → Covers s.replaced s.disk w.calls))
    (hansw : Durable s) : Inv s.loop := by
  cases hp : s.pending with
  | none =>
    simp only [State.loop, hp]
    constructor
    · simp
    · simp
    · exact hdisk
    · simp [hdraini]
    · simp
    · intro _
      exact hcovers hp
    · simp
    · intro w hw
      obtain ⟨hcalls, hdrain, hcov⟩ := hwaits w hw
      refine ⟨hcalls, hdrain, fun hsettl hok => hcov ?_ hok⟩
      simpa [State.settled] using hsettl
    · exact hansw
  | some snapshot =>
    obtain ⟨call, r⟩ := snapshot
    obtain ⟨hlast, hr⟩ := hpend call r hp
    simp only [State.loop, hp]
    constructor
    · simp
    · intro call' r' hwrit
      cases hwrit
      refine ⟨hr, fun _ => hlast, fun old r' hold => ?_⟩
      have hlt := (List.getElem?_eq_some_iff.mp (hdisk old r' hold)).1
      omega
    · exact hdisk
    · simp [hdraini]
    · simp
    · simp
    · simp
    · intro w hw
      obtain ⟨hcalls, hdrain, hcov⟩ := hwaits w hw
      refine ⟨hcalls, hdrain, fun hsettl hok => hcov ?_ hok⟩
      simpa [State.settled] using hsettl
    · exact hansw

lemma Inv.drain (h : Inv s) (hstage : s.stage = .queued) : Inv s.loop := by
  have hdraini : s.draining = true := by
    cases hd : s.draining with
    | true => rfl
    | false => rw [h.draining.mp hd] at hstage; cases hstage
  refine Inv.loop h.pending h.disk hdraini ?_ ?_ h.answers
  · intro hnone
    have hsome := h.queued hstage
    rw [hnone] at hsome
    cases hsome
  · intro w hw
    obtain ⟨hcalls, hdrain, hcov⟩ := h.waits w hw
    exact ⟨hcalls, hdrain, fun hlt => hcov (Or.inl hlt)⟩

lemma Inv.written (h : Inv s) {snapshot : Snapshot ρ} (hstage : s.stage = .writing snapshot) :
    Inv { s with disk := some snapshot }.loop := by
  obtain ⟨call, r⟩ := snapshot
  obtain ⟨hr, hlast, hnew⟩ := h.writing call r hstage
  have hdraini : s.draining = true := by
    cases hd : s.draining with
    | true => rfl
    | false => rw [h.draining.mp hd] at hstage; cases hstage
  apply Inv.loop
  · exact h.pending
  · intro call' r' hdisk
    cases hdisk
    exact hr
  · exact hdraini
  · intro hnone
    have hlength := hlast hnone
    rw [← hlength]
    exact Covers.of_disk rfl hr
  · intro w hw
    obtain ⟨hcalls, hdrain, hcov⟩ := h.waits w hw
    refine ⟨hcalls, hdrain, fun hlt hok hpos => ?_⟩
    obtain ⟨old, r', hold, hle, -⟩ := hcov (Or.inl hlt) hok hpos
    have hmono := hnew old r' hold
    exact ⟨call, r, rfl, by omega, hr⟩
  · exact h.answers

lemma Inv.writeFailed (h : Inv s) {snapshot : Snapshot ρ} (hstage : s.stage = .writing snapshot) :
    Inv { s with stage := .threw } := by
  constructor
  · exact h.pending
  · simp
  · exact h.disk
  · simpa [hstage] using h.draining
  · simp
  · simp
  · simp
  · intro w hw
    obtain ⟨hcalls, hdrain, hcov⟩ := h.waits w hw
    refine ⟨hcalls, hdrain, fun hsettl => hcov (Or.inl ?_)⟩
    simpa [State.settled] using hsettl
  · exact h.answers

lemma Inv.finish (h : Inv s) {failed : Bool}
    (hcovers : failed = false → Covers s.replaced s.disk s.replaced.length) :
    Inv (s.finish failed) := by
  constructor
  · exact h.pending
  · simp [State.finish]
  · exact h.disk
  · simp [State.finish]
  · simp [State.finish]
  · simp [State.finish]
  · intro _ hok
    exact hcovers hok
  · intro w hw
    obtain ⟨hcalls, hdrain, -⟩ := h.waits w hw
    exact ⟨hcalls, hdrain, fun _ hok => (hcovers hok).mono hcalls⟩
  · exact h.answers

lemma Inv.flush (h : Inv s) : Inv s.flush := by
  refine ⟨h.pending, h.writing, h.disk, h.draining, h.queued, h.drained, h.settled, ?_, h.answers⟩
  intro w hw
  rcases List.mem_append.mp hw with hw | hw
  · exact h.waits w hw
  · obtain rfl := List.mem_singleton.mp hw
    refine ⟨le_rfl, le_rfl, fun hsettl => ?_⟩
    rcases hsettl with hlt | hsettl
    · exact absurd hlt (lt_irrefl _)
    · exact h.settled hsettl

lemma Inv.answer (h : Inv s) {i : ℕ} {wait : Wait} (hwait : s.waits[i]? = some wait)
    (hsettl : s.settled wait.drain) : Inv (s.answer i wait) := by
  have hsub : ∀ w ∈ s.waits.eraseIdx i, w ∈ s.waits := fun w hw => List.mem_of_mem_eraseIdx hw
  refine ⟨h.pending, h.writing, h.disk, h.draining, h.queued, h.drained, h.settled,
    fun w hw => h.waits w (hsub w hw), ?_⟩
  intro a ha
  simp only [State.answer] at ha
  split_ifs at ha with hfail
  · exact h.answers a ha
  · rcases List.mem_append.mp ha with ha | ha
    · exact h.answers a ha
    · obtain rfl := List.mem_singleton.mp ha
      have hmem := List.mem_of_getElem? hwait
      exact (h.waits wait hmem).2.2 hsettl (by simpa using hfail)

lemma Inv.replace (h : Inv s) {registrations : ρ} (hguard : Timely s (.replace registrations)) :
    Inv (s.replace registrations) := by
  have hlength : (s.replaced ++ [registrations]).length = s.replaced.length + 1 :=
    List.length_append
  have hpend : ∀ call r, some (s.replaced.length, registrations) = some (call, r) →
      call + 1 = (s.replaced ++ [registrations]).length ∧
        (s.replaced ++ [registrations])[call]? = some r := by
    intro call r hsome
    cases hsome
    exact ⟨hlength.symm, by simp⟩
  have hansw : ∀ a ∈ s.answers, Covers (s.replaced ++ [registrations]) a.disk a.calls :=
    fun a ha => (h.answers a ha).concat registrations
  have hdisk : ∀ call r, s.disk = some (call, r) →
      (s.replaced ++ [registrations])[call]? = some r :=
    fun call r hd => getElem?_concat (h.disk call r hd) registrations
  cases hd : s.draining with
  | false =>
    have hstage := h.draining.mp hd
    simp only [State.replace, hd, Bool.false_eq_true, if_false]
    constructor
    · exact hpend
    · simp
    · exact hdisk
    · simp
    · simp
    · simp
    · simp
    · intro w hw
      rcases List.mem_append.mp hw with hw | hw
      · obtain ⟨hcalls, hdrain, hcov⟩ := h.waits w hw
        refine ⟨by simp only [hlength]; omega, by simp only; omega, fun _ hok => ?_⟩
        exact (hcov (Or.inr hstage) hok).concat registrations
      · obtain rfl := List.mem_singleton.mp hw
        refine ⟨le_rfl, le_rfl, fun hsettl => ?_⟩
        simp [State.settled] at hsettl
    · exact hansw
  | true =>
    have hstage : s.stage ≠ .settled := by
      intro hsettl
      rw [h.draining.mpr hsettl] at hd
      cases hd
    have hlooks : s.stage ≠ .drained := by
      intro hdrained
      simp [Timely, hdrained] at hguard
    simp only [State.replace, hd, if_true]
    constructor
    · exact hpend
    · intro call r hwrit
      obtain ⟨hr, -, hnew⟩ := h.writing call r hwrit
      exact ⟨getElem?_concat hr registrations, by simp, hnew⟩
    · exact hdisk
    · simpa [hd] using hstage
    · simp
    · intro hdrained
      exact absurd hdrained hlooks
    · intro hsettl
      exact absurd hsettl hstage
    · intro w hw
      rcases List.mem_append.mp hw with hw | hw
      · obtain ⟨hcalls, hdrain, hcov⟩ := h.waits w hw
        refine ⟨by simp only [hlength]; omega, hdrain, fun hsettl hok => ?_⟩
        exact (hcov hsettl hok).concat registrations
      · obtain rfl := List.mem_singleton.mp hw
        refine ⟨le_rfl, le_rfl, fun hsettl => ?_⟩
        rcases hsettl with hlt | hsettl
        · exact absurd hlt (lt_irrefl _)
        · exact absurd hsettl hstage
    · exact hansw

lemma Inv.step (h : Inv s) {a : Step ρ} (hguard : Timely s a) (hnext : next s a = some t) :
    Inv t := by
  cases a with
  | replace registrations =>
    cases hnext
    exact h.replace hguard
  | flush =>
    cases hnext
    exact h.flush
  | drain =>
    cases hstage : s.stage with
    | queued =>
      simp only [next, hstage] at hnext
      cases hnext
      exact h.drain hstage
    | _ => simp [next, hstage] at hnext
  | written =>
    cases hstage : s.stage with
    | writing snapshot =>
      simp only [next, hstage] at hnext
      cases hnext
      exact h.written hstage
    | _ => simp [next, hstage] at hnext
  | writeFailed =>
    cases hstage : s.stage with
    | writing snapshot =>
      simp only [next, hstage] at hnext
      cases hnext
      exact h.writeFailed hstage
    | _ => simp [next, hstage] at hnext
  | finish =>
    cases hstage : s.stage with
    | drained =>
      simp only [next, hstage] at hnext
      cases hnext
      exact h.finish fun _ => h.drained hstage
    | threw =>
      simp only [next, hstage] at hnext
      cases hnext
      exact h.finish nofun
    | _ => simp [next, hstage] at hnext
  | answer i =>
    simp only [next] at hnext
    split at hnext
    · cases hnext
    · next wait hwait =>
        split_ifs at hnext with hlt
        · cases hnext
          exact h.answer hwait (Or.inl hlt)
        · split at hnext
          · next hstage =>
              cases hnext
              exact h.answer hwait (Or.inr hstage)
          · cases hnext

lemma inv_fresh : Inv (fresh : State ρ) := by
  refine ⟨nofun, nofun, nofun, by simp [fresh], nofun, nofun, fun _ _ => Covers.of_zero, nofun, nofun⟩

lemma late_run {registrations : ρ} (h : Inv s) (hlate : s.stage = .drained) :
    ∃ u, store.Run anyStep (s.replace registrations) [.finish, .answer s.waits.length] u ∧
      ¬Durable u := by
  have hdraini : s.draining = true := by
    cases hd : s.draining with
    | true => rfl
    | false => rw [h.draining.mp hd] at hlate; cases hlate
  have hfin : next (s.replace registrations) .finish =
      some ((s.replace registrations).finish false) := by
    simp [next, State.replace, hdraini, hlate]
  have hanswer : next ((s.replace registrations).finish false) (.answer s.waits.length) =
      some (((s.replace registrations).finish false).answer s.waits.length
        ⟨s.drains, s.replaced.length + 1⟩) := by
    simp [next, State.replace, State.finish, hdraini]
  refine ⟨_, .cons trivial hfin (.single trivial hanswer), fun hdur => ?_⟩
  have hcovers := hdur ⟨s.replaced.length + 1, s.disk⟩
    (by simp [State.answer, State.finish, State.replace, hdraini])
  obtain ⟨call, r, hdisk, hle, -⟩ := hcovers (Nat.succ_pos _)
  have hlt := (List.getElem?_eq_some_iff.mp (h.disk call r hdisk)).1
  change s.replaced.length + 1 ≤ call + 1 at hle
  omega

/-- In a run without late sets, whoever is told that all went well finds its set, or a later one, on
the disk. -/
theorem acknowledged_is_durable : (∀ s : State ρ, store.Reach Timely s → Durable s) ∧
      ∀ (s t : State ρ) (a : Step ρ), store.Reach Timely s → ¬Timely s a → next s a = some t →
        ∃ as u, store.Run anyStep t as u ∧ ¬Durable u := by
  have hreach : ∀ s : State ρ, store.Reach Timely s → Inv s := by
    intro s hs
    refine hs.inv Inv ?_ fun _ _ _ h hok hn => h.step hok hn
    rintro s rfl
    exact inv_fresh
  refine ⟨fun s hs => (hreach s hs).answers, fun s t a hs hlate hnext => ?_⟩
  cases a with
  | replace registrations =>
    have hstage : s.stage = .drained := by
      cases hstage : s.stage with
      | drained => rfl
      | _ => simp [Timely, hstage] at hlate
    cases hnext
    obtain ⟨u, hrun, hbrok⟩ := late_run (hreach s hs) hstage
    exact ⟨_, u, hrun, hbrok⟩
  | _ => exact absurd trivial hlate

section

theorem acknowledged_in_turn :
    ∃ s, store.execIf (fun s a => decide (Timely s a)) (fresh : State Bool)
        [.replace true, .drain, .replace false, .flush, .written, .written, .finish, .answer 0,
          .answer 0, .answer 0] = some s ∧
      s.disk = some (1, false) ∧ s.answers.length = 3 ∧ Durable s := by
  have hrun : (store.execIf (fun s a => decide (Timely s a)) (fresh : State Bool)
      [.replace true, .drain, .replace false, .flush, .written, .written, .finish, .answer 0,
        .answer 0, .answer 0]).map (fun s => (s.disk, s.answers.length)) =
        some (some (1, false), 3) := by
    decide +kernel
  obtain ⟨s, hs, hview⟩ := Option.map_eq_some_iff.mp hrun
  have hguarded := (Machine.run_of_execIf hs).mono fun s a h => of_decide_eq_true h
  exact ⟨s, hs, congrArg Prod.fst hview, congrArg Prod.snd hview,
    acknowledged_is_durable.1 s ⟨fresh, _, rfl, hguarded⟩⟩

/-- The second set comes behind the loop of the first: its caller is told that all went
well, and the disk holds the first. -/
theorem late_set_is_lost : ∃ s : State Bool, store.Reach anyStep s ∧
      s.answers.map (fun a => (a.calls, a.disk)) = [(1, some (0, true)), (2, some (0, true))] ∧
      ¬Durable s := by
  have hrun : (store.exec (fresh : State Bool)
      [.replace true, .drain, .written, .replace false, .finish, .answer 0, .answer 0]).map
        (fun s => s.answers.map fun a => (a.calls, a.disk)) =
        some [(1, some (0, true)), (2, some (0, true))] := by
    decide +kernel
  obtain ⟨s, hs, hview⟩ := Option.map_eq_some_iff.mp hrun
  refine ⟨s, Machine.reach_of_exec rfl hs, hview, fun hdur => ?_⟩
  have hmem : (2, some (0, true)) ∈ s.answers.map fun a => (a.calls, a.disk) := by
    rw [hview]
    simp
  obtain ⟨a, ha, haview⟩ := List.mem_map.mp hmem
  have hcalls : a.calls = 2 := congrArg Prod.fst haview
  have hcovers := hdur a ha
  rw [hcalls, show a.disk = some (0, true) from congrArg Prod.snd haview] at hcovers
  obtain ⟨call, r, hdisk, hle, -⟩ := hcovers Nat.zero_lt_two
  cases hdisk
  omega

end
end Redskilled.Daemon.IntentStore
