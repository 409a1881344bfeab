import Redskilled.Host.SessionLease

/-!
# The reclaim of runtime directories

A sweep judges one runtime directory after another: it lists the names, reads the lease, asks for
the pid or for the socket and the age, and removes the directory with all that is in it. A daemon
may start in the directory between any two of these steps. It makes the directory where it is not
there, takes the lease as an acquire does, and binds the socket.

A removal is noted with the names that were listed, and with whether the lease of a live daemon
was there. A pid of a process that runs is alive; what else a probe answers is told from outside.
-/
namespace Redskilled.Host.RuntimeReclaim
open Foundation SessionLease Option

def reclaimGraceMs : ℕ := 300000

def filePrefix : Text := "redskilled.".toList

def leaseFile : Text := "redskilled.lease.toon".toList

def socketFile : Text := "redskilled.sock".toList

/-- A name of this module's business. -/
def isOurs (name : Text) : Bool := filePrefix.isPrefixOf name

inductive Verdict where
  | reclaimed
  | live
  | young
  | foreign
  | failed

structure ReclaimEntry where
  verdict : Verdict
  reason : Text
  removed : List Text

inductive Judge where
  | idle
  | reading (names : List Text)
  | checking (names : List Text) (lease : RedskilledLease)
  | pinging (names : List Text)
  | aging (names : List Text)
  | removing (names : List Text) (reason : Text)

structure Removal where
  listed : List Text
  /-- The lease of a live daemon was there. -/
  owned : Bool

structure State where
  lease : SessionLease.State
  present : Bool
  others : List Text
  judge : Judge
  entries : List ReclaimEntry
  removals : List Removal

structure Look where
  pidAlive : Bool
  answers : Bool
  /-- How long ago the directory was modified, `none` where it cannot be told. -/
  ageMs : Option ℕ
  rmThrows : Bool

inductive Step where
  | daemon (step : SessionLease.Step)
  | bind (p : ℕ)
  | judge (look : Look)

namespace State
variable (s : State)

def record : Option RedskilledLease := s.lease.file.bind (·.record)

def names : List Text := (if s.lease.file.isSome then [leaseFile] else []) ++ s.others

def answer (verdict : Verdict) (reason : Text) (removed : List Text) : State :=
  { s with judge := .idle, entries := s.entries ++ [⟨verdict, reason, removed⟩] }

end State

section
variable (live : ℕ → Bool) (startTime : ℕ → Text) (labels : RedskilledLeaseLabels) (graceMs : ℕ)
  (dryRun : Bool)

def State.owned (s : State) : Bool := s.record.any fun lease => live lease.pid

def list (s : State) : State :=
  if s.present = false then s.answer .failed "ENOENT".toList []
  else if s.names ≠ [] ∧ s.names.filter isOurs = [] then
    s.answer .foreign "holds no redskilled files".toList []
  else { s with judge := .reading s.names }

def readLease (s : State) (names : List Text) : State :=
  match s.record with
  | some lease => { s with judge := .checking names lease }
  | none => { s with judge := if names.contains socketFile then .pinging names else .aging names }

def aliveReason (pid : ℕ) : Text :=
  "lease pid ".toList ++ Text.number pid ++ " is alive".toList

def deadReason (pid : ℕ) : Text := "lease pid ".toList ++ Text.number pid ++ " is dead".toList

def youngReason (ageMs : ℕ) : Text :=
  "no lease, modified ".toList ++ Text.number ((ageMs + 500) / 1000) ++ "s ago".toList

def staleReason (names : List Text) : Text :=
  if names.isEmpty then "empty and stale".toList else "no lease and stale".toList

def check (s : State) (names : List Text) (lease : RedskilledLease) (pidAlive : Bool) : State :=
  if live lease.pid || pidAlive then s.answer .live (aliveReason lease.pid) []
  else { s with judge := .removing names (deadReason lease.pid) }

def stat (s : State) (names : List Text) (ageMs : Option ℕ) : State :=
  match ageMs.filter (· < graceMs) with
  | some age => s.answer .young (youngReason age) []
  | none => { s with judge := .removing names (staleReason names) }

/-- `rm(dir, { recursive: true, force: true })` -/
def remove (s : State) (names : List Text) (reason : Text) (rmThrows : Bool) : State :=
  if dryRun then s.answer .reclaimed (reason ++ " (dry run)".toList) names
  else if rmThrows then s.answer .failed "EACCES".toList []
  else
    { s.answer .reclaimed reason names with
      lease := { s.lease with file := none }
      present := false
      others := []
      removals := s.removals ++ [⟨names, s.owned live⟩] }

def judgeStep (s : State) (look : Look) : State :=
  match s.judge with
  | .idle => list s
  | .reading names => readLease s names
  | .checking names lease => check live s names lease look.pidAlive
  | .pinging names =>
    if look.answers then s.answer .live "socket answers with no lease".toList []
    else { s with judge := .aging names }
  | .aging names => stat graceMs s names look.ageMs
  | .removing names reason => remove live dryRun s names reason look.rmThrows

/-- The exclusive write of an acquire throws where the directory is gone. -/
def daemonStep (s : State) (step : SessionLease.Step) : Option State :=
  match step with
  | .acquire p =>
    (SessionLease.next live startTime labels s.lease (.acquire p)).map fun lease =>
      { s with lease := lease, present := true }
  | .release p =>
    (SessionLease.next live startTime labels s.lease (.release p)).map fun lease =>
      { s with lease := lease }
  | .advance p outside =>
    match (s.lease.proc p).phase, s.present with
    | .creating _, false => some { s with lease := s.lease.goto p .idle }
    | _, _ =>
      (SessionLease.next live startTime labels s.lease (.advance p outside)).map fun lease =>
        { s with lease := lease }

def bindSocket (s : State) (p : ℕ) : Option State :=
  if (s.lease.proc p).holds = true ∧ s.present = true then
    some { s with
      others := if s.others.contains socketFile then s.others else s.others ++ [socketFile] }
  else none

def next (s : State) : Step → Option State
  | .daemon step => daemonStep live startTime labels s step
  | .bind p => bindSocket s p
  | .judge look => some (judgeStep live graceMs dryRun s look)

/-- Any names, beside what the lease may be. -/
def Start (s : State) : Prop :=
  SessionLease.Start live startTime s.lease ∧ s.judge = .idle ∧ s.removals = [] ∧
    (s.present = false → s.lease.file = none ∧ s.others = [])

def reclaims : Machine State Step where
  start := Start live startTime
  next := next live startTime labels graceMs dryRun

end

def Removal.Litter (r : Removal) : Prop :=
  (∀ name ∈ r.listed, isOurs name = true) ∧ r.owned = false

def Judge.hasRead : Judge → Bool
  | .idle | .reading _ => false
  | _ => true

/-- A listing has no name of this module's business, or only such names; and no daemon writes its
lease behind the judgement's read of it. -/
def Undisturbed (s : State) : Step → Prop
  | .judge _ => s.judge = .idle → s.names.filter isOurs = [] ∨ ∀ name ∈ s.names, isOurs name = true
  | .daemon (.advance p _) => s.judge.hasRead = true →
      ∀ reaped serial lease, (s.lease.proc p).phase ≠ .filling reaped serial lease
  | _ => True

section
variable (live : ℕ → Bool)

def Judge.listed : Judge → List Text
  | .idle => []
  | .reading names | .checking names _ | .pinging names | .aging names | .removing names _ => names

/-- What is known of the lease that is there. -/
def Knows (record : Option RedskilledLease) : Judge → Prop
  | .idle | .reading _ => True
  | .checking _ lease => ∀ there ∈ record, there = lease
  | .pinging _ | .aging _ => record = none
  | .removing _ _ => ∀ there ∈ record, live there.pid = false

structure Inv (s : State) : Prop where
  listed : ∀ name ∈ s.judge.listed, isOurs name = true
  knows : Knows live s.record s.judge
  litter : ∀ r ∈ s.removals, r.Litter

end

section
variable {live : ℕ → Bool} {startTime : ℕ → Text} {labels : RedskilledLeaseLabels} {graceMs : ℕ}
  {dryRun : Bool} {s t : State}

lemma Inv.answer (h : Inv live s) (verdict : Verdict) (reason : Text) (removed : List Text) :
    Inv live (s.answer verdict reason removed) :=
  ⟨by rintro name ⟨⟩, trivial, h.litter⟩

lemma Knows.mono {record record' : Option RedskilledLease} {judge : Judge}
    (h : Knows live record judge) (hless : ∀ lease ∈ record', lease ∈ record) :
    Knows live record' judge := by
  have hnone : record = none → record' = none := by
    rintro rfl
    cases record' with
    | none => rfl
    | some lease => cases hless lease rfl
  cases judge with
  | idle => trivial
  | reading names => trivial
  | checking names lease => exact fun there hthere => h there (hless there hthere)
  | pinging names => exact hnone h
  | aging names => exact hnone h
  | removing names reason => exact fun there hthere => h there (hless there hthere)

lemma Inv.goto (h : Inv live s) (judge : Judge)
    (hlisted : ∀ name ∈ judge.listed, isOurs name = true) (hknows : Knows live s.record judge) :
    Inv live { s with judge := judge } :=
  ⟨hlisted, hknows, h.litter⟩

lemma Inv.list (h : Inv live s)
    (hnam : s.names.filter isOurs = [] ∨ ∀ name ∈ s.names, isOurs name = true) :
    Inv live (list s) := by
  unfold RuntimeReclaim.list
  split_ifs with hgone hfor
  · exact h.answer _ _ _
  · exact h.answer _ _ _
  · apply h.goto (.reading s.names)
    · intro name hname
      rcases hnam with hnone | hall
      · have hempty : s.names = [] := by
          by_contra hne
          exact hfor ⟨hne, hnone⟩
        rw [Judge.listed, hempty] at hname
        cases hname
      · exact hall name hname
    · trivial

lemma Inv.readLease (h : Inv live s) {names : List Text} (hjudge : s.judge = .reading names) :
    Inv live (readLease s names) := by
  have hlisted : ∀ name ∈ names, isOurs name = true := by
    have hl := h.listed
    rw [hjudge] at hl
    exact hl
  unfold RuntimeReclaim.readLease
  split
  · next lease hrec =>
      apply h.goto (.checking names lease) hlisted
      intro there hthere
      rw [hrec] at hthere
      exact (some.inj hthere).symm
  · next hrec =>
      split_ifs
      · exact h.goto (.pinging names) hlisted hrec
      · exact h.goto (.aging names) hlisted hrec

lemma Inv.check (h : Inv live s) {names : List Text} {lease : RedskilledLease}
    (hjudge : s.judge = .checking names lease) (pidAlive : Bool) :
    Inv live (check live s names lease pidAlive) := by
  unfold RuntimeReclaim.check
  split_ifs with halive
  · exact h.answer _ _ _
  · have hl := h.listed
    have hk := h.knows
    rw [hjudge] at hl hk
    apply h.goto (.removing names _) hl
    intro there hthere
    rw [hk there hthere]
    simp only [Bool.or_eq_true, not_or, Bool.not_eq_true] at halive
    exact halive.1

lemma Inv.stat (h : Inv live s) {names : List Text} (hjudge : s.judge = .aging names)
    (ageMs : Option ℕ) : Inv live (stat graceMs s names ageMs) := by
  unfold RuntimeReclaim.stat
  split
  · exact h.answer _ _ _
  · have hl := h.listed
    have hk := h.knows
    rw [hjudge] at hl hk
    apply h.goto (.removing names _) hl
    intro there hthere
    rw [show s.record = none from hk] at hthere
    cases hthere

lemma Inv.remove (h : Inv live s) {names : List Text} {reason : Text}
    (hjudge : s.judge = .removing names reason) (rmThrows : Bool) :
    Inv live (remove live dryRun s names reason rmThrows) := by
  have hl := h.listed
  have hk := h.knows
  rw [hjudge] at hl hk
  unfold RuntimeReclaim.remove
  split_ifs with hdry hthr
  · exact h.answer _ _ _
  · exact h.answer _ _ _
  · have hnob : s.owned live = false := by
      rw [State.owned, any_eq_false]
      intro lease hlease
      simp [hk lease hlease]
    refine ⟨by rintro name ⟨⟩, trivial, ?_⟩
    intro r hr
    rcases List.mem_append.mp hr with hbef | hnew
    · exact h.litter r hbef
    · rw [List.mem_singleton.mp hnew]
      exact ⟨hl, hnob⟩

lemma Inv.judgeStep (h : Inv live s) (look : Look)
    (hnam : s.judge = .idle → s.names.filter isOurs = [] ∨ ∀ name ∈ s.names, isOurs name = true) :
    Inv live (judgeStep live graceMs dryRun s look) := by
  unfold RuntimeReclaim.judgeStep
  split
  · next hjudge => exact h.list (hnam hjudge)
  · next names hjudge => exact h.readLease hjudge
  · next names lease hjudge => exact h.check hjudge look.pidAlive
  · next names hjudge =>
      split_ifs
      · exact h.answer _ _ _
      · have hl := h.listed
        have hk := h.knows
        rw [hjudge] at hl hk
        exact h.goto (.aging names) hl hk
  · next names hjudge => exact h.stat hjudge look.ageMs
  · next names reason hjudge => exact h.remove hjudge look.rmThrows

lemma record_of_advance {lease lease' : SessionLease.State} {p : ℕ} {outside : Outside}
    (hn : advance live startTime labels lease p outside = some lease')
    (hfill : ∀ reaped serial content, (lease.proc p).phase ≠ .filling reaped serial content) :
    ∀ there ∈ lease'.file.bind (·.record), there ∈ lease.file.bind (·.record) := by
  intro there hthere
  unfold SessionLease.advance at hn
  cases hphase : (lease.proc p).phase with
  | idle => simp [hphase] at hn
  | creating reaped =>
    simp only [hphase, some.injEq] at hn
    subst hn
    cases hfile : lease.file with
    | none => simp [create, hfile] at hthere
    | some file => simpa [create, hfile, State.goto] using hthere
  | filling reaped serial content => exact absurd hphase (hfill reaped serial content)
  | reading reaped =>
    simp only [hphase, some.injEq] at hn
    subst hn
    have hsame : (read startTime lease p reaped).file = lease.file := by
      unfold SessionLease.read
      split
      · rfl
      · split
        · rfl
        · split_ifs <;> rfl
    rwa [hsame] at hthere
  | checking found existing =>
    simp only [hphase] at hn
    split_ifs at hn with halive
    · rwa [← some.inj hn] at hthere
    · rwa [← some.inj hn] at hthere
  | removing found =>
    simp only [hphase, some.injEq] at hn
    subst hn
    cases hthere
  | releasing =>
    simp only [hphase, some.injEq] at hn
    subst hn
    have hsame : (readOwn startTime lease p).file = lease.file := by
      unfold SessionLease.readOwn
      split_ifs
      · rfl
      · rfl
    rwa [hsame] at hthere
  | unlinking =>
    simp only [hphase, some.injEq] at hn
    subst hn
    cases hthere

lemma file_of_call {lease lease' : SessionLease.State} {p : ℕ} {phase : Phase}
    (hn : call live lease p phase = some lease') : lease'.file = lease.file := by
  unfold SessionLease.call at hn
  split_ifs at hn
  rw [← some.inj hn]
  rfl

lemma Inv.lease (h : Inv live s) {lease : SessionLease.State} {present : Bool}
    (hless : s.judge.hasRead = true → ∀ there ∈ lease.file.bind (·.record), there ∈ s.record) :
    Inv live { s with lease := lease, present := present } := by
  refine ⟨h.listed, ?_, h.litter⟩
  cases hread : s.judge.hasRead with
  | true => exact h.knows.mono (hless hread)
  | false =>
    cases hjudge : s.judge with
    | idle => trivial
    | reading names => trivial
    | _ => simp [hjudge, Judge.hasRead] at hread

lemma Inv.daemonStep (h : Inv live s) {step : SessionLease.Step}
    (hok : Undisturbed s (.daemon step))
    (hn : daemonStep live startTime labels s step = some t) : Inv live t := by
  unfold RuntimeReclaim.daemonStep at hn
  cases step with
  | acquire p =>
    obtain ⟨lease, hlease, rfl⟩ := map_eq_some_iff.mp hn
    apply h.lease
    rw [file_of_call hlease]
    exact fun _ there hthere => hthere
  | release p =>
    obtain ⟨lease, hlease, rfl⟩ := map_eq_some_iff.mp hn
    apply h.lease
    rw [file_of_call hlease]
    exact fun _ there hthere => hthere
  | advance p outside =>
    dsimp only at hn
    split at hn
    · cases hn
      exact h.lease fun _ there hthere => hthere
    · obtain ⟨lease, hlease, rfl⟩ := map_eq_some_iff.mp hn
      apply h.lease
      intro hread
      exact record_of_advance hlease (hok hread)

lemma Inv.bindSocket (h : Inv live s) {p : ℕ} (hn : bindSocket s p = some t) : Inv live t := by
  unfold RuntimeReclaim.bindSocket at hn
  split_ifs at hn
  · rw [← some.inj hn]
    exact ⟨h.listed, h.knows, h.litter⟩
  · rw [← some.inj hn]
    exact ⟨h.listed, h.knows, h.litter⟩

lemma Inv.step (h : Inv live s) {a : Step} (hok : Undisturbed s a)
    (hn : next live startTime labels graceMs dryRun s a = some t) : Inv live t := by
  cases a with
  | daemon step => exact h.daemonStep hok hn
  | bind p => exact h.bindSocket hn
  | judge look =>
    rw [← some.inj hn]
    exact h.judgeStep look hok

lemma inv_start (h : Start live startTime s) : Inv live s := by
  obtain ⟨-, hidle, hnone, -⟩ := h
  constructor
  · rw [hidle]
    rintro name ⟨⟩
  · rw [hidle]
    trivial
  · rw [hnone]
    rintro r ⟨⟩

def quiet : Look := { pidAlive := false, answers := false, ageMs := none, rmThrows := false }

/-- In a run that is not disturbed only litter is removed. -/
theorem litter_while_undisturbed
    (h : (reclaims live startTime labels graceMs dryRun).Reach Undisturbed s) :
    ∀ r ∈ s.removals, r.Litter := by
  have hs : Inv live s :=
    h.inv (Inv live) (fun _ hstart => inv_start hstart) fun _ _ _ hinv hok hn => hinv.step hok hn
  exact hs.litter

end

section

def undisturbed (s : State) : Step → Bool
  | .judge _ =>
    match s.judge with
    | .idle => (s.names.filter isOurs).isEmpty || s.names.all isOurs
    | _ => true
  | .daemon (.advance p _) =>
    match (s.lease.proc p).phase with
    | .filling .. => !s.judge.hasRead
    | _ => true
  | _ => true

lemma undisturbed_of_test {s : State} {a : Step} (h : undisturbed s a = true) :
    Undisturbed s a := by
  cases a with
  | bind p => trivial
  | judge look =>
    intro hidle
    simpa [undisturbed, hidle] using h
  | daemon step =>
    cases step with
    | acquire p => trivial
    | release p => trivial
    | advance p outside =>
      intro hread reaped serial lease hphase
      simp [undisturbed, hphase, hread] at h

def sample : Machine State Step := reclaims two (fun _ => []) noLabels reclaimGraceMs false

def stale (others : List Text) : State :=
  { lease := SessionLease.before (some deadRecord), present := true, others, judge := .idle
    entries := [], removals := [] }

lemma start_stale (others : List Text) : sample.start (stale others) := by
  refine ⟨start_dead, rfl, rfl, ?_⟩
  rintro ⟨⟩

def judged (n : ℕ) : List Step := List.replicate n (.judge quiet)

def taken (p n : ℕ) : List Step :=
  .daemon (.acquire p) :: (moves p n).map .daemon

def swept : List Step := judged 4 ++ taken 1 2 ++ [Step.bind 1] ++ judged 3

theorem litter_goes : ∃ s, sample.execIf undisturbed (stale [socketFile]) swept = some s ∧
      s.removals.length = 1 ∧ s.lease.file.isSome = true ∧ ∀ r ∈ s.removals, r.Litter := by
  have hrun : (sample.execIf undisturbed (stale [socketFile]) swept).map
      (fun s => (s.removals.length, s.lease.file.isSome)) = some (1, true) := by
    decide +kernel
  obtain ⟨s, hs, hends⟩ := map_eq_some_iff.mp hrun
  have hreach : sample.Reach Undisturbed s :=
    ⟨_, swept, start_stale _, (Machine.run_of_execIf hs).mono fun _ _ => undisturbed_of_test⟩
  exact ⟨s, hs, congrArg Prod.fst hends, congrArg Prod.snd hends, litter_while_undisturbed hreach⟩

def note : Text := "notes.txt".toList

/-- A foreign file goes with a dead lease, and a lease taken meanwhile goes too. -/
theorem not_only_litter_goes : (¬ ∀ live startTime labels graceMs dryRun s,
      (reclaims live startTime labels graceMs dryRun).Reach anyStep s →
      ∀ r ∈ s.removals, ∀ name ∈ r.listed, isOurs name = true) ∧
    ¬ ∀ live startTime labels graceMs dryRun s,
      (reclaims live startTime labels graceMs dryRun).Reach anyStep s →
      ∀ r ∈ s.removals, r.owned = false := by
  constructor
  · intro h
    have hrun : (sample.exec (stale [note]) (judged 4)).map (·.removals.map (·.listed)) =
        some [[leaseFile, note]] := by
      decide +kernel
    obtain ⟨s, hs, hlisted⟩ := map_eq_some_iff.mp hrun
    obtain ⟨r, hr, hnam⟩ := List.mem_map.mp (hlisted ▸ List.mem_singleton_self _)
    have hfor : isOurs note = false := by decide
    have hreach : sample.Reach anyStep s := Machine.reach_of_exec (start_stale _) hs
    have hours := h _ _ _ _ _ s hreach r hr note (by simp [hnam])
    rw [hfor] at hours
    cases hours
  · intro h
    have hrun : (sample.exec (stale []) (judged 3 ++ taken 1 6 ++ judged 1)).map
        (·.removals.map (·.owned)) = some [true] := by
      decide +kernel
    obtain ⟨s, hs, hown⟩ := map_eq_some_iff.mp hrun
    obtain ⟨r, hr, htrue⟩ := List.mem_map.mp (hown ▸ List.mem_singleton_self _)
    rw [h _ _ _ _ _ s (Machine.reach_of_exec (start_stale _) hs) r hr] at htrue
    cases htrue

end

end Redskilled.Host.RuntimeReclaim
