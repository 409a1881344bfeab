import Redskilled.Foundation.Machine
import Redskilled.Foundation.SoleOwner
import Redskilled.Foundation.JsText

/-!
# The session lease

One file names the owner of a user session. An acquire creates it exclusively; where it
exists already it reads it, and it removes a record that nobody can read or whose pid is
dead, and tries again. A release reads the record and removes it where it is its own.

A file is created empty and gets its content later, through the handle of the process that
created it. A removal takes the path away, whatever is there by then. A process is named by
its pid, and the file by the order of its creation, `0` for what was there before.
-/
namespace Redskilled.Host.SessionLease
open Foundation Option

structure RedskilledLeaseLabels where
  sessionKeyHash : Text
  machineIdHash : Text
  socketPath : Text
  deriving DecidableEq

structure RedskilledLease where
  pid : ℕ
  startTime : Text
  labels : RedskilledLeaseLabels
  acquiredAt : Text
  renewedAt : Text
  deriving DecidableEq

structure RedskilledLeaseOwner where
  pid : ℕ
  startTime : Text

inductive AcquireResult where
  | acquired (reaped : Bool) (lease : RedskilledLease)
  | refused (lease : RedskilledLease)

structure LeaseFile where
  serial : ℕ
  /-- The process that created it, `none` for what was there before. -/
  maker : Option ℕ
  /-- What a read makes of the bytes, `none` for bytes that are not a lease. -/
  record : Option RedskilledLease

/-- Where a process stands in `acquire` or `release`. A file that was judged is known by its
number, one that was not there or had no content yet is not. -/
inductive Phase where
  | idle
  | creating (reaped : Bool)
  | filling (reaped : Bool) (serial : ℕ) (lease : RedskilledLease)
  | reading (reaped : Bool)
  | checking (found : ℕ) (existing : RedskilledLease)
  | removing (found : Option ℕ)
  | releasing
  | unlinking
  deriving DecidableEq

structure Proc where
  phase : Phase
  holds : Bool
  answer : Option AcquireResult

structure State where
  file : Option LeaseFile
  serial : ℕ
  proc : ℕ → Proc
  /-- An acquire has removed a file that a live process had created. -/
  robbed : Bool

structure Outside where
  now : Text
  pidAlive : Bool

inductive Step where
  | acquire (p : ℕ)
  | release (p : ℕ)
  | advance (p : ℕ) (outside : Outside)

def belongsTo (lease : RedskilledLease) (owner : RedskilledLeaseOwner) : Bool :=
  lease.pid == owner.pid && lease.startTime == owner.startTime

def mint (labels : RedskilledLeaseLabels) (owner : RedskilledLeaseOwner) (now : Text) :
    RedskilledLease :=
  { pid := owner.pid, startTime := owner.startTime, labels, acquiredAt := now, renewedAt := now }

def LeaseFile.whole (file : LeaseFile) : Bool := file.maker.isNone || file.record.isSome

def State.goto (s : State) (p : ℕ) (phase : Phase) : State :=
  { s with proc := Function.update s.proc p { s.proc p with phase } }

def State.answered (s : State) (p : ℕ) (holds : Bool) (answer : AcquireResult) : State :=
  { s with proc := Function.update s.proc p { phase := .idle, holds, answer := some answer } }

section
variable (live : ℕ → Bool) (startTime : ℕ → Text) (labels : RedskilledLeaseLabels)

def owner (p : ℕ) : RedskilledLeaseOwner := { pid := p, startTime := startTime p }

/-- `writeFile` with the flag `wx`, up to the creation of the file. -/
def create (s : State) (p : ℕ) (reaped : Bool) (now : Text) : State :=
  match s.file with
  | none =>
    { s.goto p (.filling reaped s.serial (mint labels (owner startTime p) now)) with
      file := some { serial := s.serial, maker := some p, record := none }
      serial := s.serial + 1 }
  | some _ => s.goto p (.reading reaped)

def fill (s : State) (p : ℕ) (reaped : Bool) (serial : ℕ) (lease : RedskilledLease) : State :=
  { s.answered p true (.acquired reaped lease) with
    file := s.file.map fun file =>
      if file.serial = serial then { file with record := some lease } else file }

def read (s : State) (p : ℕ) (reaped : Bool) : State :=
  match s.file with
  | none => s.goto p (.removing none)
  | some file =>
    match file.record with
    | none => s.goto p (.removing (if file.whole then some file.serial else none))
    | some existing =>
      if belongsTo existing (owner startTime p) then
        s.answered p true (.acquired reaped existing)
      else s.goto p (.checking file.serial existing)

/-- A release that finds no record of its own answers `false` or throws. -/
def readOwn (s : State) (p : ℕ) : State :=
  if (s.file.bind (·.record)).any (belongsTo · (owner startTime p)) then s.goto p .unlinking
  else s.goto p .idle

/-- The pid of a process that runs is alive; another may be. -/
def advance (s : State) (p : ℕ) (outside : Outside) : Option State :=
  match (s.proc p).phase with
  | .idle => none
  | .creating reaped => some (create startTime labels s p reaped outside.now)
  | .filling reaped serial lease => some (fill s p reaped serial lease)
  | .reading reaped => some (read startTime s p reaped)
  | .checking found existing =>
    if live existing.pid || outside.pidAlive then
      some (s.answered p (s.proc p).holds (.refused existing))
    else some (s.goto p (.removing (some found)))
  | .removing _ =>
    some { s.goto p (.creating true) with
      file := none
      robbed := s.robbed || s.file.any (·.maker.isSome) }
  | .releasing => some (readOwn startTime s p)
  | .unlinking =>
    some { s with
      file := none
      proc := Function.update s.proc p { s.proc p with phase := .idle, holds := false } }

def call (s : State) (p : ℕ) (phase : Phase) : Option State :=
  if live p ∧ (s.proc p).phase = .idle then some (s.goto p phase) else none

def next (s : State) : Step → Option State
  | .acquire p => call live s p (.creating false)
  | .release p => call live s p .releasing
  | .advance p outside => advance live startTime labels s p outside

def Start (s : State) : Prop :=
  (∀ p, s.proc p = { phase := .idle, holds := false, answer := none }) ∧ s.robbed = false ∧
    s.serial = 1 ∧
    ∀ file, s.file = some file → file.serial = 0 ∧ file.maker = none ∧
      ∀ lease, file.record = some lease → ∀ p, live p = true →
        belongsTo lease (owner startTime p) = false

def leases : Machine State Step where
  start := Start live startTime
  next := next live startTime labels

end

/-- At most one process holds the lease, and no acquire removed a live owner's file. -/
structure Exclusive (s : State) : Prop where
  sole : ∀ p q, (s.proc p).holds = true → (s.proc q).holds = true → p = q
  kept : s.robbed = false

/-- An acquire removes nothing but the file it has read, whose content had arrived. -/
def Settled (s : State) : Step → Prop
  | .advance p _ => ∀ found, (s.proc p).phase = .removing found →
      ∀ file, s.file = some file → found = some file.serial
  | _ => True

/-- A process that created a file and has not removed it. -/
def Proc.inside (proc : Proc) : Bool :=
  proc.holds || match proc.phase with
    | .filling .. | .unlinking => true
    | _ => false

def Marks (file : LeaseFile) (p : ℕ) : Prop := file.maker = some p

lemma marks_inj (file : LeaseFile) (p q : ℕ) (hp : Marks file p) (hq : Marks file q) : p = q :=
  some.inj (hp.symm.trans hq)

section
variable (live : ℕ → Bool) (startTime : ℕ → Text)

/-- A file that was there before names no process that runs; another names its maker. -/
structure Authentic (file : LeaseFile) : Prop where
  before : file.maker = none → file.serial = 0 ∧
    ∀ lease, file.record = some lease → ∀ p, live p = true →
      belongsTo lease (owner startTime p) = false
  created : ∀ q, file.maker = some q → live q = true ∧ 0 < file.serial ∧
    ∀ lease, file.record = some lease → lease.pid = q

/-- What a process knows of the file. What was there before is not seen again once it is
gone. -/
def Fits (file : Option LeaseFile) (p : ℕ) : Phase → Prop
  | .filling _ _ lease => lease.pid = p
  | .checking found existing => live existing.pid = true ∨ found = 0
  | .removing (some found) => found = 0
  | .removing none => ∀ f, file = some f → f.maker.isSome = true
  | _ => True

structure Inv (s : State) : Prop where
  backed : Backed s.file Marks (insiders Proc.inside s.proc)
  kept : s.robbed = false
  counted : 0 < s.serial
  authentic : ∀ file, s.file = some file → Authentic live startTime file
  fits : ∀ p, Fits live s.file p (s.proc p).phase
  running : ∀ p, (s.proc p).phase ≠ .idle → live p = true

end

section
variable {live : ℕ → Bool} {startTime : ℕ → Text} {labels : RedskilledLeaseLabels}
  {s t : State} {p q : ℕ}

lemma Inv.exclusive (h : Inv live startTime s) : Exclusive s := by
  constructor
  · intro p q hp hq
    apply h.backed.subsingleton marks_inj
    · simp [mem_insiders, Proc.inside, hp]
    · simp [mem_insiders, Proc.inside, hq]
  · exact h.kept

lemma Inv.maker (h : Inv live startTime s) (hp : (s.proc p).inside = true) :
    ∃ file, s.file = some file ∧ file.maker = some p := h.backed p hp

variable {file : LeaseFile} {found : Option ℕ} {lease : RedskilledLease} {reaped : Bool} {x : Proc}

lemma fits_update {file : Option LeaseFile} {proc : ℕ → Proc}
    (h : ∀ p, Fits live file p (proc p).phase) (hx : Fits live file p x.phase) (q : ℕ) :
    Fits live file q (Function.update proc p x q).phase := by
  by_cases hq : q = p
  · rw [hq, Function.update_self]
    exact hx
  · rw [Function.update_of_ne hq]
    exact h q

lemma running_update {proc : ℕ → Proc}
    (h : ∀ p, (proc p).phase ≠ .idle → live p = true) (hx : x.phase ≠ .idle → live p = true)
    (q : ℕ) (hq : (Function.update proc p x q).phase ≠ .idle) : live q = true := by
  by_cases hqp : q = p
  · rw [hqp, Function.update_self] at hq
    rw [hqp]
    exact hx hq
  · rw [Function.update_of_ne hqp] at hq
    exact h q hq

lemma Inv.move (h : Inv live startTime s)
    (hins : x.inside = true → (s.proc p).inside = true) (hfits : Fits live s.file p x.phase)
    (hlive : live p = true) :
    Inv live startTime { s with proc := Function.update s.proc p x } where
  backed := h.backed.stay hins
  kept := h.kept
  counted := h.counted
  authentic := h.authentic
  fits := fits_update h.fits hfits
  running := running_update h.running fun _ => hlive

lemma Inv.recognise (h : Inv live startTime s)
    (hfile : s.file = some file) (hmak : file.maker = some p)
    (hfits : Fits live s.file p x.phase) (hlive : live p = true) :
    Inv live startTime { s with proc := Function.update s.proc p x } where
  backed := by
    apply h.backed.join (Option.mem_def.mpr hfile) hmak
    intro q hq
    rw [mem_insiders_update] at hq
    split_ifs at hq with hqp
    · exact Or.inl hqp
    · exact Or.inr hq
  kept := h.kept
  counted := h.counted
  authentic := h.authentic
  fits := fits_update h.fits hfits
  running := running_update h.running fun _ => hlive

lemma Fits.renew {file file' : Option LeaseFile} {phase : Phase} (h : Fits live file p phase)
    (hfile : ∀ f', file' = some f' → f'.maker.isSome = true ∨
      ∃ f, file = some f ∧ f.maker = f'.maker) : Fits live file' p phase := by
  cases phase with
  | removing found =>
    cases found with
    | none =>
      intro f' hf'
      rcases hfile f' hf' with hmade | ⟨f, hf, hmak⟩
      · exact hmade
      · rw [← hmak]
        exact h f hf
    | some n => exact h
  | filling reaped serial lease => exact h
  | checking found existing => exact h
  | _ => trivial

lemma Inv.vanish (h : Inv live startTime s)
    (hoth : ∀ q, (s.proc q).inside = true → q = p) (hx : x.inside = false)
    (hfits : Fits live none p x.phase) (hlive : live p = true) :
    Inv live startTime { s with file := none, proc := Function.update s.proc p x } where
  backed := Backed.clear hoth hx
  kept := h.kept
  counted := h.counted
  authentic := by rintro file ⟨⟩
  fits := fits_update (fun q => (h.fits q).renew (by rintro f' ⟨⟩)) hfits
  running := running_update h.running fun _ => hlive

lemma Authentic.fits_unread (h : Authentic live startTime file) (hrec : file.record = none) :
    Fits live (some file) p (.removing (if file.whole then some file.serial else none)) := by
  cases hmak : file.maker with
  | none =>
    have hwhole : file.whole = true := by simp [LeaseFile.whole, hmak]
    rw [if_pos hwhole]
    exact (h.before hmak).1
  | some q =>
    have hwhole : file.whole = false := by simp [LeaseFile.whole, hmak, hrec]
    rw [hwhole]
    intro f hf
    rw [← some.inj hf, hmak]
    rfl

lemma Authentic.fits_record
    (h : Authentic live startTime file) (hrec : file.record = some lease) :
    Fits live (some file) p (.checking file.serial lease) := by
  cases hmak : file.maker with
  | none => exact Or.inr (h.before hmak).1
  | some q =>
    obtain ⟨hlive, -, hpid⟩ := h.created q hmak
    refine Or.inl ?_
    rw [hpid lease hrec]
    exact hlive

lemma Authentic.maker_of_own
    (h : Authentic live startTime file) (hrec : file.record = some lease)
    (hlive : live p = true) (hown : belongsTo lease (owner startTime p) = true) :
    file.maker = some p := by
  cases hmak : file.maker with
  | none =>
    rw [(h.before hmak).2 lease hrec p hlive] at hown
    cases hown
  | some q =>
    have hpid : lease.pid = q := (h.created q hmak).2.2 lease hrec
    have hp : lease.pid = p := by
      simp only [belongsTo, owner, Bool.and_eq_true, beq_iff_eq] at hown
      exact hown.1
    rw [← hpid, hp]

lemma Inv.create (h : Inv live startTime s) {now : Text}
    (hphase : (s.proc p).phase = .creating reaped) (hlive : live p = true) :
    Inv live startTime (create startTime labels s p reaped now) := by
  unfold SessionLease.create
  split
  · next hfile =>
      have hback := h.backed
      rw [hfile] at hback
      constructor
      · exact hback.enter rfl
      · exact h.kept
      · exact Nat.succ_pos _
      · intro file hnew
        cases hnew
        constructor
        · intro hnone
          cases hnone
        · intro q hq
          cases hq
          refine ⟨hlive, h.counted, ?_⟩
          intro lease hlease
          cases hlease
      · apply fits_update
        · intro q
          apply (h.fits q).renew
          intro f' hf'
          cases hf'
          exact Or.inl rfl
        · rfl
      · exact running_update h.running fun _ => hlive
  · apply h.move
    · intro hins
      simpa [Proc.inside, hphase] using hins
    · trivial
    · exact hlive

lemma Inv.fill (h : Inv live startTime s) {serial : ℕ}
    (hphase : (s.proc p).phase = .filling reaped serial lease) (hlive : live p = true) :
    Inv live startTime (SessionLease.fill s p reaped serial lease) := by
  have hin : (s.proc p).inside = true := by simp [Proc.inside, hphase]
  have hpid : lease.pid = p := by
    have hfits := h.fits p
    rw [hphase] at hfits
    exact hfits
  obtain ⟨file, hfile, hmak⟩ := h.maker hin
  have hfill : ∀ f', (s.file.map fun f =>
      if f.serial = serial then { f with record := some lease } else f) = some f' →
        f'.maker = some p ∧ Authentic live startTime f' := by
    intro f' hf'
    rw [hfile, map_some, some.injEq] at hf'
    have hold := h.authentic file hfile
    split_ifs at hf' with hser
    · subst hf'
      refine ⟨hmak, fun hnone => ?_, fun q hq => ?_⟩
      · rw [hmak] at hnone
        cases hnone
      · obtain ⟨hrunn, hpos, -⟩ := hold.created q hq
        refine ⟨hrunn, hpos, ?_⟩
        intro l hl
        rw [← some.inj hl, hpid]
        exact some.inj (hmak.symm.trans hq)
    · subst hf'
      exact ⟨hmak, hold⟩
  constructor
  · intro q hq
    have honly : q = p := by
      have hstay : Backed s.file Marks (insiders Proc.inside
          (Function.update s.proc p ⟨.idle, true, some (.acquired reaped lease)⟩)) :=
        h.backed.stay fun _ => hin
      apply hstay.subsingleton marks_inj hq
      simp [mem_insiders, Proc.inside]
    rw [honly]
    refine ⟨_, mem_map_of_mem _ (mem_def.mpr hfile), ?_⟩
    split_ifs <;> exact hmak
  · exact h.kept
  · exact h.counted
  · exact fun f' hf' => (hfill f' hf').2
  · apply fits_update
    · intro q
      apply (h.fits q).renew
      intro f' hf'
      rw [(hfill f' hf').1]
      exact Or.inl rfl
    · trivial
  · exact running_update h.running fun _ => hlive

lemma Inv.read (h : Inv live startTime s)
    (hphase : (s.proc p).phase = .reading reaped) (hlive : live p = true) :
    Inv live startTime (read startTime s p reaped) := by
  have hidle : (s.proc p).inside = (s.proc p).holds := by simp [Proc.inside, hphase]
  unfold SessionLease.read
  split
  · next hfile =>
      apply h.move
      · rw [hidle]
        simp [Proc.inside]
      · intro f hf
        rw [hfile] at hf
        cases hf
      · exact hlive
  · next file hfile =>
      have hauth := h.authentic file hfile
      split
      · next hrec =>
          apply h.move
          · rw [hidle]
            simp [Proc.inside]
          · rw [hfile]
            exact hauth.fits_unread hrec
          · exact hlive
      · next existing hrec =>
          split_ifs with hown
          · apply h.recognise hfile
            · exact hauth.maker_of_own hrec hlive hown
            · trivial
            · exact hlive
          · apply h.move
            · rw [hidle]
              simp [Proc.inside]
            · rw [hfile]
              exact hauth.fits_record hrec
            · exact hlive

lemma Inv.readOwn (h : Inv live startTime s) (hphase : (s.proc p).phase = .releasing)
    (hlive : live p = true) : Inv live startTime (readOwn startTime s p) := by
  unfold SessionLease.readOwn
  split_ifs with hown
  · obtain ⟨lease, hlease, hbel⟩ := (any_eq_true _ _).mp hown
    obtain ⟨file, hfile, hrec⟩ := bind_eq_some_iff.mp hlease
    apply h.recognise hfile
    · exact (h.authentic file hfile).maker_of_own hrec hlive hbel
    · trivial
    · exact hlive
  · apply h.move
    · simp [Proc.inside, hphase]
    · trivial
    · exact hlive

lemma Inv.unmade (h : Inv live startTime s)
    (hphase : (s.proc p).phase = .removing found) (hfile : s.file = some file)
    (hfound : found = some file.serial) : file.maker = none := by
  have hfits := h.fits p
  rw [hphase, hfound] at hfits
  have hzero : file.serial = 0 := hfits
  cases hmak : file.maker with
  | none => rfl
  | some q =>
    have hpos : 0 < file.serial := ((h.authentic file hfile).created q hmak).2.1
    omega

lemma Inv.removed (h : Inv live startTime s)
    (hphase : (s.proc p).phase = .removing found) (hlive : live p = true)
    (hsettl : ∀ file, s.file = some file → found = some file.serial) :
    Inv live startTime
      { s.goto p (.creating true) with
        file := none
        robbed := s.robbed || s.file.any (·.maker.isSome) } := by
  have hnob : ∀ q, (s.proc q).inside = false := by
    intro q
    apply Bool.eq_false_iff.mpr
    intro hq
    obtain ⟨file, hfile, hmak⟩ := h.maker hq
    rw [h.unmade hphase hfile (hsettl file hfile)] at hmak
    cases hmak
  have hx : Proc.inside { s.proc p with phase := .creating true } = false := by
    have hp := hnob p
    simp only [Proc.inside, hphase, Bool.or_false] at hp
    simp [Proc.inside, hp]
  have hgone := h.vanish (x := { s.proc p with phase := .creating true })
    (fun q hq => absurd hq (by simp [hnob q])) hx trivial hlive
  refine ⟨hgone.backed, ?_, hgone.counted, hgone.authentic, hgone.fits, hgone.running⟩
  rw [h.kept, Bool.false_or, Option.any_eq_false]
  intro file hfile
  rw [h.unmade hphase hfile (hsettl file hfile)]
  rfl

lemma Inv.advance (h : Inv live startTime s) {outside : Outside}
    (hsettl : Settled s (.advance p outside))
    (hn : advance live startTime labels s p outside = some t) : Inv live startTime t := by
  unfold SessionLease.advance at hn
  have hlive : (s.proc p).phase ≠ .idle → live p = true := h.running p
  cases hphase : (s.proc p).phase with
  | idle => simp [hphase] at hn
  | creating reaped =>
    simp only [hphase, some.injEq] at hn
    subst hn
    exact h.create hphase (hlive (by simp [hphase]))
  | filling reaped serial lease =>
    simp only [hphase, some.injEq] at hn
    subst hn
    exact h.fill hphase (hlive (by simp [hphase]))
  | reading reaped =>
    simp only [hphase, some.injEq] at hn
    subst hn
    exact h.read hphase (hlive (by simp [hphase]))
  | checking found existing =>
    simp only [hphase] at hn
    split_ifs at hn with halive
    · cases hn
      apply h.move
      · simp [Proc.inside, hphase]
      · trivial
      · exact hlive (by simp [hphase])
    · cases hn
      apply h.move
      · simp [Proc.inside, hphase]
      · have hfits := h.fits p
        rw [hphase] at hfits
        exact hfits.resolve_left fun hl => halive (by simp [hl])
      · exact hlive (by simp [hphase])
  | removing found =>
    simp only [hphase, some.injEq] at hn
    subst hn
    exact h.removed hphase (hlive (by simp [hphase])) (hsettl found hphase)
  | releasing =>
    simp only [hphase, some.injEq] at hn
    subst hn
    exact h.readOwn hphase (hlive (by simp [hphase]))
  | unlinking =>
    simp only [hphase, some.injEq] at hn
    subst hn
    have hin : (s.proc p).inside = true := by simp [Proc.inside, hphase]
    apply h.vanish
    · exact fun q hq => h.backed.subsingleton marks_inj hq hin
    · rfl
    · trivial
    · exact hlive (by simp [hphase])

lemma Inv.call (h : Inv live startTime s) {phase : Phase} (hfits : Fits live s.file p phase)
    (hins : Proc.inside { s.proc p with phase } = (s.proc p).holds)
    (hn : call live s p phase = some t) : Inv live startTime t := by
  unfold SessionLease.call at hn
  split_ifs at hn with hidle
  cases hn
  apply h.move
  · rw [hins]
    intro hholds
    simp [Proc.inside, hholds]
  · exact hfits
  · exact hidle.1

lemma Inv.step (h : Inv live startTime s) {a : Step} (hsettl : Settled s a)
    (hn : next live startTime labels s a = some t) : Inv live startTime t := by
  cases a with
  | acquire p => exact h.call (by trivial) (by simp [Proc.inside]) hn
  | release p => exact h.call (by trivial) (by simp [Proc.inside]) hn
  | advance p outside => exact h.advance hsettl hn

lemma inv_start (h : Start live startTime s) : Inv live startTime s := by
  obtain ⟨hproc, hkept, hser, hfile⟩ := h
  constructor
  · intro q hq
    rw [mem_insiders, hproc q] at hq
    cases hq
  · exact hkept
  · omega
  · intro file hf
    obtain ⟨hzero, hmak, hfor⟩ := hfile file hf
    constructor
    · exact fun _ => ⟨hzero, hfor⟩
    · intro q hq
      rw [hmak] at hq
      cases hq
  · intro q
    rw [hproc q]
    trivial
  · intro q hq
    rw [hproc q] at hq
    exact absurd rfl hq

lemma Inv.robs (h : Inv live startTime s) {outside : Outside}
    (hphase : (s.proc p).phase = .removing found) (huns : ¬ Settled s (.advance p outside))
    (hn : next live startTime labels s (.advance p outside) = some t) : t.robbed = true := by
  have hfound : ∃ file, s.file = some file ∧ found ≠ some file.serial := by
    by_contra hno
    apply huns
    intro found' hphase' file hfile
    rw [hphase, Phase.removing.injEq] at hphase'
    rw [← hphase']
    by_contra hne
    exact hno ⟨file, hfile, hne⟩
  obtain ⟨file, hfile, hne⟩ := hfound
  have hmade : file.maker.isSome = true := by
    have hfits := h.fits p
    rw [hphase] at hfits
    cases found with
    | none => exact hfits file hfile
    | some n =>
      have hzero : n = 0 := hfits
      cases hmak : file.maker with
      | none => exact absurd (by rw [hzero, ((h.authentic file hfile).before hmak).1]) hne
      | some q => rfl
  simp only [next, SessionLease.advance, hphase, some.injEq] at hn
  subst hn
  simp [hfile, hmade]

/-- In a run whose removals are all settled at most one process holds the lease, and no acquire
removes the file of a live owner. -/
theorem exclusive_while_settled (h : (leases live startTime labels).Reach Settled s) :
    Exclusive s ∧ ∀ p found outside t, (s.proc p).phase = .removing found →
      ¬ Settled s (.advance p outside) →
      next live startTime labels s (.advance p outside) = some t → t.robbed = true := by
  have hs : Inv live startTime s :=
    h.inv (Inv live startTime) (fun _ hstart => inv_start hstart)
      fun _ _ _ hinv hok hn => hinv.step hok hn
  exact ⟨hs.exclusive, fun p found outside t hphase hno hn => hs.robs hphase hno hn⟩

end

section

def settles (s : State) : Step → Bool
  | .advance p _ =>
    match (s.proc p).phase with
    | .removing found => s.file.all fun file => found = some file.serial
    | _ => true
  | _ => true

lemma settled_of_settles {s : State} {a : Step} (h : settles s a = true) : Settled s a := by
  cases a with
  | acquire p => trivial
  | release p => trivial
  | advance p outside =>
    intro found hphase file hfile
    simpa [settles, hphase, hfile] using h

def two (p : ℕ) : Bool := p == 1 || p == 2

def noLabels : RedskilledLeaseLabels := { sessionKeyHash := [], machineIdHash := [], socketPath := [] }

def sample : Machine State Step := leases two (fun _ => []) noLabels

def before (file : Option LeaseFile) : State :=
  { file, serial := 1, proc := fun _ => { phase := .idle, holds := false, answer := none }
    robbed := false }

def deadRecord : LeaseFile :=
  { serial := 0, maker := none, record := some (mint noLabels (owner (fun _ => []) 7) []) }

lemma start_nothing : sample.start (before none) :=
  ⟨fun _ => rfl, rfl, rfl, by rintro file ⟨⟩⟩

lemma start_dead : sample.start (before (some deadRecord)) := by
  refine ⟨fun _ => rfl, rfl, rfl, ?_⟩
  rintro file hfile
  cases hfile
  refine ⟨rfl, rfl, ?_⟩
  intro lease hlease p hp
  cases hlease
  have hne : (7 : ℕ) ≠ p := by
    rintro rfl
    cases hp
  simp [belongsTo, mint, owner, hne]

def moves (p n : ℕ) : List Step := List.replicate n (.advance p { now := [], pidAlive := false })

def emptyRead : List Step :=
  [Step.acquire 1] ++ moves 1 1 ++ [Step.acquire 2] ++ moves 2 4 ++ moves 1 1 ++ moves 2 1

def staleRemoval : List Step :=
  [Step.acquire 1, .acquire 2] ++ moves 1 3 ++ moves 2 3 ++ moves 1 3 ++ moves 2 1

/-- A file that is created and still empty is taken for one without an owner. -/
theorem not_always_one_holder :
    (¬ ∀ live startTime labels s, (leases live startTime labels).Reach anyStep s →
      ∀ p q, (s.proc p).holds = true → (s.proc q).holds = true → p = q) ∧
    ¬ ∀ live startTime labels s, (leases live startTime labels).Reach anyStep s →
      s.robbed = false := by
  constructor
  · intro h
    have hrun : (sample.exec (before none) emptyRead).map
        (fun s => ((s.proc 1).holds, (s.proc 2).holds)) = some (true, true) := by
      decide +kernel
    obtain ⟨s, hs, hholds⟩ := map_eq_some_iff.mp hrun
    have hreach : sample.Reach anyStep s := Machine.reach_of_exec start_nothing hs
    have heq := h _ _ _ s hreach 1 2 (congrArg Prod.fst hholds) (congrArg Prod.snd hholds)
    omega
  · intro h
    have hrun : (sample.exec (before (some deadRecord)) staleRemoval).map (·.robbed) =
        some true := by
      decide +kernel
    obtain ⟨s, hs, hrobb⟩ := map_eq_some_iff.mp hrun
    rw [h _ _ _ s (Machine.reach_of_exec start_dead hs)] at hrobb
    cases hrobb

def takeover : List Step :=
  [Step.acquire 1] ++ moves 1 6 ++ [Step.acquire 2] ++ moves 2 3

theorem taken_once : ∃ s, sample.execIf settles (before (some deadRecord)) takeover = some s ∧
      (s.proc 1).holds = true ∧ (s.proc 2).answer.isSome = true ∧ Exclusive s := by
  have hrun : (sample.execIf settles (before (some deadRecord)) takeover).map
      (fun s => ((s.proc 1).holds, (s.proc 2).answer.isSome)) = some (true, true) := by
    decide +kernel
  obtain ⟨s, hs, hholds⟩ := map_eq_some_iff.mp hrun
  have hreach : sample.Reach Settled s :=
    ⟨_, takeover, start_dead, (Machine.run_of_execIf hs).mono fun _ _ => settled_of_settles⟩
  exact ⟨s, hs, congrArg Prod.fst hholds, congrArg Prod.snd hholds,
    (exclusive_while_settled hreach).1⟩

end

end Redskilled.Host.SessionLease
