import Redskilled.Foundation.Machine
import Redskilled.Foundation.JsText
import Mathlib.Data.Fintype.Basic

/-!
# The local issue lease

Processes on one host acquire and release the lease of one issue through the
file system. The lease dir is the lock: a non-recursive `mkdir` takes it. It
carries a `pid` and an `owner` file, written one after the other, and a holder
judged dead is reclaimed by renaming its dir away and making a new one.

Each operation on the shared path is a step. The quarantine a dir is renamed to
is named after the pid and a counter of the reclaimer and touched by nobody
else, so it is not part of the state.
-/
namespace Redskilled.Tracker.IssueLease
open Foundation Foundation.Text

inductive TrackerClaimLiveness where
  | alive | dead | unknown
  deriving DecidableEq

inductive RefusalReason where
  | ownerAlive | ownerUnknown | lostRace
  deriving DecidableEq

def RefusalReason.text : RefusalReason → Text
  | .ownerAlive => "local lease owner is alive".toList
  | .ownerUnknown => "local lease owner liveness unknown".toList
  | .lostRace => "lost local lease reclaim race".toList

inductive LocalLeaseDecision where
  | acquired (previousOwner : Option Text)
  | refused (owner : Text) (reason : RefusalReason)
  deriving DecidableEq

structure LeaseDir where
  pid : Option Text
  owner : Option Text

def LeaseDir.blank : LeaseDir := { pid := none, owner := none }

/-- The processes of the host with their owner tokens and pids. -/
structure Roster (P : Type*) where
  owner : P → Text
  pid : P → Nat
  owner_inj : Function.Injective owner
  pid_inj : Function.Injective pid
  pid_pos : ∀ p, 0 < pid p

/-- Absent and blank files are both `undefined`. -/
def readLeaseFileTrimmed (file : Option Text) : Option Text :=
  file.bind fun raw => if trim raw = [] then none else some (trim raw)

/-- `/^[1-9][0-9]*$/` and the number it spells. -/
def parsePid (raw : Text) : Option Nat :=
  if raw.head?.any (fun c => c.isDigit && c != '0') && raw.all Char.isDigit then
    some (Nat.ofDigitChars 10 raw 0)
  else none

def readLeaseOwner (dir : Option LeaseDir) : Option Text :=
  readLeaseFileTrimmed (dir.bind LeaseDir.owner)

def readLeasePid (dir : Option LeaseDir) : Option Nat :=
  (readLeaseFileTrimmed (dir.bind LeaseDir.pid)).bind parsePid

def holderLivenessVerdict (holderPid : Option Nat) (holderOwner : Option Text)
    (liveness : Text → TrackerClaimLiveness) (pidAlive : Nat → TrackerClaimLiveness) :
    TrackerClaimLiveness :=
  match holderPid, holderOwner with
  | none, some owner => liveness owner
  | _, _ =>
    let pidVerdict := holderPid.map pidAlive
    let ownerVerdict := holderOwner.map liveness
    if pidVerdict = some .alive ∨ ownerVerdict = some .alive then .alive
    else if pidVerdict = some .dead ∨ ownerVerdict = some .dead ∨
        (holderPid = none ∧ holderOwner = none) then .dead
    else .unknown

def heldBy (holderOwner : Option Text) (holderPid : Option Nat) : Text :=
  holderOwner.getD ((holderPid.map number).getD "unknown".toList)

/-- Where a process stands in `acquireFsIssueLease` or `releaseFsIssueLease`. -/
inductive Phase where
  | idle
  | held
  | ownerRead (holderOwner : Option Text)
  | refreshPid
  | refreshOwner
  | reclaim (heldBy : Text)
  | renamed (heldBy : Text)
  | created (previousOwner : Option Text)
  | pidWritten (previousOwner : Option Text)
  | releasing
  | releaseOwnerRead (holderOwner : Option Text)
  | removing
  deriving DecidableEq

/-- `holds` is an acquire that returned `acquired: true` and was not released
since; `answer` is the last decision. -/
structure Proc where
  alive : Bool
  phase : Phase
  holds : Bool
  answer : Option LocalLeaseDecision
  deriving DecidableEq

def Proc.goto (pr : Proc) (phase : Phase) : Proc := { pr with phase }

def Proc.acquired (pr : Proc) (previousOwner : Option Text) : Proc :=
  { pr with phase := .idle, holds := true, answer := some (.acquired previousOwner) }

def Proc.refused (pr : Proc) (owner : Text) (reason : RefusalReason) : Proc :=
  { pr with phase := .idle, answer := some (.refused owner reason) }

def Proc.released (pr : Proc) : Proc := { pr with phase := .idle, holds := false }

structure Host (P : Type*) where
  dir : Option LeaseDir
  proc : P → Proc

inductive Step (P : Type*) where
  | acquire (p : P)
  | release (p : P)
  | advance (p : P) (liveness : Text → TrackerClaimLiveness)
      (pidAlive : Nat → TrackerClaimLiveness)
  | crash (p : P)

section
variable {P : Type*} [DecidableEq P] (R : Roster P)

def Host.set (s : Host P) (p : P) (pr : Proc) : Host P :=
  { s with proc := Function.update s.proc p pr }

def Host.put (s : Host P) (p : P) (pr : Proc) (dir : Option LeaseDir) : Host P :=
  { dir, proc := Function.update s.proc p pr }

def ownerFile (p : P) : Text := R.owner p ++ ['\n']

def pidFile (p : P) : Text := number (R.pid p)

/-- The lease is ours by its owner token, or by its pid where it has no owner. -/
def Recognises (p : P) (holderOwner : Option Text) (holderPid : Option Nat) : Prop :=
  holderOwner = some (R.owner p) ∨ holderOwner = none ∧ holderPid = some (R.pid p)

instance (p : P) (holderOwner : Option Text) (holderPid : Option Nat) :
    Decidable (Recognises R p holderOwner holderPid) := inferInstanceAs (Decidable (_ ∨ _))

/-- The exclusive `mkdir`; `lost` is what happens on `EEXIST`. -/
def tryMkdir (s : Host P) (p : P) (won lost : Proc) : Host P :=
  match s.dir with
  | none => s.put p won (some .blank)
  | some _ => s.set p lost

def writeFile (s : Host P) (p : P) (write : LeaseDir → LeaseDir) (pr : Proc) : Host P :=
  match s.dir with
  | none => s.set p ((s.proc p).goto .idle)
  | some dir => s.put p pr (some (write dir))

def decideHeld (pr : Proc) (p : P) (holderOwner : Option Text) (holderPid : Option Nat)
    (liveness : Text → TrackerClaimLiveness) (pidAlive : Nat → TrackerClaimLiveness) : Proc :=
  if Recognises R p holderOwner holderPid then
    if holderPid = none then pr.goto .refreshPid
    else if holderOwner = none then pr.goto .refreshOwner
    else pr.acquired none
  else
    match holderLivenessVerdict holderPid holderOwner liveness pidAlive with
    | .alive => pr.refused (heldBy holderOwner holderPid) .ownerAlive
    | .unknown => pr.refused (heldBy holderOwner holderPid) .ownerUnknown
    | .dead => pr.goto (.reclaim (heldBy holderOwner holderPid))

def advance (s : Host P) (p : P) (liveness : Text → TrackerClaimLiveness)
    (pidAlive : Nat → TrackerClaimLiveness) : Option (Host P) :=
  let pr := s.proc p
  match pr.phase with
  | .idle => none
  | .held => some (s.set p (pr.goto (.ownerRead (readLeaseOwner s.dir))))
  | .ownerRead holderOwner =>
    some (s.set p (decideHeld R pr p holderOwner (readLeasePid s.dir) liveness pidAlive))
  | .refreshPid =>
    some (writeFile s p (fun d => { d with pid := some (pidFile R p) }) (pr.acquired none))
  | .refreshOwner =>
    some (writeFile s p (fun d => { d with owner := some (ownerFile R p) }) (pr.acquired none))
  | .reclaim heldBy =>
    match s.dir with
    | none => some (s.set p (pr.refused heldBy .lostRace))
    | some _ => some (s.put p (pr.goto (.renamed heldBy)) none)
  | .renamed heldBy =>
    some (tryMkdir s p (pr.goto (.created (some heldBy))) (pr.refused heldBy .lostRace))
  | .created previousOwner =>
    some (writeFile s p (fun d => { d with pid := some (pidFile R p) })
      (pr.goto (.pidWritten previousOwner)))
  | .pidWritten previousOwner =>
    some (writeFile s p (fun d => { d with owner := some (ownerFile R p) })
      (pr.acquired previousOwner))
  | .releasing => some (s.set p (pr.goto (.releaseOwnerRead (readLeaseOwner s.dir))))
  | .releaseOwnerRead holderOwner =>
    if Recognises R p holderOwner (readLeasePid s.dir) then some (s.set p (pr.goto .removing))
    else some (s.set p pr.released)
  | .removing => some (s.put p pr.released none)

def next (s : Host P) : Step P → Option (Host P)
  | .acquire p =>
    if (s.proc p).alive ∧ (s.proc p).phase = .idle then
      some (tryMkdir s p ((s.proc p).goto (.created none)) ((s.proc p).goto .held))
    else none
  | .release p =>
    if (s.proc p).alive ∧ (s.proc p).phase = .idle then
      match s.dir with
      | none => some (s.set p (s.proc p).released)
      | some _ => some (s.set p ((s.proc p).goto .releasing))
    else none
  | .advance p liveness pidAlive =>
    if (s.proc p).alive then advance R s p liveness pidAlive else none
  | .crash p =>
    if (s.proc p).alive then some (s.set p { s.proc p with alive := false }) else none

def complete (p : P) : LeaseDir := { pid := some (pidFile R p), owner := some (ownerFile R p) }

/-- No lease dir, a blank one, or the complete lease of a dead holder. -/
def Start (s : Host P) : Prop :=
  (∀ p, (s.proc p).phase = .idle ∧ (s.proc p).holds = false) ∧ (s.dir = none ∨ s.dir = some .blank ∨
      ∃ d, (s.proc d).alive = false ∧ s.dir = some (complete R d))

def lease : Machine (Host P) (Step P) where
  start := Start R
  next := next R

/-- Nobody is told that a live process is dead, neither by its pid nor by its
token, as given or as its file reads back. -/
def Truthful (s : Host P) : Step P → Prop
  | .advance _ liveness pidAlive => ∀ q, (s.proc q).alive = true →
      liveness (R.owner q) ≠ .dead ∧
        (∀ token ∈ readLeaseFileTrimmed (some (ownerFile R q)), liveness token ≠ .dead) ∧
        pidAlive (R.pid q) ≠ .dead
  | _ => True

end

section
variable {P : Type*}

/-- A live process between its successful `mkdir` and the end of its release. -/
def Proc.Occupies (pr : Proc) : Prop :=
  pr.alive = true ∧ (pr.holds = true ∨ ∃ prev, pr.phase = .created prev ∨ pr.phase = .pidWritten prev)

def Phase.isReclaim : Phase → Bool
  | .reclaim _ => true
  | _ => false

/-- A lease dir is renamed away only while no live process occupies it. -/
def NoSteal (s : Host P) : Step P → Prop
  | .advance q _ _ => (s.proc q).phase.isReclaim = true → ∀ p, ¬ (s.proc p).Occupies
  | _ => True

/-- No token, once written and trimmed, reads as the token of another process. -/
def Roster.NoAlias (R : Roster P) : Prop :=
  ∀ p q, readLeaseFileTrimmed (some (ownerFile R p)) = some (R.owner q) → p = q

def Exclusive (s : Host P) : Prop :=
  ∀ p q, (s.proc p).alive = true → (s.proc q).alive = true →
    (s.proc p).holds = true → (s.proc q).holds = true → p = q

end

lemma toDigits_head {n : Nat} (h : 0 < n) :
    ∃ c cs, Nat.toDigits 10 n = c :: cs ∧ c ≠ '0' := by
  induction n using Nat.strong_induction_on with
  | _ n ih =>
    by_cases hn : n < 10
    · refine ⟨n.digitChar, [], Nat.toDigits_of_lt_base hn, ?_⟩
      simp only [ne_eq, Nat.digitChar_eq_zero]
      omega
    · obtain ⟨c, cs, hcs, hc⟩ := ih (n / 10) (by omega) (by omega)
      refine ⟨c, cs ++ [(n % 10).digitChar], ?_, hc⟩
      rw [Nat.toDigits_of_base_le (by decide) (by omega), hcs]
      rfl

lemma parsePid_number {n : Nat} (h : 0 < n) : parsePid (number n) = some n := by
  have hnum : number n = Nat.toDigits 10 n := by simp [number, Nat.repr]
  obtain ⟨c, cs, hcs, hc⟩ := toDigits_head h
  have hall : ∀ d ∈ Nat.toDigits 10 n, d.isDigit = true := fun d hd =>
    Nat.isDigit_of_mem_toDigits (by decide) (by decide) hd
  have hvalue : Nat.ofDigitChars 10 (Nat.toDigits 10 n) 0 = n := Nat.ofDigitChars_ten_toDigits
  have hhead : c.isDigit = true := hall c (by simp [hcs])
  rw [parsePid, hnum, hvalue, if_pos]
  rw [Bool.and_eq_true, List.all_eq_true]
  exact ⟨by simp [hcs, hhead, hc], hall⟩

section
variable {P : Type*} {R : Roster P}

lemma readLeasePid_pidFile (p : P) (owner : Option Text) :
    readLeasePid (some { pid := some (pidFile R p), owner }) = some (R.pid p) := by
  have hne : pidFile R p ≠ [] := by
    obtain ⟨c, cs, hcs, -⟩ := toDigits_head (R.pid_pos p)
    simp [pidFile, number, Nat.repr, hcs]
  have htrim : trim (pidFile R p) = pidFile R p := trim_of_free (whitespaceFree_number _)
  simp only [readLeasePid, Option.bind_some, readLeaseFileTrimmed, htrim, if_neg hne]
  exact parsePid_number (R.pid_pos p)

lemma pidFile_inj {p q : P} (h : pidFile R p = pidFile R q) : p = q := by
  have hp := readLeasePid_pidFile (R := R) p none
  rw [h, readLeasePid_pidFile] at hp
  exact (R.pid_inj (Option.some.inj hp)).symm

lemma ownerFile_inj {p q : P} (h : ownerFile R p = ownerFile R q) : p = q :=
  R.owner_inj (List.append_cancel_right h)

lemma not_recognises_complete {p : P}
    (h : ¬ Recognises R p (readLeaseOwner (some (complete R p))) (some (R.pid p))) :
    readLeaseOwner (some (complete R p)) ≠ none ∧
      readLeaseOwner (some (complete R p)) ≠ some (R.owner p) :=
  ⟨fun hn => h (Or.inr ⟨hn, rfl⟩), fun hs => h (Or.inl hs)⟩

lemma verdict_complete_ne_dead {p : P} {liveness : Text → TrackerClaimLiveness}
    {pidAlive : Nat → TrackerClaimLiveness}
    (htok : ∀ token ∈ readLeaseOwner (some (complete R p)), liveness token ≠ .dead)
    (hpid : pidAlive (R.pid p) ≠ .dead) :
    holderLivenessVerdict (some (R.pid p)) (readLeaseOwner (some (complete R p))) liveness
      pidAlive ≠ .dead := by
  generalize readLeaseOwner (some (complete R p)) = o at htok
  simp only [holderLivenessVerdict]
  split_ifs with h₁ h₂
  · decide
  · rcases h₂ with h | h | h
    · exact absurd (Option.some.inj h) hpid
    · obtain ⟨token, ho, ht⟩ := Option.map_eq_some_iff.mp h
      exact absurd ht (htok token ho)
    · exact absurd h.1 (by simp)
  · decide

end

end Redskilled.Tracker.IssueLease
