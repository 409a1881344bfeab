import Mathlib.Data.List.Dedup
import Mathlib.Algebra.Order.Ring.Rat
import Redskilled.Foundation.JsMap
import Redskilled.Foundation.JsText

/-!
# The census of orphaned Workers

A row of the census is a process that was reparented to the first one, or that an active unit
runs. Its environment may be stamped with a Worker, a birth and a unit. A leader of a group that
is stamped with a live and unheld Worker is to be adopted; nothing is to be signalled.

Where the event lane gives no births, they are derived from the leaders of the active units. That
takes a leader for each unit, one Worker for each of them, and one unit for each Worker.
-/
namespace Redskilled.Host.OrphanCensus
open Foundation List Option

/-- A process as the process table shows it, with an environment that may be unreadable. -/
structure ProcessEntry where
  pid : ℕ
  ppid : ℕ
  pgid : ℕ
  sid : ℕ
  starttime : Text
  /-- The age by the clock ticks of the host. -/
  ageMs : ℚ
  environ : Option Text
  cwd : Option Text

structure ProcessCensusRow where
  pid : ℕ
  ppid : ℕ
  pgid : ℕ
  sid : ℕ
  starttime : Text
  ageMs : ℚ
  workerId : Option Text
  bornAt : Option Text
  unit : Option Text
  cwd : Option Text
  underWorkersLane : Bool

def parseProcessEnvironment (raw : Text) : JsMap Text Text :=
  (raw.splitOn '\x00').foldl
    (fun environment field =>
      match field.takeWhile (· ≠ '='), field.dropWhile (· ≠ '=') with
      | [], _ => environment
      | _, [] => environment
      | name, _ :: value => environment.set name value)
    ∅

def stated (value : Option Text) : Option Text :=
  value.bind fun t => if t.trim = [] then none else some t.trim

/-- The segments of a normalised absolute path. -/
def normalParts (parts : List Text) : List Text :=
  parts.foldl
    (fun stack part =>
      if part = [] ∨ part = ['.'] then stack
      else if part = ['.', '.'] then stack.dropLast
      else stack ++ [part])
    []

/-- The first `.red/tmp` of the path decides. -/
def workersLaneOf : List Text → Bool
  | a :: b :: c :: parts =>
    if a = ".red".toList ∧ b = "tmp".toList then
      ["workers".toList, "go-workers".toList, "scout-workers".toList].contains c
    else workersLaneOf (b :: c :: parts)
  | _ => false

def isWorkersLanePath (path : Text) : Bool := workersLaneOf (normalParts (path.splitOn '/'))

def censusRow (activeWorkerUnits : List Text) (entry : ProcessEntry) : Option ProcessCensusRow :=
  let environment := parseProcessEnvironment (entry.environ.getD [])
  let unit := stated (environment.lookup "RED_WORKER_SCOPE".toList)
  let isActive := unit.any (· ∈ activeWorkerUnits)
  if entry.ppid ≠ 1 ∧ isActive = false then none
  else some
    { pid := entry.pid
      ppid := entry.ppid
      pgid := entry.pgid
      sid := entry.sid
      starttime := entry.starttime
      ageMs := max 0 entry.ageMs
      workerId := stated (environment.lookup "RED_WORKER_ID".toList)
      bornAt := stated (environment.lookup "RED_WORKER_BORN_AT".toList)
      unit := if isActive then unit else none
      cwd := entry.cwd
      underWorkersLane := entry.cwd.any isWorkersLanePath }

inductive CandidateKind where
  | reap
  | adopt
  | stranger
  | suspect
  deriving DecidableEq

structure Candidate where
  kind : CandidateKind
  process : ProcessCensusRow
  detail : Text

def stampedOrphanGraceMs : ℚ := 600000

def unstampedSuspectGraceMs : ℚ := 1800000

def adoptDetail (workerId : Text) : Text :=
  "stamped Worker ".toList ++ workerId ++ " has a live birth but no daemon holder".toList

def strangerDetail (workerId : Text) : Text :=
  "stamped Worker ".toList ++ workerId ++
    " has no birth record in this daemon and will never be signalled".toList

def suspectDetail (pid : ℕ) : Text :=
  "unstamped process ".toList ++ Text.number pid ++
    (" was reparented under a workers lane and is at least 30 minutes old; " ++
      "it will never be signalled").toList

def candidateOf (held live : Text → Bool) (process : ProcessCensusRow) : Option Candidate :=
  if process.ageMs < 0 then none
  else
    match stated process.workerId with
    | none =>
      if process.ppid = 1 ∧ process.underWorkersLane ∧ unstampedSuspectGraceMs ≤ process.ageMs then
        some ⟨.suspect, process, suspectDetail process.pid⟩
      else none
    | some workerId =>
      if process.pid ≠ process.pgid ∨ held workerId then none
      else if live workerId then some ⟨.adopt, process, adoptDetail workerId⟩
      else if process.ageMs < stampedOrphanGraceMs then none
      else some ⟨.stranger, process, strangerDetail workerId⟩

def selectOrphanReaperCandidatesOnly (held live : Text → Bool)
    (processes : List ProcessCensusRow) : List Candidate :=
  processes.filterMap (candidateOf held live)

structure UnitStamp where
  workerId : Text
  bornAt : Text
  unit : Text

/-- The stamp of a leader of a required unit. -/
def unitStamp (units : List Text) (process : ProcessCensusRow) : Option UnitStamp :=
  match stated process.workerId, stated process.bornAt, stated process.unit with
  | some workerId, some bornAt, some unit =>
    if process.pid ≠ process.pgid ∨ unit ∉ units then none else some ⟨workerId, bornAt, unit⟩
  | _, _, _ => none

structure Recovery where
  birthsByUnit : JsMap Text ProcessCensusRow
  workerUnits : JsMap Text Text
  ambiguous : Bool

def recoverStep (units : List Text) (r : Recovery) (process : ProcessCensusRow) : Recovery :=
  match unitStamp units process with
  | none => r
  | some stamp =>
    if (r.birthsByUnit.lookup stamp.unit).any (fun prior =>
          prior.workerId ≠ some stamp.workerId ∨ prior.bornAt ≠ some stamp.bornAt) ∨
        (r.workerUnits.lookup stamp.workerId).any (· ≠ stamp.unit) then
      { r with ambiguous := true }
    else
      { r with
        birthsByUnit := r.birthsByUnit.set stamp.unit process
        workerUnits := r.workerUnits.set stamp.workerId stamp.unit }

def recover (units : List Text) (processes : List ProcessCensusRow) : Recovery :=
  processes.foldl (recoverStep units) ⟨∅, ∅, false⟩

structure RecoveredActiveUnitBirths where
  births : List ProcessCensusRow
  complete : Bool

def recoverActiveUnitBirths (processes : List ProcessCensusRow) (activeWorkerUnits : List Text) :
    RecoveredActiveUnitBirths where
  births := (recover activeWorkerUnits processes).birthsByUnit.values
  complete := !(recover activeWorkerUnits processes).ambiguous &&
    (recover activeWorkerUnits processes).birthsByUnit.entries.length = activeWorkerUnits.dedup.length

lemma stated_stated (value : Option Text) : stated (stated value) = stated value := by
  cases value with
  | none => rfl
  | some t =>
    simp only [stated, bind_some]
    split_ifs with h
    · rfl
    · rw [bind_some, Text.trim_trim, if_neg h]

/-- The stamps of a row have no blanks about them. -/
structure Clean (process : ProcessCensusRow) : Prop where
  workerId : stated process.workerId = process.workerId
  bornAt : stated process.bornAt = process.bornAt

lemma clean_censusRow {units : List Text} {entry : ProcessEntry} {process : ProcessCensusRow}
    (h : censusRow units entry = some process) : Clean process := by
  unfold censusRow at h
  simp only at h
  obtain ⟨-, hrow⟩ := ite_none_left_eq_some.mp h
  cases hrow
  exact ⟨stated_stated _, stated_stated _⟩

/-- Every unit has a leader, the leaders of a unit are stamped alike, and a Worker is in one
unit. -/
structure UnitProof (units : List Text) (rows : List ProcessCensusRow) : Prop where
  complete : ∀ unit ∈ units, ∃ row ∈ rows, ∃ stamp ∈ unitStamp units row, stamp.unit = unit
  oneWorker : ∀ r ∈ rows, ∀ r' ∈ rows, ∀ a ∈ unitStamp units r, ∀ b ∈ unitStamp units r',
    a.unit = b.unit → a.workerId = b.workerId ∧ a.bornAt = b.bornAt
  oneUnit : ∀ r ∈ rows, ∀ r' ∈ rows, ∀ a ∈ unitStamp units r, ∀ b ∈ unitStamp units r',
    a.workerId = b.workerId → a.unit = b.unit

section
variable {units : List Text} {rows : List ProcessCensusRow} {process : ProcessCensusRow}
  {stamp : UnitStamp} {r : Recovery}

lemma unitStamp_eq_some (hclean : Clean process) (h : stamp ∈ unitStamp units process) :
    process.pid = process.pgid ∧ process.workerId = some stamp.workerId ∧
      process.bornAt = some stamp.bornAt ∧ stamp.unit ∈ units := by
  rw [← hclean.workerId, ← hclean.bornAt]
  unfold unitStamp at h
  cases hwork : stated process.workerId with
  | none => simp [hwork] at h
  | some workerId =>
    cases hborn : stated process.bornAt with
    | none => simp [hwork, hborn] at h
    | some bornAt =>
      cases hunit : stated process.unit with
      | none => simp [hwork, hborn, hunit] at h
      | some unit =>
        simp only [hwork, hborn, hunit] at h
        split_ifs at h with hskip
        · cases h
        · rw [not_or, not_not, not_not] at hskip
          cases h
          exact ⟨hskip.1, rfl, rfl, hskip.2⟩

/-- What is known behind the rows: a birth for each stamped unit, and unless they disagree each
stamp is that of the birth. -/
structure Recovered (units : List Text) (rows : List ProcessCensusRow) (r : Recovery) : Prop where
  births : ∀ unit prior, r.birthsByUnit.lookup unit = some prior →
    prior ∈ rows ∧ ∃ stamp ∈ unitStamp units prior, stamp.unit = unit
  stamped : r.ambiguous = false → ∀ row ∈ rows, ∀ stamp ∈ unitStamp units row,
    (∃ prior, r.birthsByUnit.lookup stamp.unit = some prior ∧
      prior.workerId = some stamp.workerId ∧ prior.bornAt = some stamp.bornAt) ∧
        r.workerUnits.lookup stamp.workerId = some stamp.unit

lemma Recovered.step (h : Recovered units rows r) (hclean : Clean process) :
    Recovered units (rows ++ [process]) (recoverStep units r process) := by
  have hbirths : ∀ unit prior, r.birthsByUnit.lookup unit = some prior →
      prior ∈ rows ++ [process] ∧ ∃ stamp ∈ unitStamp units prior, stamp.unit = unit := by
    intro unit prior hprior
    obtain ⟨hmem, hstamp⟩ := h.births unit prior hprior
    exact ⟨mem_append_left _ hmem, hstamp⟩
  unfold recoverStep
  cases hstamp : unitStamp units process with
  | none =>
    refine ⟨hbirths, fun hclear row hrow stamp hof => ?_⟩
    rcases mem_append.mp hrow with hrow | hrow
    · exact h.stamped hclear row hrow stamp hof
    · obtain rfl := mem_singleton.mp hrow
      rw [hstamp] at hof
      cases hof
  | some stamp =>
    simp only
    split_ifs with hclash
    · exact ⟨hbirths, by rintro ⟨⟩⟩
    · rw [not_or] at hclash
      obtain ⟨hprior, hunit⟩ := hclash
      obtain ⟨-, hwork, hborn, -⟩ := unitStamp_eq_some hclean hstamp
      constructor
      · intro unit prior hlook
        rw [JsMap.lookup_set] at hlook
        split_ifs at hlook with heq
        · cases hlook
          exact ⟨mem_append_right _ (mem_singleton_self _), stamp, hstamp, heq.symm⟩
        · exact hbirths unit prior hlook
      · intro hclear row hrow other hof
        simp only [JsMap.lookup_set]
        rcases mem_append.mp hrow with hrow | hrow
        · obtain ⟨⟨prior, hlook, hpriorW, hpriorB⟩, hoth⟩ :=
            h.stamped hclear row hrow other hof
          constructor
          · split_ifs with heq
            · rw [heq] at hlook
              rw [hlook] at hprior
              have hsame : prior.workerId = some stamp.workerId ∧
                  prior.bornAt = some stamp.bornAt := by simpa using hprior
              exact ⟨process, rfl, hwork.trans (hsame.1.symm.trans hpriorW),
                hborn.trans (hsame.2.symm.trans hpriorB)⟩
            · exact ⟨prior, hlook, hpriorW, hpriorB⟩
          · split_ifs with heq
            · rw [heq] at hoth
              rw [hoth] at hunit
              have hsame : other.unit = stamp.unit := by simpa using hunit
              rw [hsame]
            · exact hoth
        · obtain rfl := mem_singleton.mp hrow
          obtain rfl := some.inj (hstamp.symm.trans hof)
          rw [if_pos rfl, if_pos rfl]
          exact ⟨⟨_, rfl, hwork, hborn⟩, rfl⟩

variable (units) in
lemma recovered (hclean : ∀ row ∈ rows, Clean row) : Recovered units rows (recover units rows) := by
  induction rows using reverseRecOn with
  | nil =>
    constructor
    · rintro unit prior ⟨⟩
    · rintro - row ⟨⟩
  | append_singleton rows process ih =>
    have hrows := ih fun row hrow => hclean row (mem_append_left _ hrow)
    have hproc := hclean process (mem_append_right _ (mem_singleton_self _))
    have hstep : recover units (rows ++ [process]) =
        recoverStep units (recover units rows) process := by
      rw [recover, foldl_append]
      rfl
    rw [hstep]
    exact hrows.step hproc

lemma unitProof_of_complete (hclean : ∀ row ∈ rows, Clean row)
    (h : (recoverActiveUnitBirths rows units).complete = true) : UnitProof units rows := by
  have hrec := recovered units hclean
  simp only [recoverActiveUnitBirths, Bool.and_eq_true, Bool.not_eq_true', decide_eq_true_eq] at h
  obtain ⟨hclear, hsize⟩ := h
  have hstamped := hrec.stamped hclear
  constructor
  · -- the units of the births are as many as the required ones, and so all of them
    intro unit hunit
    have hsubs : (recover units rows).birthsByUnit.keys ⊆ units.dedup := by
      intro key hkey
      obtain ⟨prior, hprior⟩ := JsMap.mem_iff_lookup.mp hkey
      obtain ⟨hmem, stamp, hstamp, rfl⟩ := hrec.births key prior hprior
      exact mem_dedup.mpr (unitStamp_eq_some (hclean prior hmem) hstamp).2.2.2
    have hnod : (recover units rows).birthsByUnit.keys.Nodup :=
      (recover units rows).birthsByUnit.nodupKeys
    have hperm : (recover units rows).birthsByUnit.keys.Perm units.dedup := by
      apply (subperm_of_subset hnod hsubs).perm_of_length_le
      rw [← hsize]
      exact (length_map _).ge
    obtain ⟨prior, hprior⟩ := JsMap.mem_iff_lookup.mp
      (hperm.symm.subset (mem_dedup.mpr hunit))
    obtain ⟨hmem, hstamp⟩ := hrec.births unit prior hprior
    exact ⟨prior, hmem, hstamp⟩
  · intro row hrow row' hrow' a ha b hb hunit
    obtain ⟨⟨prior, hprior, hwork, hborn⟩, -⟩ := hstamped row hrow a ha
    obtain ⟨⟨prior', hprior', hwork', hborn'⟩, -⟩ := hstamped row' hrow' b hb
    rw [hunit] at hprior
    obtain rfl := some.inj (hprior.symm.trans hprior')
    exact ⟨some.inj (hwork.symm.trans hwork'), some.inj (hborn.symm.trans hborn')⟩
  · intro row hrow row' hrow' a ha b hb hwork
    obtain ⟨-, hunit⟩ := hstamped row hrow a ha
    obtain ⟨-, hunit'⟩ := hstamped row' hrow' b hb
    rw [hwork] at hunit
    exact some.inj (hunit.symm.trans hunit')

lemma birth_stamped (hclean : ∀ row ∈ rows, Clean row) {birth : ProcessCensusRow}
    (h : birth ∈ (recoverActiveUnitBirths rows units).births) :
    birth ∈ rows ∧ ∃ stamp, unitStamp units birth = some stamp := by
  obtain ⟨unit, hunit⟩ := JsMap.mem_values.mp h
  obtain ⟨hmem, stamp, hstamp, -⟩ := (recovered units hclean).births unit birth hunit
  exact ⟨hmem, stamp, hstamp⟩

end

section
variable {held live : Text → Bool} {process : ProcessCensusRow} {candidate : Candidate}

lemma candidateOf_spec (hclean : Clean process)
    (h : candidateOf held live process = some candidate) :
    candidate.process = process ∧ candidate.kind ≠ .reap ∧
      (candidate.kind = .adopt → process.pid = process.pgid ∧ ∃ workerId,
        process.workerId = some workerId ∧ held workerId = false ∧ live workerId = true) := by
  unfold candidateOf at h
  rw [hclean.workerId] at h
  obtain ⟨-, h⟩ := ite_none_left_eq_some.mp h
  cases hwork : process.workerId with
  | none =>
    rw [hwork] at h
    simp only at h
    split_ifs at h
    cases h
    exact ⟨rfl, by rintro ⟨⟩, by rintro ⟨⟩⟩
  | some workerId =>
    rw [hwork] at h
    simp only at h
    split_ifs at h with hskip hlive hyoung
    · cases h
      rw [not_or, not_not] at hskip
      exact ⟨rfl, by rintro ⟨⟩, fun _ =>
        ⟨hskip.1, workerId, rfl, Bool.eq_false_of_not_eq_true hskip.2, hlive⟩⟩
    · cases h
      exact ⟨rfl, by rintro ⟨⟩, by rintro ⟨⟩⟩

lemma mem_candidates {processes : List ProcessCensusRow} (hclean : ∀ row ∈ processes, Clean row)
    (h : candidate ∈ selectOrphanReaperCandidatesOnly held live processes) :
    candidate.process ∈ processes ∧ candidate.kind ≠ .reap ∧
      (candidate.kind = .adopt → candidate.process.pid = candidate.process.pgid ∧ ∃ workerId,
        candidate.process.workerId = some workerId ∧ held workerId = false ∧
          live workerId = true) := by
  obtain ⟨process, hproc, hcandidate⟩ := mem_filterMap.mp h
  obtain ⟨rfl, hkind⟩ := candidateOf_spec (hclean process hproc) hcandidate
  exact ⟨hproc, hkind⟩

end

end Redskilled.Host.OrphanCensus
