import Redskilled.Foundation.IsoDate
import Redskilled.Host.OrphanCensus

/-!
# A sweep of the orphan reaper

A sweep takes one census, chooses its candidates by it, and awaits one adoption behind another.
What the rest of the daemon holds is read where the candidates are chosen, and may change at each
await. The first adoption that fails ends the sweep.
-/
namespace Redskilled.Host.OrphanSweep
open Foundation OrphanCensus List

structure WorkerView where
  workerId : Text
  projectLabel : Text
  pid : ℕ
  pgid : ℕ
  procStartTime : Text
  startedAt : Text
  workspacePath : Text
  isolated : Bool
  unit : Option Text
  warnings : List Text

inductive ReaperMode where
  | reap
  | report
  | off
  deriving DecidableEq

/-- What a sweep is told by the host and by the rest of the daemon. `none` is an answer that
throws. -/
structure HostState where
  authorized : Bool
  sweeping : Bool
  mode : ReaperMode
  activeWorkerUnits : Option (List Text)
  table : Option (List ProcessEntry)
  liveBirths : Option (List WorkerView)
  clock : Text
  held : Text → Bool

/-- What a candidate meets at its turn. -/
structure Turn where
  clock : Text
  held : Text → Bool
  adoptThrows : Bool
  starttime : Option Text
  killed : Bool

inductive Action where
  | report (detail : Text)
  | adopt (worker : WorkerView) (recordBirth : Bool) (detail : Text) (held : Text → Bool)
  | killGroup (pgid : ℕ)
  | recordReaped (worker : WorkerView) (detail : Text)

def unownedProjectLabel : Text := "(unowned)".toList

section
variable (dateParse : Text → Option ℤ)

def unknownWarning : Text :=
  ("adopted by the orphan reaper from the host process table: no daemon holder or live birth " ++
    "remained, so the owning project and budget are unknown").toList

def knownWarning : Text :=
  ("adopted by the orphan reaper from a live event-lane birth whose daemon holder was missing; " ++
    "the process-table identity now anchors it").toList

def inferredBirth (clock : Text) (ageMs : ℚ) : Text :=
  match dateParse clock with
  | none => clock
  | some nowMs => (IsoDate.toISOString (max 0 ((nowMs : ℚ) - ageMs)).floor).getD clock

def workerFromOrphanProcess (process : ProcessCensusRow) (clock : Text)
    (birth : Option WorkerView) : WorkerView where
  workerId := process.workerId.getD []
  projectLabel := (birth.map WorkerView.projectLabel).getD unownedProjectLabel
  pid := process.pid
  pgid := process.pgid
  procStartTime := process.starttime
  startedAt := ((birth.map WorkerView.startedAt).or process.bornAt).getD
    (inferredBirth dateParse clock process.ageMs)
  workspacePath := (process.cwd.or (birth.map WorkerView.workspacePath)).getD []
  isolated := process.unit.isSome
  unit := process.unit
  warnings := (birth.map WorkerView.warnings).getD [] ++
    [if birth.isNone then unknownWarning else knownWarning]

structure Inspection where
  candidates : List Candidate
  liveBirths : JsMap Text WorkerView
  recoveredBirthIds : List Text
  safeToAct : Bool
  reports : List Text

def rederivedReport (births : ℕ) : Text :=
  "orphan birth proof re-derived from ".toList ++ Text.number births ++
    (" active stamped Worker unit(s); the event lane can be reseeded before orphan " ++
      "teardown").toList

def withheldReport : Text :=
  ("orphan census withheld: the event lane and active unit census could not prove which " ++
    "stamped Workers still have live births").toList

def HostState.units (host : HostState) : List Text := host.activeWorkerUnits.getD []

def HostState.rows (host : HostState) : List ProcessCensusRow :=
  (host.table.getD []).filterMap (censusRow host.units)

/-- The births that a sweep goes by, with the ids that were derived from the units. `none` is a
sweep that may not act. -/
def HostState.births (host : HostState) : Option (List WorkerView × List Text) :=
  if host.rows.isEmpty then some ([], [])
  else
    match host.liveBirths with
    | some births => some (births, [])
    | none =>
      let recovered := recoverActiveUnitBirths host.rows host.units
      if host.activeWorkerUnits.isSome ∧ recovered.complete then
        let births := recovered.births.map fun process =>
          workerFromOrphanProcess dateParse process host.clock none
        some (births, births.map WorkerView.workerId)
      else none

def inspect (host : HostState) : Inspection :=
  let births := ((host.births dateParse).map Prod.fst).getD []
  let recoveredBirthIds := ((host.births dateParse).map Prod.snd).getD []
  let liveBirths := JsMap.ofRecords WorkerView.workerId births
  { candidates :=
      selectOrphanReaperCandidatesOnly host.held (fun id => decide (id ∈ liveBirths)) host.rows
    liveBirths := liveBirths
    recoveredBirthIds := recoveredBirthIds
    safeToAct := (host.births dateParse).isSome
    reports :=
      if (host.births dateParse).isNone then [withheldReport]
      else if host.rows.isEmpty ∨ host.liveBirths.isSome then []
      else [rederivedReport births.length] }

def recoveredDetail (detail : Text) : Text :=
  "adopted from an active unit after event-lane birth proof was unavailable: ".toList ++ detail

def adoptTurn (inspection : Inspection) (candidate : Candidate) (turn : Turn) :
    List Action × Bool :=
  let workerId := candidate.process.workerId.getD []
  let recoveredBirth := decide (workerId ∈ inspection.recoveredBirthIds)
  let worker := workerFromOrphanProcess dateParse candidate.process turn.clock
    (if recoveredBirth then none else inspection.liveBirths.lookup workerId)
  let adopted := Action.adopt worker recoveredBirth
    (if recoveredBirth then recoveredDetail candidate.detail else candidate.detail) turn.held
  if turn.adoptThrows then ([adopted], false) else ([adopted, .report candidate.detail], true)

def reapTurn (candidate : Candidate) (turn : Turn) : List Action × Bool :=
  let adopted := workerFromOrphanProcess dateParse candidate.process turn.clock none
  let adoption := Action.adopt adopted true
    ("adopted stamped orphan before group teardown: ".toList ++ candidate.detail) turn.held
  if turn.starttime ≠ some candidate.process.starttime then
    ([.report (candidate.detail ++ "; leader-starttime-changed".toList)], true)
  else if turn.adoptThrows then ([adoption], false)
  else if turn.killed then
    ([adoption, .killGroup candidate.process.pgid,
      .recordReaped adopted ("orphan-reaped: ".toList ++ candidate.detail)], true)
  else
    ([adoption, .killGroup candidate.process.pgid,
      .recordReaped adopted ("group-survived: process group ".toList ++
        Text.number candidate.process.pgid ++ " survived orphan teardown; ".toList ++
        candidate.detail),
      .report (candidate.detail ++ "; group-survived".toList)], true)

def candidateTurn (mode : ReaperMode) (inspection : Inspection) (candidate : Candidate)
    (turn : Turn) : List Action × Bool :=
  if mode = .report then
    ([.report (candidate.detail ++ "; report mode withheld adoption and signalling".toList)], true)
  else
    match candidate.kind with
    | .suspect | .stranger => ([.report candidate.detail], true)
    | .adopt => adoptTurn dateParse inspection candidate turn
    | .reap => reapTurn dateParse candidate turn

def turnsFrom (mode : ReaperMode) (inspection : Inspection) (turns : ℕ → Turn) :
    ℕ → List Candidate → List Action
  | _, [] => []
  | n, candidate :: candidates =>
    let r := candidateTurn dateParse mode inspection candidate (turns n)
    r.1 ++ if r.2 then turnsFrom mode inspection turns (n + 1) candidates else []

def HostState.sweeps (host : HostState) : Bool :=
  host.authorized && host.mode ≠ .off && !host.sweeping

def sweep (host : HostState) (turns : ℕ → Turn) : List Action :=
  if host.sweeps then
    let inspection := inspect dateParse host
    inspection.reports.map .report ++ if inspection.safeToAct then
        turnsFrom dateParse host.mode inspection turns 0 inspection.candidates
      else []
  else []

end

def Action.adoptedId : Action → Option Text
  | .adopt worker _ _ _ => some worker.workerId
  | _ => none

/-- A live birth of the Worker, or where the lane fails a proof by the units that has the
Worker. -/
def HostState.Proven (host : HostState) (workerId : Text) : Prop :=
  match host.liveBirths with
  | some births => workerId ∈ births.map WorkerView.workerId
  | none => host.activeWorkerUnits.isSome = true ∧ UnitProof host.units host.rows ∧
      ∃ row ∈ host.rows, ∃ stamp ∈ unitStamp host.units row, stamp.workerId = workerId

structure AdoptsOnce (host : HostState) (actions : List Action) : Prop where
  once : (actions.filterMap Action.adoptedId).Nodup
  leader : ∀ worker recordBirth detail held, Action.adopt worker recordBirth detail held ∈ actions →
    ∃ row ∈ host.rows, row.pid = row.pgid ∧ worker.pid = row.pid ∧
      row.workerId = some worker.workerId ∧ host.Proven worker.workerId
  unheld : ∀ worker recordBirth detail held, Action.adopt worker recordBirth detail held ∈ actions →
    held worker.workerId = false
  unsignalled : ∀ pgid, Action.killGroup pgid ∉ actions

section
variable (dateParse : Text → Option ℤ)

/-- Whether a sweep may adopt. -/
def HostState.Acts (host : HostState) : Prop :=
  host.sweeps = true ∧ host.mode = .reap ∧ (host.births dateParse).isSome = true

/-- The candidates to be adopted, up to the first whose adoption fails, each with its turn. -/
def adoptionsFrom (turns : ℕ → Turn) : ℕ → List Candidate → List (ProcessCensusRow × Turn)
  | _, [] => []
  | n, candidate :: candidates =>
    if candidate.kind = .adopt then
      (candidate.process, turns n) ::
        if (turns n).adoptThrows then [] else adoptionsFrom turns (n + 1) candidates
    else adoptionsFrom turns (n + 1) candidates

def Undisturbed (host : HostState) (turns : ℕ → Turn) : Prop :=
  ((adoptionsFrom turns 0 (inspect dateParse host).candidates).map fun a => a.1.workerId).Nodup ∧
    ∀ a ∈ adoptionsFrom turns 0 (inspect dateParse host).candidates,
      ∀ workerId ∈ a.1.workerId, a.2.held workerId = host.held workerId

end

section
variable {dateParse : Text → Option ℤ} {host : HostState} {turns : ℕ → Turn}
  {inspection : Inspection}

lemma clean_rows : ∀ row ∈ host.rows, Clean row := by
  intro row hrow
  obtain ⟨entry, -, hcens⟩ := mem_filterMap.mp hrow
  exact clean_censusRow hcens

def Action.adoption : Action → Option (Text × ℕ × (Text → Bool))
  | .adopt worker _ _ held => some (worker.workerId, worker.pid, held)
  | _ => none

lemma adoptedId_eq (a : Action) : a.adoptedId = a.adoption.map Prod.fst := by
  cases a <;> rfl

variable (dateParse turns inspection) in
lemma turns_spec (n : ℕ) {candidates : List Candidate} (h : ∀ c ∈ candidates, c.kind ≠ .reap) :
    (turnsFrom dateParse .reap inspection turns n candidates).filterMap Action.adoption =
        (adoptionsFrom turns n candidates).map
          (fun a => (a.1.workerId.getD [], a.1.pid, a.2.held)) ∧
      ∀ pgid, Action.killGroup pgid ∉ turnsFrom dateParse .reap inspection turns n candidates := by
  induction candidates generalizing n with
  | nil => exact ⟨rfl, fun _ => not_mem_nil⟩
  | cons candidate candidates ih =>
    obtain ⟨hadopti, hkills⟩ := ih (n + 1) fun c hc => h c (mem_cons_of_mem _ hc)
    have hrep : candidate.kind ≠ .adopt →
        candidateTurn dateParse .reap inspection candidate (turns n) =
          ([.report candidate.detail], true) := by
      intro hne
      cases hkind : candidate.kind with
      | reap => exact absurd hkind (h candidate mem_cons_self)
      | adopt => exact absurd hkind hne
      | stranger => simp [candidateTurn, hkind]
      | suspect => simp [candidateTurn, hkind]
    rw [turnsFrom, adoptionsFrom]
    by_cases hkind : candidate.kind = .adopt
    · have hturn : candidateTurn dateParse .reap inspection candidate (turns n) =
          adoptTurn dateParse inspection candidate (turns n) := by
        simp [candidateTurn, hkind]
      rw [if_pos hkind, hturn]
      cases hthr : (turns n).adoptThrows with
      | true => simp [adoptTurn, hthr, Action.adoption, workerFromOrphanProcess]
      | false =>
        simp [adoptTurn, hthr, filterMap_cons, Action.adoption, workerFromOrphanProcess,
          hadopti, hkills]
    · rw [if_neg hkind, hrep hkind]
      simp [filterMap_cons, Action.adoption, hadopti, hkills]

variable (turns) in
lemma sweep_idle (h : ¬host.Acts dateParse) :
    (sweep dateParse host turns).filterMap Action.adoption = [] ∧
      ∀ pgid, Action.killGroup pgid ∉ sweep dateParse host turns := by
  have hrepor : ∀ reports : List Text, (reports.map Action.report).filterMap Action.adoption = [] ∧
      ∀ pgid, Action.killGroup pgid ∉ reports.map Action.report := by
    intro reports
    constructor
    · rw [filterMap_map]
      exact filterMap_eq_nil_iff.mpr fun _ _ => rfl
    · rintro pgid hmem
      obtain ⟨_, -, hreport⟩ := mem_map.mp hmem
      cases hreport
  have hturns : ∀ n candidates,
      (turnsFrom dateParse .report (inspect dateParse host) turns n candidates).filterMap
          Action.adoption = [] ∧
        ∀ pgid, Action.killGroup pgid ∉
          turnsFrom dateParse .report (inspect dateParse host) turns n candidates := by
    intro n candidates
    induction candidates generalizing n with
    | nil => exact ⟨rfl, fun _ => not_mem_nil⟩
    | cons candidate candidates ih =>
      obtain ⟨hadopti, hkills⟩ := ih (n + 1)
      rw [turnsFrom]
      simp [candidateTurn, filterMap_cons, Action.adoption, hadopti, hkills]
  unfold sweep
  by_cases hsweeps : host.sweeps = true
  · rw [if_pos hsweeps]
    by_cases hsafe : (inspect dateParse host).safeToAct = true
    · have hmode : host.mode = .report := by
        cases hm : host.mode with
        | reap => exact absurd ⟨hsweeps, hm, hsafe⟩ h
        | report => rfl
        | off => simp [HostState.sweeps, hm] at hsweeps
      obtain ⟨hadopti, hkills⟩ := hturns 0 (inspect dateParse host).candidates
      obtain ⟨hrep, hsil⟩ := hrepor (inspect dateParse host).reports
      simp only [hsafe, hmode, if_true, filterMap_append, hadopti, hrep,
        mem_append, not_or, append_nil, true_and]
      exact fun pgid => ⟨hsil pgid, hkills pgid⟩
    · simp only [hsafe, Bool.false_eq_true, if_false, append_nil]
      exact hrepor (inspect dateParse host).reports
  · rw [if_neg hsweeps]
    exact ⟨rfl, fun _ => not_mem_nil⟩

variable (turns) in
lemma sweep_acts (h : host.Acts dateParse)
    (hreap : ∀ c ∈ (inspect dateParse host).candidates, c.kind ≠ .reap) :
    (sweep dateParse host turns).filterMap Action.adoption =
        (adoptionsFrom turns 0 (inspect dateParse host).candidates).map
          (fun a => (a.1.workerId.getD [], a.1.pid, a.2.held)) ∧
      ∀ pgid, Action.killGroup pgid ∉ sweep dateParse host turns := by
  obtain ⟨hsweeps, hmode, hsafe⟩ := h
  have hacts : (inspect dateParse host).safeToAct = true := hsafe
  obtain ⟨hadopti, hkills⟩ := turns_spec dateParse turns (inspect dateParse host)
    0 hreap
  have hrep : ((inspect dateParse host).reports.map Action.report).filterMap Action.adoption =
      [] := by
    rw [filterMap_map]
    exact filterMap_eq_nil_iff.mpr fun _ _ => rfl
  unfold sweep
  rw [if_pos hsweeps]
  simp only [hacts, hmode, if_true, filterMap_append, hrep, nil_append]
  refine ⟨hadopti, fun pgid hmem => ?_⟩
  rcases mem_append.mp hmem with hmem | hmem
  · obtain ⟨_, -, hreport⟩ := mem_map.mp hmem
    cases hreport
  · exact hkills pgid hmem

lemma mem_adoptionsFrom {n : ℕ} {candidates : List Candidate} {a : ProcessCensusRow × Turn}
    (h : a ∈ adoptionsFrom turns n candidates) :
    ∃ c ∈ candidates, c.kind = .adopt ∧ c.process = a.1 := by
  induction candidates generalizing n with
  | nil => cases h
  | cons candidate candidates ih =>
    rw [adoptionsFrom] at h
    split_ifs at h with hkind hthr
    · obtain rfl := mem_singleton.mp h
      exact ⟨candidate, mem_cons_self, hkind, rfl⟩
    · rcases mem_cons.mp h with rfl | h
      · exact ⟨candidate, mem_cons_self, hkind, rfl⟩
      · obtain ⟨c, hc, hadopt⟩ := ih h
        exact ⟨c, mem_cons_of_mem _ hc, hadopt⟩
    · obtain ⟨c, hc, hadopt⟩ := ih h
      exact ⟨c, mem_cons_of_mem _ hc, hadopt⟩

lemma proven_of_birth {births : List WorkerView} {recoveredIds : List Text} {workerId : Text}
    (hbirths : host.births dateParse = some (births, recoveredIds))
    (hrows : host.rows.isEmpty = false) (hmem : workerId ∈ births.map WorkerView.workerId) :
    host.Proven workerId := by
  unfold HostState.births at hbirths
  rw [hrows, if_neg Bool.false_ne_true] at hbirths
  unfold HostState.Proven
  cases hlane : host.liveBirths with
  | some lane =>
    rw [hlane] at hbirths
    obtain rfl := (Prod.mk.inj (Option.some.inj hbirths)).1
    exact hmem
  | none =>
    rw [hlane] at hbirths
    simp only at hbirths
    obtain ⟨⟨hunits, hcompl⟩, hbirths⟩ := Option.ite_none_right_eq_some.mp hbirths
    obtain rfl := (Prod.mk.inj (Option.some.inj hbirths)).1
    refine ⟨hunits, unitProof_of_complete clean_rows hcompl, ?_⟩
    rw [map_map] at hmem
    obtain ⟨birth, hbirth, rfl⟩ := mem_map.mp hmem
    obtain ⟨hrow, stamp, hstamp⟩ := birth_stamped clean_rows hbirth
    have hwork := (unitStamp_eq_some (clean_rows birth hrow) hstamp).2.1
    refine ⟨birth, hrow, stamp, hstamp, ?_⟩
    simp [workerFromOrphanProcess, hwork]

lemma candidates_spec {c : Candidate} (h : c ∈ (inspect dateParse host).candidates) :
    c.process ∈ host.rows ∧ c.kind ≠ .reap ∧
      (c.kind = .adopt → (host.births dateParse).isSome = true → c.process.pid = c.process.pgid ∧
        ∃ workerId, c.process.workerId = some workerId ∧ host.held workerId = false ∧
          host.Proven workerId) := by
  obtain ⟨hrow, hreap, hadopt⟩ := mem_candidates clean_rows h
  refine ⟨hrow, hreap, fun hkind hsafe => ?_⟩
  obtain ⟨hlead, workerId, hwork, hheld, hlive⟩ := hadopt hkind
  refine ⟨hlead, workerId, hwork, hheld, ?_⟩
  obtain ⟨⟨births, recoveredIds⟩, hbirths⟩ := Option.isSome_iff_exists.mp hsafe
  have hmem : workerId ∈ births.map WorkerView.workerId := by
    have hlive' := of_decide_eq_true hlive
    rw [JsMap.mem_ofRecords, hbirths] at hlive'
    exact hlive'
  have hrows : host.rows.isEmpty = false := by
    cases hempty : host.rows.isEmpty with
    | false => rfl
    | true =>
      rw [isEmpty_iff.mp hempty] at hrow
      cases hrow
  exact proven_of_birth hbirths hrows hmem

lemma filterMap_adoptedId (actions : List Action) :
    actions.filterMap Action.adoptedId = (actions.filterMap Action.adoption).map Prod.fst := by
  rw [map_filterMap]
  exact filterMap_congr fun a _ => adoptedId_eq a

lemma adoption_mem {actions : List Action} {worker : WorkerView} {recordBirth : Bool}
    {detail : Text} {held : Text → Bool} (h : Action.adopt worker recordBirth detail held ∈ actions) :
    (worker.workerId, worker.pid, held) ∈ actions.filterMap Action.adoption :=
  mem_filterMap.mpr ⟨_, h, rfl⟩

lemma adopt_of_adoption {actions : List Action} {workerId : Text} {pid : ℕ} {held : Text → Bool}
    (h : (workerId, pid, held) ∈ actions.filterMap Action.adoption) :
    ∃ worker recordBirth detail, Action.adopt worker recordBirth detail held ∈ actions ∧
      worker.workerId = workerId := by
  obtain ⟨a, ha, hadoption⟩ := mem_filterMap.mp h
  cases a with
  | adopt worker recordBirth detail held' =>
    cases hadoption
    exact ⟨worker, recordBirth, detail, ha, rfl⟩
  | _ => cases hadoption

variable (turns) in
lemma asked_spec (h : host.Acts dateParse) :
    ∀ a ∈ adoptionsFrom turns 0 (inspect dateParse host).candidates,
      a.1 ∈ host.rows ∧ a.1.pid = a.1.pgid ∧ ∃ workerId, a.1.workerId = some workerId ∧
        host.held workerId = false ∧ host.Proven workerId := by
  intro a ha
  obtain ⟨c, hc, hkind, hproc⟩ := mem_adoptionsFrom ha
  obtain ⟨hrow, -, hadopt⟩ := candidates_spec hc
  rw [← hproc]
  exact ⟨hrow, hadopt hkind h.2.2⟩

lemma once_iff {asked : List (ProcessCensusRow × Turn)}
    (h : ∀ a ∈ asked, ∃ workerId, a.1.workerId = some workerId) :
    (asked.map fun a => a.1.workerId.getD []).Nodup ↔ (asked.map fun a => a.1.workerId).Nodup := by
  have hsome : (asked.map fun a => a.1.workerId) =
      (asked.map fun a => a.1.workerId.getD []).map some := by
    rw [map_map]
    apply map_congr_left
    intro a ha
    obtain ⟨workerId, hwork⟩ := h a ha
    rw [Function.comp_apply, hwork, Option.getD_some]
  rw [hsome, nodup_map_iff (Option.some_injective _)]

end

/-- A sweep adopts each unheld live Worker at most once where no two leaders that it comes to are
stamped alike, and what the daemon holds of each does not change before its turn. -/
theorem adopts_once_iff (dateParse : Text → Option ℤ) (host : HostState) (turns : ℕ → Turn) :
    AdoptsOnce host (sweep dateParse host turns) ↔
      (host.Acts dateParse → Undisturbed dateParse host turns) := by
  by_cases hacts : host.Acts dateParse
  · have hask := asked_spec turns hacts
    obtain ⟨hadopti, hkills⟩ := sweep_acts turns hacts
      fun c hc => (candidates_spec hc).2.1
    have honce := once_iff fun a ha => (hask a ha).2.2.imp fun _ h => h.1
    have hids : (sweep dateParse host turns).filterMap Action.adoptedId =
        (adoptionsFrom turns 0 (inspect dateParse host).candidates).map
          fun a => a.1.workerId.getD [] := by
      rw [filterMap_adoptedId, hadopti, map_map]
      rfl
    constructor
    · intro h _
      refine ⟨honce.mp (hids ▸ h.once), ?_⟩
      intro a ha workerId hwork
      obtain ⟨-, -, id, hid, hheld, -⟩ := hask a ha
      obtain rfl := Option.some.inj (hid.symm.trans hwork)
      have hmem : (id, a.1.pid, a.2.held) ∈
          (sweep dateParse host turns).filterMap Action.adoption := by
        rw [hadopti]
        exact mem_map.mpr ⟨a, ha, by rw [hid]; rfl⟩
      obtain ⟨worker, recordBirth, detail, hadopt, rfl⟩ := adopt_of_adoption hmem
      rw [h.unheld _ _ _ _ hadopt, hheld]
    · intro h
      obtain ⟨hnod, hsame⟩ := h hacts
      have hof : ∀ worker recordBirth detail held,
          Action.adopt worker recordBirth detail held ∈ sweep dateParse host turns →
            ∃ a ∈ adoptionsFrom turns 0 (inspect dateParse host).candidates,
              a.1.workerId = some worker.workerId ∧ a.1.pid = worker.pid ∧ a.2.held = held := by
        intro worker recordBirth detail held hadopt
        have hmem := adoption_mem hadopt
        rw [hadopti] at hmem
        obtain ⟨a, ha, heq⟩ := mem_map.mp hmem
        obtain ⟨-, -, id, hid, -⟩ := hask a ha
        simp only [Prod.mk.injEq, hid, Option.getD_some] at heq
        exact ⟨a, ha, by rw [hid, heq.1], heq.2⟩
      refine ⟨hids ▸ honce.mpr hnod, ?_, ?_, hkills⟩
      · intro worker recordBirth detail held hadopt
        obtain ⟨a, ha, hwork, hpid, -⟩ := hof _ _ _ _ hadopt
        obtain ⟨hrow, hlead, id, hid, -, hprov⟩ := hask a ha
        obtain rfl := Option.some.inj (hid.symm.trans hwork)
        exact ⟨a.1, hrow, hlead, hpid.symm, hid, hprov⟩
      · intro worker recordBirth detail held hadopt
        obtain ⟨a, ha, hwork, -, rfl⟩ := hof _ _ _ _ hadopt
        obtain ⟨-, -, id, hid, hheld, -⟩ := hask a ha
        obtain rfl := Option.some.inj (hid.symm.trans hwork)
        rw [hsame a ha _ hwork, hheld]
  · obtain ⟨hnone, hkills⟩ := sweep_idle turns hacts
    have hno : ∀ worker recordBirth detail held,
        Action.adopt worker recordBirth detail held ∉ sweep dateParse host turns := by
      intro worker recordBirth detail held hadopt
      have hmem := adoption_mem hadopt
      rw [hnone] at hmem
      cases hmem
    refine ⟨fun _ h => absurd h hacts, fun _ => ⟨?_, ?_, ?_, hkills⟩⟩
    · rw [filterMap_adoptedId, hnone]
      exact nodup_nil
    · exact fun _ _ _ _ hadopt => absurd hadopt (hno _ _ _ _)
    · exact fun _ _ _ _ hadopt => absurd hadopt (hno _ _ _ _)

section

def stamped (pid : ℕ) : ProcessEntry where
  pid := pid
  ppid := 1
  pgid := pid
  sid := pid
  starttime := "1".toList
  ageMs := 60000
  environ := some "RED_WORKER_ID=w".toList
  cwd := none

def birth : WorkerView where
  workerId := "w".toList
  projectLabel := "owner/name".toList
  pid := 10
  pgid := 10
  procStartTime := "1".toList
  startedAt := "2026-06-10T12:00:00.000Z".toList
  workspacePath := []
  isolated := false
  unit := none
  warnings := []

def twoLeaders : HostState where
  authorized := true
  sweeping := false
  mode := .reap
  activeWorkerUnits := some []
  table := some [stamped 10, stamped 11]
  liveBirths := some [birth]
  clock := "2026-06-10T12:00:00.000Z".toList
  held _ := false

/-- The Worker is held from the second turn on. -/
def turnsOf (n : ℕ) : Turn where
  clock := "2026-06-10T12:00:00.000Z".toList
  held workerId := 0 < n && workerId = "w".toList
  adoptThrows := false
  starttime := none
  killed := false

/-- Two process groups carry one worker's stamp, and both are adopted. -/
theorem adopted_twice : ¬ ∀ (dateParse : Text → Option ℤ) (host : HostState) (turns : ℕ → Turn),
      AdoptsOnce host (sweep dateParse host turns) := by
  intro h
  have hsweep := (h (fun _ => some 1781092800000) twoLeaders turnsOf).once
  have htwice : (sweep (fun _ => some 1781092800000) twoLeaders turnsOf).filterMap Action.adoptedId =
      ["w".toList, "w".toList] := by decide +kernel
  rw [htwice] at hsweep
  exact absurd hsweep (by decide)

end

end Redskilled.Host.OrphanSweep
