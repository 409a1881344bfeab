import Redskilled.Foundation.JsMap
import Redskilled.Foundation.Lifetimes
import Redskilled.Foundation.Machine
import Redskilled.Lane.Event

/-!
# How Workers end

Several paths of the daemon end a Worker: its process exits, its project stops it,
it stays over its budget past the grace, the liveness sweep finds it gone, or the
daemon releases it. All of them forget the Worker and record its end. Most ask the
host something first and await the answer, and while one waits another may run.

A stop and a budget kill of the same Worker join in the teardown ledger. The others
do not look again, when their answer comes, whether the Worker is still held: where
two paths overlap, both record its end. An adoption that comes late holds a Worker
again that has ended.
-/
namespace Redskilled.Daemon.Teardown
open Foundation Lane

structure Worker where
  workerId : Text
  unit : Option Text := none
  logPath : Option Text := none

/-- `worker.unit != null && worker.unit !== ""`. -/
def Worker.hasUnit (worker : Worker) : Bool := worker.unit.any (· ≠ [])

abbrev Entry := EventKind × Text

/-- How the lane calls a Worker's end. -/
inductive EndKind where
  | workerDeath | workerBudgetKill

def EndKind.eventKind : EndKind → EventKind
  | workerDeath => .workerDeath
  | workerBudgetKill => .workerBudgetKill

inductive ExitStage where
  | liveness | unitDeath | logTail

structure ObservedExit where
  worker : Worker
  stage : ExitStage := .liveness

structure WorkerStop where
  worker : Worker
  kind : EndKind
  settled : Bool := false

inductive Sweep where
  /-- The Workers still to be asked about, and those found dead. -/
  | probing (left dead : List Worker)
  | retiring (dead : List Worker)

structure State where
  workers : JsMap Text Worker
  lane : List Entry
  /-- `observedExitTail`: the exits in their order, the first one in progress. -/
  observedExits : List ObservedExit
  workerStops : JsMap Text WorkerStop
  deadlines : List Text
  sweeps : List Sweep
  orphans : List Worker
  stopping : Bool

namespace State
variable (d : State)

def record (kind : EventKind) (workerId : Text) : State :=
  if d.stopping then d else { d with lane := d.lane ++ [(kind, workerId)] }

def forgetWorker (workerId : Text) : State :=
  { d with workers := d.workers.erase workerId, deadlines := d.deadlines.filter (· ≠ workerId) }

def settle (kind : EndKind) (worker : Worker) : State :=
  (d.forgetWorker worker.workerId).record kind.eventKind worker.workerId

def startWorker (worker : Worker) : State :=
  { d with workers := d.workers.set worker.workerId worker }.record .workerBirth worker.workerId

def adopt (worker : Worker) : State :=
  { d with workers := d.workers.set worker.workerId worker }

/-- Place a teardown, or join the one there is. -/
def endWorkerOnce (kind : EndKind) (worker : Worker) : State :=
  if worker.workerId ∈ d.workerStops then d
  else { d with workerStops := d.workerStops.set worker.workerId ⟨worker, kind, false⟩ }

/-- The first exit has its answer. `resolveObservedExit` adopts the Worker where its
unit outlived the process; else it goes on, and settles behind the last answer. -/
def exitAnswer (alive : Bool) : Option State :=
  match d.observedExits with
  | [] => none
  | ⟨worker, .liveness⟩ :: rest =>
    if worker.hasUnit && alive then some ({ d with observedExits := rest }.adopt worker)
    else some { d with observedExits := ⟨worker, .unitDeath⟩ :: rest }
  | ⟨worker, .unitDeath⟩ :: rest =>
    if worker.logPath.isNone then
      some ({ d with observedExits := rest }.settle .workerDeath worker)
    else some { d with observedExits := ⟨worker, .logTail⟩ :: rest }
  | ⟨worker, .logTail⟩ :: rest =>
    some ({ d with observedExits := rest }.settle .workerDeath worker)

def sweepAnswer (index : ℕ) (alive : Bool) : Option State :=
  match d.sweeps[index]? with
  | some (.probing (worker :: left) dead) =>
    let dead := if alive then dead else dead ++ [worker]
    let sweep := if left.isEmpty then Sweep.retiring dead else .probing left dead
    some { d with sweeps := d.sweeps.set index sweep }
  | some (.retiring (worker :: dead)) =>
    some ({ d with sweeps := d.sweeps.set index (.retiring dead) }.settle .workerDeath worker)
  | _ => none

end State

inductive Step where
  /-- A birth of the daemon's own, or an adoption that records one. -/
  | start (worker : Worker)
  | exit (workerId : Text)
  | exitAnswer (alive : Bool)
  | stop (workerId : Text)
  | budgetGrace (workerId : Text)
  | deadline (workerId : Text)
  | stopAnswer (workerId : Text)
  | stopCleared (workerId : Text)
  | sweep (eligible : List Text)
  | sweepAnswer (index : ℕ) (alive : Bool)
  | release (workerId : Text)
  | selectOrphans (orphans : List Worker)
  | adoptOrphan
  | shutdown

def next (d : State) : Step → Option State
  | .start worker => some (d.startWorker worker)
  | .exit workerId =>
    match d.workers.lookup workerId with
    | none => some d
    | some worker => some { d with observedExits := d.observedExits ++ [⟨worker, .liveness⟩] }
  | .exitAnswer alive => d.exitAnswer alive
  | .stop workerId =>
    match d.workers.lookup workerId with
    | none => some d
    | some worker => some (d.endWorkerOnce .workerDeath worker)
  | .budgetGrace workerId =>
    match d.workers.lookup workerId with
    | none => some d
    | some worker =>
      if workerId ∈ d.deadlines then some d
      else
        let told := (d.record .workerBudgetVerdict worker.workerId).record .workerBudgetGrace
          worker.workerId
        some { told with deadlines := workerId :: told.deadlines }
  | .deadline workerId =>
    if workerId ∉ d.deadlines then none
    else
      let d := { d with deadlines := d.deadlines.filter (· ≠ workerId) }
      match d.workers.lookup workerId with
      | none => some d
      | some worker => some (d.endWorkerOnce .workerBudgetKill worker)
  | .stopAnswer workerId =>
    match d.workerStops.lookup workerId with
    | some ⟨worker, kind, false⟩ =>
      some ({ d with workerStops := d.workerStops.set workerId ⟨worker, kind, true⟩ }.settle
        kind worker)
    | _ => none
  | .stopCleared workerId =>
    match d.workerStops.lookup workerId with
    | some ⟨_, _, true⟩ => some { d with workerStops := d.workerStops.erase workerId }
    | _ => none
  | .sweep eligible =>
    let held := d.workers.values.filter (·.workerId ∈ eligible)
    if held.isEmpty then some d else some { d with sweeps := d.sweeps ++ [.probing held []] }
  | .sweepAnswer index alive => d.sweepAnswer index alive
  | .release workerId =>
    match d.workers.lookup workerId with
    | none => some d
    | some worker => some ((d.forgetWorker workerId).record .workerDeath worker.workerId)
  | .selectOrphans orphans =>
    if orphans.all fun w => w.workerId ∉ d.workers && (EventKind.workerBirth, w.workerId) ∈ d.lane
    then some { d with orphans := d.orphans ++ orphans } else none
  | .adoptOrphan =>
    match d.orphans with
    | [] => none
    | worker :: rest => some ({ d with orphans := rest }.adopt worker)
  | .shutdown => some { d with stopping := true }

def mark (entry : Entry) : Mark Text :=
  match entry.1 with
  | .workerBirth => .opens entry.2
  | .workerDeath | .workerBudgetKill => .closes entry.2
  | _ => .other

/-- Each recorded birth of a Worker is followed by at most one recorded end of that
Worker before its next birth. -/
def OneDeath (d : State) : Prop := Lifetimes.ClosedOnce mark d.lane

def settles (d : State) : Step → Option Worker
  | .exitAnswer _ =>
    match d.observedExits with
    | ⟨worker, .unitDeath⟩ :: _ => if worker.logPath.isNone then some worker else none
    | ⟨worker, .logTail⟩ :: _ => some worker
    | _ => none
  | .stopAnswer workerId =>
    match d.workerStops.lookup workerId with
    | some ⟨worker, _, false⟩ => some worker
    | _ => none
  | .sweepAnswer index _ =>
    match d.sweeps[index]? with
    | some (.retiring (worker :: _)) => some worker
    | _ => none
  | _ => none

/-- The Worker that a step holds without recording a birth. -/
def adopts (d : State) : Step → Option Worker
  | .exitAnswer alive =>
    match d.observedExits with
    | ⟨worker, .liveness⟩ :: _ => if worker.hasUnit && alive then some worker else none
    | _ => none
  | .adoptOrphan => d.orphans.head?
  | _ => none

def StillHeld (d : State) (step : Step) : Prop :=
  (∀ worker ∈ settles d step, worker.workerId ∈ d.workers) ∧
    ∀ worker ∈ adopts d step, Lifetimes.Unclosed mark worker.workerId d.lane

instance (d : State) (step : Step) : Decidable (StillHeld d step) :=
  inferInstanceAs (Decidable (_ ∧ _))

/-- A daemon that starts holds Workers whose birth is on the lane and whose end is
not; nothing waits. -/
def daemon : Machine State Step where
  start d :=
    OneDeath d ∧ (∀ workerId worker, d.workers.lookup workerId = some worker →
        worker.workerId = workerId ∧ Lifetimes.Unclosed mark workerId d.lane) ∧
      d.observedExits = [] ∧ d.workerStops = ∅ ∧ d.deadlines = [] ∧ d.sweeps = [] ∧
      d.orphans = [] ∧ d.stopping = false
  next := next

section
variable {d t : State} {step : Step} {kind : EventKind} {worker : Worker} {workerId : Text}

lemma lane_record : (d.record kind workerId).lane =
    if d.stopping then d.lane else d.lane ++ [(kind, workerId)] := by
  unfold State.record
  split <;> rfl

@[simp] lemma workers_record : (d.record kind workerId).workers = d.workers := by
  unfold State.record
  split <;> rfl

@[simp] lemma stopping_record : (d.record kind workerId).stopping = d.stopping := by
  unfold State.record
  split <;> rfl

lemma endWorkerOnce_same {kind : EndKind} : (d.endWorkerOnce kind worker).workers = d.workers ∧
      (d.endWorkerOnce kind worker).lane = d.lane ∧
      (d.endWorkerOnce kind worker).stopping = d.stopping := by
  unfold State.endWorkerOnce
  split
  · exact ⟨rfl, rfl, rfl⟩
  · exact ⟨rfl, rfl, rfl⟩

inductive Effect (d t : State) (step : Step) : Prop where
  | quiet (hworkers : t.workers = d.workers) (notes : List Entry)
      (hlane : t.lane = d.lane ++ notes) (hnotes : ∀ e ∈ notes, mark e = .other)
      (hstopping : d.stopping → t.stopping)
  | starts (worker : Worker) (hworkers : t.workers = d.workers.set worker.workerId worker)
      (hlane : t.lane = if d.stopping then d.lane else d.lane ++ [(.workerBirth, worker.workerId)])
      (hstopping : t.stopping = d.stopping)
  | adopts (worker : Worker) (hadopts : adopts d step = some worker)
      (hworkers : t.workers = d.workers.set worker.workerId worker) (hlane : t.lane = d.lane)
      (hstopping : t.stopping = d.stopping)
  | ends (workerId : Text) (kind : EndKind)
      (hheld : workerId ∈ d.workers ∨
        ∃ worker, settles d step = some worker ∧ worker.workerId = workerId)
      (hworkers : t.workers = d.workers.erase workerId)
      (hlane : t.lane = if d.stopping then d.lane else d.lane ++ [(kind.eventKind, workerId)])
      (hstopping : t.stopping = d.stopping)

lemma mark_eventKind (kind : EndKind) (workerId : Text) :
    mark (kind.eventKind, workerId) = .closes workerId := by
  cases kind <;> rfl

lemma Effect.same (hworkers : t.workers = d.workers) (hlane : t.lane = d.lane)
    (hstopping : d.stopping → t.stopping) : Effect d t step :=
  .quiet hworkers [] (by simp [hlane]) (by simp) hstopping

lemma Effect.settled {e : State} {kind : EndKind} (hworkers : e.workers = d.workers)
    (hlane : e.lane = d.lane) (hstopping : e.stopping = d.stopping)
    (hsettl : settles d step = some worker) : Effect d (e.settle kind worker) step := by
  refine .ends worker.workerId kind (Or.inr ⟨worker, hsettl, rfl⟩) ?_ ?_ ?_
  · simp [State.settle, State.forgetWorker, hworkers]
  · simp [State.settle, State.forgetWorker, lane_record, hlane, hstopping]
  · simp [State.settle, State.forgetWorker, hstopping]

lemma exitAnswer_effect {alive : Bool} (h : d.exitAnswer alive = some t) :
    Effect d t (.exitAnswer alive) := by
  unfold State.exitAnswer at h
  split at h
  · cases h
  · next worker rest hexits =>
    split_ifs at h with hadopts
    · cases h
      exact .adopts worker (by simp only [adopts, hexits, hadopts, if_true]) rfl rfl rfl
    · cases h
      exact .same rfl rfl id
  · next worker rest hexits =>
    split_ifs at h with hlog
    · cases h
      exact .settled rfl rfl rfl (by simp only [settles, hexits, hlog, if_true])
    · cases h
      exact .same rfl rfl id
  · next worker rest hexits =>
    cases h
    exact .settled rfl rfl rfl (by simp only [settles, hexits])

lemma sweepAnswer_effect {index : ℕ} {alive : Bool} (h : d.sweepAnswer index alive = some t) :
    Effect d t (.sweepAnswer index alive) := by
  unfold State.sweepAnswer at h
  split at h
  · cases h
    exact .same rfl rfl id
  · next worker dead hsweep =>
    cases h
    exact .settled rfl rfl rfl (by simp only [settles, hsweep])
  · cases h

lemma next_effect (hkeyed : ∀ id w, d.workers.lookup id = some w → w.workerId = id)
    (h : next d step = some t) : Effect d t step := by
  cases step with
  | start worker =>
    cases h
    exact .starts worker (by simp [State.startWorker]) (by simp [State.startWorker, lane_record])
      (by simp [State.startWorker])
  | exit workerId =>
    simp only [next] at h
    split at h
    · cases h
      exact .same rfl rfl id
    · cases h
      exact .same rfl rfl id
  | exitAnswer alive => exact exitAnswer_effect h
  | stop workerId =>
    simp only [next] at h
    split at h
    · cases h
      exact .same rfl rfl id
    · cases h
      obtain ⟨hworkers, hlane, hstopping⟩ := endWorkerOnce_same
      exact .same hworkers hlane hstopping.ge
  | budgetGrace workerId =>
    simp only [next] at h
    split at h
    · cases h
      exact .same rfl rfl id
    · next worker _ =>
      split_ifs at h
      · cases h
        exact .same rfl rfl id
      · cases h
        refine .quiet (by simp) (if d.stopping then [] else
          [(.workerBudgetVerdict, worker.workerId), (.workerBudgetGrace, worker.workerId)])
          ?_ ?_ (by simp)
        · by_cases hs : d.stopping
          · simp [lane_record, hs]
          · simp [lane_record, hs]
        · intro e he
          split_ifs at he
          · cases he
          · rcases List.mem_cons.mp he with rfl | he
            · rfl
            · rw [List.mem_singleton.mp he]
              rfl
  | deadline workerId =>
    simp only [next] at h
    split_ifs at h
    split at h
    · cases h
      exact .same rfl rfl id
    · cases h
      obtain ⟨hworkers, hlane, hstopping⟩ := endWorkerOnce_same
        (d := { d with deadlines := d.deadlines.filter (· ≠ workerId) })
      exact .same hworkers hlane hstopping.ge
  | stopAnswer workerId =>
    simp only [next] at h
    split at h
    · next worker kind hstop =>
      cases h
      exact .settled rfl rfl rfl (by simp only [settles, hstop])
    · cases h
  | stopCleared workerId =>
    simp only [next] at h
    split at h
    · cases h
      exact .same rfl rfl id
    · cases h
  | sweep eligible =>
    simp only [next] at h
    split_ifs at h
    · cases h
      exact .same rfl rfl id
    · cases h
      exact .same rfl rfl id
  | sweepAnswer index alive => exact sweepAnswer_effect h
  | release workerId =>
    simp only [next] at h
    split at h
    · cases h
      exact .same rfl rfl id
    · next worker hheld =>
      cases h
      have hid := hkeyed workerId worker hheld
      refine .ends workerId .workerDeath (Or.inl (JsMap.mem_iff_lookup.mpr ⟨worker, hheld⟩)) ?_ ?_ ?_
      · simp [State.forgetWorker]
      · simp [State.forgetWorker, lane_record, hid, EndKind.eventKind]
      · simp [State.forgetWorker]
  | selectOrphans orphans =>
    simp only [next] at h
    split_ifs at h
    cases h
    exact .same rfl rfl id
  | adoptOrphan =>
    simp only [next] at h
    split at h
    · cases h
    · next worker rest horph =>
      cases h
      exact .adopts worker (by simp only [adopts, horph, List.head?_cons]) rfl rfl rfl
  | shutdown =>
    cases h
    exact .same rfl rfl fun _ => rfl

end
end Redskilled.Daemon.Teardown
