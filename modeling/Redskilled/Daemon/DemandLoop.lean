import Redskilled.Daemon.DemandPlan
import Redskilled.Foundation.JsMap
import Redskilled.Foundation.Machine

/-!
# The demand loop

A tick sweeps for dead Workers, counts the live ones, plans, polls the queue when the
plan asks for anything, plans again, and performs the births one by one. Everything
else the daemon does may happen while it waits: deaths fold into the birth breaker,
projects register, polls count, other clients start Workers.

A birth goes one of two ways. A project without a prompt gets a Worker that the tick
itself starts, and when its breaker is half-open that Worker is marked as the probe.
A project with a prompt gets an unattended turn, which starts its Worker on its own
time; the tick does not wait for it and marks nothing.
-/
namespace Redskilled.Daemon.Demand
open Foundation

structure Host where
  labelLe : Text → Text → Bool
  acpControlPlane : Bool
  demandBackoffMs : ℕ

structure Registration where
  argv : List Text := []
  workspacePath : Text := []
  target : ℕ
  harvest : Option HarvestWatch := none
  prompt : Option Text := none

structure ProjectQueue where
  projectLabel : Text
  depth : Option ℕ
  items : Option (List Text) := none

/-- Which way a Worker was born: by an unattended turn, by the tick that began at
`atMs`, or not by the demand loop. -/
inductive Origin where
  | turn
  | direct (atMs : ℕ)
  | other
  deriving DecidableEq

structure Worker where
  projectLabel : Text
  /-- `none` where the time on the record cannot be read. -/
  startedAtMs : Option ℕ
  origin : Origin

def Worker.lifetimeMs (worker : Worker) (nowMs : ℕ) : Option ℕ :=
  worker.startedAtMs.bind fun startedAtMs =>
    if startedAtMs ≤ nowMs then some (nowMs - startedAtMs) else none

/-- What a tick waits for. -/
inductive Stage where
  | sweeping
  | polling
  | launching
  | briefing (birth : Birth)
  | starting (birth : Birth)
  | settling (birth : Birth) (workerId : Text)
  | closing
  deriving DecidableEq

/-- A tick under way: when it began, the Workers it has counted, the births still to be
performed and whether its plan asked for any. -/
structure Tick where
  atMs : ℕ
  live : Text → ℕ := fun _ => 0
  births : List Birth := []
  asked : Bool := false
  stage : Stage := .sweeping

structure State where
  nowMs : ℕ
  registrations : JsMap Text Registration
  lastQueue : List ProjectQueue
  birthHealth : Text → BirthHealth
  demandBackoffUntilMs : Option ℕ
  workers : JsMap Text Worker
  turns : List Text
  tick : Option Tick

namespace State
variable (host : Host) (s : State) (tick : Tick)

def prompted (label : Text) : Bool :=
  host.acpControlPlane && (s.registrations.lookup label).any (·.prompt.isSome)

def live (label : Text) : ℕ := s.workers.values.countP (·.projectLabel = label)

/-- The last entry of a label holds. -/
def depthOf (label : Text) : Option (Option ℕ) :=
  (s.lastQueue.reverse.find? (·.projectLabel = label)).map (·.depth)

def itemsOf (label : Text) : List Text :=
  ((s.lastQueue.reverse.find? fun project =>
    project.projectLabel = label && project.items.isSome).bind (·.items)).getD []

def planInput : PlanInput where
  projects := s.registrations.entries.map fun ⟨label, registration⟩ =>
    { projectLabel := label
      argv := registration.argv
      workspacePath := registration.workspacePath
      target := registration.target
      items := s.itemsOf label
      harvest := registration.harvest }
  queue := s.depthOf
  live := tick.live
  nowMs := tick.atMs
  backoffUntilMs := s.demandBackoffUntilMs
  birthHaltUntilMs := fun _ => none
  birthHealth := s.birthHealth

def planCurrentDemand : List Birth := (planHostDemand host.labelLe (s.planInput tick)).births

def closeProbe (atMs : ℕ) (label : Text) : BirthHealth :=
  match (s.birthHealth label).probeWorkerId.bind fun workerId => s.workers.lookup workerId with
  | none => s.birthHealth label
  | some probe =>
    if probe.startedAtMs.any fun startedAtMs => shortLifeMs ≤ atMs - startedAtMs then
      resetBirthHealth
    else s.birthHealth label

def swept : State :=
  let tick := { tick with live := s.live }
  let s := { s with birthHealth := s.closeProbe tick.atMs }
  let stage := if (s.planCurrentDemand host tick).isEmpty then Stage.launching else .polling
  { s with tick := some { tick with stage } }

def planned : State :=
  let births := s.planCurrentDemand host tick
  { s with tick := some { tick with births, asked := !births.isEmpty, stage := .launching } }

def nextBirth : State :=
  match tick.births with
  | [] =>
    { s with
      demandBackoffUntilMs := if tick.asked then none else s.demandBackoffUntilMs
      tick := some { tick with stage := .closing } }
  | birth :: births =>
    let stage :=
      if s.prompted host birth.projectLabel then Stage.briefing birth else .starting birth
    { s with tick := some { tick with births, stage } }

def briefed (birth : Birth) : State :=
  { s with
    turns := birth.projectLabel :: s.turns
    tick := some { tick with stage := .launching } }

def started (birth : Birth) (workerId : Text) : State :=
  { s with
    workers := s.workers.set workerId ⟨birth.projectLabel, some s.nowMs, .direct tick.atMs⟩
    tick := some { tick with stage := .settling birth workerId } }

def granted (birth : Birth) (workerId : Text) : State :=
  let health := s.birthHealth birth.projectLabel
  { s with
    birthHealth :=
      if health.halfOpen tick.atMs then
        Function.update s.birthHealth birth.projectLabel (beginBirthProbe health workerId)
      else s.birthHealth
    tick := some { tick with stage := .launching } }

def refused (retryNextCycle : Bool) : State :=
  { s with
    demandBackoffUntilMs :=
      if retryNextCycle then s.demandBackoffUntilMs else some (tick.atMs + host.demandBackoffMs)
    tick := some { tick with stage := .closing } }

def foldDeath (worker : Worker) (outcome : BirthOutcome) : State :=
  { s with
    birthHealth := Function.update s.birthHealth worker.projectLabel
      (foldProjectBirthHealth (s.birthHealth worker.projectLabel) (worker.lifetimeMs s.nowMs)
        s.nowMs outcome) }

end State

inductive Step where
  | advance (ms : ℕ)
  | register (label : Text) (registration : Registration)
  | deregister (label : Text)
  | pollAnswer (queue : List ProjectQueue)
  | driveDemand
  /-- The tick goes on behind its sweep or its poll. -/
  | swept
  | polled
  | pollFailed
  | nextBirth
  | briefed
  | started (workerId : Text)
  | granted
  | refused (retryNextCycle : Bool)
  | tickDone
  | turnBorn (label workerId : Text)
  | turnFailed (label : Text)
  /-- A Worker that the demand loop does not ask for is started or taken over. -/
  | otherBorn (workerId label : Text) (startedAtMs : Option ℕ)
  | death (workerId : Text) (outcome : BirthOutcome)
  /-- The end of a Worker that is not held any more is recorded. -/
  | deathAgain (worker : Worker) (outcome : BirthOutcome)
  | resetProjectBirthBreaker (label : Text)

def next (host : Host) (s : State) : Step → Option State
  | .advance ms => some { s with nowMs := s.nowMs + ms }
  | .register label registration =>
    some { s with registrations := s.registrations.set label registration }
  | .deregister label => some { s with registrations := s.registrations.erase label }
  | .pollAnswer queue => some { s with lastQueue := queue }
  | .driveDemand =>
    match s.tick with
    | some _ => some s
    | none => some { s with tick := some { atMs := s.nowMs } }
  | .swept => s.tick.bind fun tick =>
    if tick.stage = .sweeping then some (s.swept host tick) else none
  | .polled => s.tick.bind fun tick =>
    if tick.stage = .polling then some (s.planned host tick) else none
  | .pollFailed => s.tick.bind fun tick =>
    if tick.stage = .polling then some { s with tick := none } else none
  | .nextBirth => s.tick.bind fun tick =>
    if tick.stage = .launching then some (s.nextBirth host tick) else none
  | .briefed => s.tick.bind fun tick =>
    match tick.stage with
    | .briefing birth => some (s.briefed tick birth)
    | _ => none
  | .started workerId => s.tick.bind fun tick =>
    match tick.stage with
    | .starting birth => some (s.started tick birth workerId)
    | _ => none
  | .granted => s.tick.bind fun tick =>
    match tick.stage with
    | .settling birth workerId => some (s.granted tick birth workerId)
    | _ => none
  | .refused retryNextCycle => s.tick.bind fun tick =>
    match tick.stage with
    | .briefing _ => some (s.refused host tick false)
    | .starting _ => some (s.refused host tick retryNextCycle)
    | _ => none
  | .tickDone => s.tick.bind fun tick =>
    if tick.stage = .closing then some { s with tick := none } else none
  | .turnBorn label workerId =>
    if label ∈ s.turns then
      some { s with
        turns := s.turns.erase label
        workers := s.workers.set workerId ⟨label, some s.nowMs, .turn⟩ }
    else none
  | .turnFailed label =>
    if label ∈ s.turns then some { s with turns := s.turns.erase label } else none
  | .otherBorn workerId label startedAtMs =>
    some { s with workers := s.workers.set workerId ⟨label, startedAtMs, .other⟩ }
  | .death workerId outcome =>
    (s.workers.lookup workerId).map fun worker =>
      { s with workers := s.workers.erase workerId }.foldDeath worker outcome
  | .deathAgain worker outcome => some (s.foldDeath worker outcome)
  | .resetProjectBirthBreaker label =>
    some { s with birthHealth := Function.update s.birthHealth label resetBirthHealth }

/-- A daemon that starts has no history of deaths; the Workers it holds were born
before it. -/
def demandLoop (host : Host) : Machine State Step where
  start s :=
    s.birthHealth = (fun _ => emptyBirthHealth) ∧ s.turns = [] ∧ s.tick = none ∧
      ∀ worker ∈ s.workers.values, worker.origin = .other
  next := next host

def Worker.bornSince (worker : Worker) (sinceMs : ℕ) : Bool :=
  worker.origin ≠ .other && worker.startedAtMs.any (sinceMs ≤ ·)

def Stage.launches (stage : Stage) (label : Text) : ℕ :=
  match stage with
  | .briefing birth | .starting birth => if birth.projectLabel = label then 1 else 0
  | _ => 0

def State.beingLaunched (s : State) (label : Text) : ℕ :=
  s.turns.count label + s.tick.elim 0 fun tick => tick.stage.launches label

def State.alive (s : State) (label : Text) (sinceMs : ℕ) : ℕ :=
  s.workers.values.countP fun worker =>
    worker.projectLabel = label && worker.bornSince sinceMs

/-- From the moment a halt expires until the latch closes or a halt is armed again, at
most one Worker born after the expiry is alive or being launched. -/
def OneProbe (label : Text) (s : State) : Prop :=
  ∀ haltUntilMs ∈ (s.birthHealth label).haltUntilMs, haltUntilMs ≤ s.nowMs →
    s.beingLaunched label + s.alive label haltUntilMs ≤ 1

/-- Born since the expiry of a halt without a mark: by an unattended turn, or by a tick
that had begun before the halt expired. -/
def Worker.unmarked (worker : Worker) (haltUntilMs : ℕ) : Bool :=
  worker.bornSince haltUntilMs &&
    match worker.origin with
    | .turn => true
    | .direct atMs => decide (atMs < haltUntilMs)
    | .other => false

def State.upcoming (s : State) : Option Text :=
  s.tick.bind fun tick => tick.births.head?.map (·.projectLabel)

/-- No birth of the project is taken up in the half-open state next to an unattended
turn, or a Worker, that goes without a mark; and not more than one launch is under way
when a halt expires. -/
def Marked (label : Text) (s : State) (step : Step) : Prop :=
  ∀ haltUntilMs ∈ (s.birthHealth label).haltUntilMs,
    match step with
    | .nextBirth =>
      s.upcoming = some label → haltUntilMs ≤ s.nowMs →
        label ∉ s.turns ∧ ∀ worker ∈ s.workers.values, worker.projectLabel = label →
          worker.unmarked haltUntilMs = false
    | .advance ms =>
      s.nowMs < haltUntilMs → haltUntilMs ≤ s.nowMs + ms → s.beingLaunched label ≤ 1
    | _ => True

instance (label : Text) (s : State) (step : Step) : Decidable (Marked label s step) :=
  match step with
  | .nextBirth => inferInstanceAs (Decidable (∀ haltUntilMs ∈ (s.birthHealth label).haltUntilMs,
      s.upcoming = some label → haltUntilMs ≤ s.nowMs →
        label ∉ s.turns ∧ ∀ worker ∈ s.workers.values, worker.projectLabel = label →
          worker.unmarked haltUntilMs = false))
  | .advance ms => inferInstanceAs (Decidable (∀ haltUntilMs ∈ (s.birthHealth label).haltUntilMs,
      s.nowMs < haltUntilMs → haltUntilMs ≤ s.nowMs + ms → s.beingLaunched label ≤ 1))
  | .register _ _ | .deregister _ | .pollAnswer _ | .driveDemand | .swept | .polled | .pollFailed
  | .briefed | .started _ | .granted | .refused _ | .tickDone | .turnBorn _ _ | .turnFailed _
  | .otherBorn _ _ _ | .death _ _ | .deathAgain _ _ | .resetProjectBirthBreaker _ =>
    isTrue fun _ _ => trivial

end Redskilled.Daemon.Demand
