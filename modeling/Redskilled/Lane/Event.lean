import Redskilled.Foundation.Vocabulary

/-!
# Events of the host lane

What the daemon writes down about its Workers and about itself, one flat row an
event. A row is read back through `decodeHostEventRow`, which fills what an older
writer left out. Replaying the births and the retirements gives the Workers that
are still believed alive.

A number is of the type `ν`, with the conversions of the language.
-/
namespace Redskilled.Lane
open Foundation

variable {ν : Type*}

inductive EventKind where
  | workerBirth | workerActivity | workerMetrics | workerResource | workerDrift | workerHeal
  | workerBudgetVerdict | workerBudgetGrace | workerDeath | workerBudgetKill | workerPostmortem
  | demandRefusal | acpFailure | daemonStart | daemonDeath | daemonStop | daemonTakeoverFailed
  deriving DecidableEq

namespace EventKind

def text : EventKind → Text
  | workerBirth => "worker-birth".toList
  | workerActivity => "worker-activity".toList
  | workerMetrics => "worker-metrics".toList
  | workerResource => "worker-resource".toList
  | workerDrift => "worker-drift".toList
  | workerHeal => "worker-heal".toList
  | workerBudgetVerdict => "worker-budget-verdict".toList
  | workerBudgetGrace => "worker-budget-grace".toList
  | workerDeath => "worker-death".toList
  | workerBudgetKill => "worker-budget-kill".toList
  | workerPostmortem => "worker-postmortem".toList
  | demandRefusal => "demand-refusal".toList
  | acpFailure => "acp-failure".toList
  | daemonStart => "daemon-start".toList
  | daemonDeath => "daemon-death".toList
  | daemonStop => "daemon-stop".toList
  | daemonTakeoverFailed => "daemon-takeover-failed".toList

/-- `REDSKILLED_WORKER_EVENT_KINDS`, then `REDSKILLED_DAEMON_EVENT_KINDS`. -/
instance : Vocabulary EventKind where
  all := [workerBirth, workerActivity, workerMetrics, workerResource, workerDrift, workerHeal,
    workerBudgetVerdict, workerBudgetGrace, workerDeath, workerBudgetKill, workerPostmortem,
    demandRefusal, acpFailure, daemonStart, daemonDeath, daemonStop, daemonTakeoverFailed]
  text := text
  mem_all := by intro kind; cases kind <;> decide
  nodup_texts := by decide +kernel

def isDaemon : EventKind → Bool
  | demandRefusal | acpFailure | daemonStart | daemonDeath | daemonStop
  | daemonTakeoverFailed => true
  | _ => false

end EventKind

inductive DeathSenderClass where
  | oomd | userSignal | parentDeath | teardown | bootRefused | unknown
  deriving DecidableEq

instance : Vocabulary DeathSenderClass where
  all := [.oomd, .userSignal, .parentDeath, .teardown, .bootRefused, .unknown]
  text
    | .oomd => "oomd".toList
    | .userSignal => "user-signal".toList
    | .parentDeath => "parent-death".toList
    | .teardown => "teardown".toList
    | .bootRefused => "boot-refused".toList
    | .unknown => "unknown".toList
  mem_all := by intro word; cases word <;> decide
  nodup_texts := by decide +kernel

inductive AttributionConfidence where
  | high | medium | low | none
  deriving DecidableEq

instance : Vocabulary AttributionConfidence where
  all := [.high, .medium, .low, .none]
  text
    | .high => "high".toList
    | .medium => "medium".toList
    | .low => "low".toList
    | .none => "none".toList
  mem_all := by intro word; cases word <;> decide
  nodup_texts := by decide +kernel

/-- One event. A field is absent where it is `none`; the failure mode may also be
present as null. -/
structure HostEvent (ν : Type*) where
  ts : Text
  kind : EventKind
  workerId : Text
  projectLabel : Text
  pid : ν
  pgid : Option ν
  procStartTime : Option Text
  workspacePath : Text
  forkSha : Option Text
  logPath : Option Text
  isolated : Bool
  unit : Option Text
  memoryHigh : Option Text
  memoryMax : Option Text
  cpuWeight : Option ν
  admissionVerdict : Option Text
  phase : Option Text
  step : Option Text
  tokens : Option ν
  tools : Option ν
  runner : Option Text
  model : Option Text
  baseHeadSha : Option Text
  baseCommitsAhead : Option ν
  healKind : Option Text
  failureMode : Option (Option Text)
  detail : Option Text
  exitCode : Option ν
  signal : Option Text
  systemdResult : Option Text
  memoryPeakBytes : Option ν
  memorySwapPeakBytes : Option ν
  pidsPeak : Option ν
  journalTail : Option Text
  senderClass : Option DeathSenderClass
  confidence : Option AttributionConfidence
  reason : Option Text
  deriving DecidableEq

structure WorkerBudget (ν : Type*) where
  memoryHigh : Option Text := none
  memoryMax : Option Text := none
  cpuWeight : Option ν := none

structure WorkerView (ν : Type*) where
  workerId : Text
  projectLabel : Text := []
  pid : ν
  pgid : Option ν := none
  procStartTime : Option Text := none
  startedAt : Text := []
  workspacePath : Text := []
  forkSha : Option Text := none
  logPath : Option Text := none
  isolated : Bool := false
  unit : Option Text := none
  budget : Option (WorkerBudget ν) := none
  warnings : List Text := []

def toWorkerView (event : HostEvent ν) : WorkerView ν :=
  let limited := event.memoryHigh.isSome || event.memoryMax.isSome || event.cpuWeight.isSome
  { workerId := event.workerId
    projectLabel := event.projectLabel
    pid := event.pid
    pgid := event.pgid
    procStartTime := event.procStartTime
    startedAt := event.ts
    workspacePath := event.workspacePath
    forkSha := event.forkSha
    logPath := event.logPath
    isolated := event.isolated
    unit := event.unit
    budget :=
      if limited then some ⟨event.memoryHigh, event.memoryMax, event.cpuWeight⟩ else none
    warnings := [] }

/-- What a caller says of a Worker's event. -/
structure RecordWorkerEventInput (ν : Type*) where
  kind : EventKind
  worker : WorkerView ν
  ts : Text := []
  detail : Option Text := none
  exitCode : Option ν := none
  signal : Option Text := none
  systemdResult : Option Text := none
  memoryPeakBytes : Option ν := none
  memorySwapPeakBytes : Option ν := none
  pidsPeak : Option ν := none
  journalTail : Option Text := none
  senderClass : Option DeathSenderClass := none
  confidence : Option AttributionConfidence := none
  admissionVerdict : Option Text := none
  phase : Option Text := none
  step : Option Text := none
  tokens : Option ν := none
  tools : Option ν := none
  runner : Option Text := none
  model : Option Text := none
  baseHeadSha : Option Text := none
  baseCommitsAhead : Option ν := none
  healKind : Option Text := none
  failureMode : Option Text := none
  reason : Option Text := none

def buildHostEvent (input : RecordWorkerEventInput ν) : HostEvent ν :=
  let budget := input.worker.budget.getD {}
  { ts := input.ts
    kind := input.kind
    workerId := input.worker.workerId
    projectLabel := input.worker.projectLabel
    pid := input.worker.pid
    pgid := input.worker.pgid
    procStartTime := input.worker.procStartTime
    workspacePath := input.worker.workspacePath
    forkSha := input.worker.forkSha
    logPath := input.worker.logPath
    isolated := input.worker.isolated
    unit := input.worker.unit
    memoryHigh := budget.memoryHigh
    memoryMax := budget.memoryMax
    cpuWeight := budget.cpuWeight
    admissionVerdict := input.admissionVerdict
    phase := input.phase
    step := input.step
    tokens := input.tokens
    tools := input.tools
    runner := input.runner
    model := input.model
    baseHeadSha := input.baseHeadSha
    baseCommitsAhead := input.baseCommitsAhead
    healKind := input.healKind
    failureMode := some input.failureMode
    detail := input.detail
    exitCode := input.exitCode
    signal := input.signal
    systemdResult := input.systemdResult
    memoryPeakBytes := input.memoryPeakBytes
    memorySwapPeakBytes := input.memorySwapPeakBytes
    pidsPeak := input.pidsPeak
    journalTail := input.journalTail
    senderClass := input.senderClass
    confidence := input.confidence
    reason := input.reason }

inductive Field where
  | version | ts | kind | event | workerId | projectLabel | pid | pgid | procStartTime
  | workspacePath | forkSha | logPath | isolated | unit | memoryHigh | memoryMax | cpuWeight
  | admissionVerdict | phase | step | tokens | tools | runner | model | baseHeadSha
  | baseCommitsAhead | healKind | failureMode | detail | exitCode | signal | systemdResult
  | memoryPeakBytes | memorySwapPeakBytes | pidsPeak | journalTail | senderClass | confidence
  | reason
  deriving DecidableEq

inductive Value (ν : Type*) where
  | text (t : Text)
  | number (n : ν)
  | bool (b : Bool)
  | null

abbrev Row (ν : Type*) := Field → Option (Value ν)

/-- `Number` and `String` on the values of a row. -/
structure Conversions (ν : Type*) where
  zero : ν
  one : ν
  numberOfText : Text → ν
  numberOfBool : Bool → ν
  textOfNumber : ν → Text

namespace Conversions
variable (conv : Conversions ν)

def number : Value ν → ν
  | .number n => n
  | .text t => conv.numberOfText t
  | .bool b => conv.numberOfBool b
  | .null => conv.zero

def string : Value ν → Text
  | .text t => t
  | .number n => conv.textOfNumber n
  | .bool true => "true".toList
  | .bool false => "false".toList
  | .null => "null".toList

end Conversions

def present (value : Option (Value ν)) : Option (Value ν) :=
  value.bind fun v =>
    match v with
    | .null => none
    | .text [] => none
    | v => some v

def textOrNull (conv : Conversions ν) (value : Option (Value ν)) : Option Text :=
  (present value).map conv.string

def numberOrNull (conv : Conversions ν) (value : Option (Value ν)) : Option ν :=
  (present value).map conv.number

/-- `value ?? other`. -/
def nonNull (value other : Option (Value ν)) : Option (Value ν) :=
  match value with
  | none | some .null => other
  | some v => some v

def oneOf (κ : Type*) [Vocabulary κ] (value : Option (Value ν)) : Option κ :=
  match value with
  | some (.text t) => Vocabulary.ofText t
  | _ => none

def hostEventKind [DecidableEq ν] (conv : Conversions ν) (row : Row ν) : Option EventKind :=
  match row .version, row .ts, row .workerId, nonNull (row .kind) (row .event) with
  | some (.number n), some (.text _), some (.text _), some (.text kind) =>
    if n = conv.one then Vocabulary.ofText kind else none
  | _, _, _, _ => none

def decodeHostEventRow (conv : Conversions ν) (kind : EventKind) (row : Row ν) : HostEvent ν :=
  let text (f : Field) := textOrNull conv (row f)
  let number (f : Field) := numberOrNull conv (row f)
  { ts := conv.string ((row .ts).getD .null)
    kind
    workerId := conv.string ((row .workerId).getD .null)
    projectLabel := (text .projectLabel).getD []
    pid := conv.number ((row .pid).getD .null)
    pgid := number .pgid
    procStartTime := text .procStartTime
    workspacePath := (text .workspacePath).getD []
    forkSha := text .forkSha
    logPath := text .logPath
    isolated :=
      match row .isolated with
      | some (.bool b) => b
      | some (.text t) => t = "true".toList
      | _ => false
    unit := text .unit
    memoryHigh := text .memoryHigh
    memoryMax := text .memoryMax
    cpuWeight := number .cpuWeight
    admissionVerdict := text .admissionVerdict
    phase := text .phase
    step := text .step
    tokens := number .tokens
    tools := number .tools
    runner := text .runner
    model := text .model
    baseHeadSha := text .baseHeadSha
    baseCommitsAhead := number .baseCommitsAhead
    healKind := text .healKind
    failureMode := some (text .failureMode)
    detail := text .detail
    exitCode := number .exitCode
    signal := text .signal
    systemdResult := text .systemdResult
    memoryPeakBytes := number .memoryPeakBytes
    memorySwapPeakBytes := number .memorySwapPeakBytes
    pidsPeak := number .pidsPeak
    journalTail := text .journalTail
    senderClass := oneOf DeathSenderClass (row .senderClass)
    confidence := oneOf AttributionConfidence (row .confidence)
    reason := text .reason }

/-- A field that is written as null where it has no value. -/
def orNull (value : Option (Value ν)) : Option (Value ν) := some (value.getD .null)

/-- `{ ...event }`. -/
def toRow (conv : Conversions ν) (event : HostEvent ν) : Row ν
  | .version => some (.number conv.one)
  | .ts => some (.text event.ts)
  | .kind | .event => some (.text event.kind.text)
  | .workerId => some (.text event.workerId)
  | .projectLabel => some (.text event.projectLabel)
  | .pid => some (.number event.pid)
  | .pgid => event.pgid.map .number
  | .procStartTime => event.procStartTime.map .text
  | .workspacePath => some (.text event.workspacePath)
  | .forkSha => orNull (event.forkSha.map .text)
  | .logPath => orNull (event.logPath.map .text)
  | .isolated => some (.bool event.isolated)
  | .unit => orNull (event.unit.map .text)
  | .memoryHigh => orNull (event.memoryHigh.map .text)
  | .memoryMax => orNull (event.memoryMax.map .text)
  | .cpuWeight => orNull (event.cpuWeight.map .number)
  | .admissionVerdict => orNull (event.admissionVerdict.map .text)
  | .phase => orNull (event.phase.map .text)
  | .step => orNull (event.step.map .text)
  | .tokens => orNull (event.tokens.map .number)
  | .tools => orNull (event.tools.map .number)
  | .runner => orNull (event.runner.map .text)
  | .model => orNull (event.model.map .text)
  | .baseHeadSha => orNull (event.baseHeadSha.map .text)
  | .baseCommitsAhead => orNull (event.baseCommitsAhead.map .number)
  | .healKind => orNull (event.healKind.map .text)
  | .failureMode => event.failureMode.map fun mode => (mode.map .text).getD .null
  | .detail => orNull (event.detail.map .text)
  | .exitCode => orNull (event.exitCode.map .number)
  | .signal => orNull (event.signal.map .text)
  | .systemdResult => orNull (event.systemdResult.map .text)
  | .memoryPeakBytes => orNull (event.memoryPeakBytes.map .number)
  | .memorySwapPeakBytes => orNull (event.memorySwapPeakBytes.map .number)
  | .pidsPeak => orNull (event.pidsPeak.map .number)
  | .journalTail => orNull (event.journalTail.map .text)
  | .senderClass => orNull (event.senderClass.map fun word => .text (Vocabulary.text word))
  | .confidence => orNull (event.confidence.map fun word => .text (Vocabulary.text word))
  | .reason => orNull (event.reason.map .text)

end Redskilled.Lane
