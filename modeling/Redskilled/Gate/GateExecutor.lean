import Mathlib.Data.List.Dedup
import Redskilled.Foundation.Utf8
import Redskilled.Gate.ValidationCone

/-!
# The gate

The gate asks the host whether it may run a check of this weight, settles the findings of
the review, and then runs the feedback scripts of each scope and the commands of the
operator. What the commands answer, and how long they take, is an argument. A command that
throws ends the gate without an answer.
-/
namespace Redskilled.Gate
open Foundation

def castleValidationSchema : Text := "red.castle.validation.v2".toList

def feedbackScripts : List Text :=
  ["test".toList, "typecheck".toList, "lint".toList, "build".toList]

def mechanicalKinds : List Text :=
  ["formatter".toList, "import-organizer".toList, "lint-fix".toList, "comment-typo".toList,
    "trailing-whitespace".toList, "trailing-newline".toList]

def defaultBackpressureTimeoutMs : ℤ := 10 * 60 * 1000

def killedExitCode : ℤ := 124

inductive ValidationStatus where
  | passed
  | failed
  | skipped
  deriving DecidableEq

structure ExecResult where
  code : ℤ
  stdout : Text
  stderr : Text

inductive ValidationResourceClass where
  | light
  | heavy

structure FeedbackCall where
  args : List Text
  weight : ValidationResourceClass

structure BackpressureCall where
  command : Text
  cwd : Text
  timeoutMs : ℤ
  weight : ValidationResourceClass

structure ScriptLayout where
  hasPackage : Text → Bool
  hasScript : Text → Text → Bool

structure ValidationRecord where
  schema : Text
  name : Text
  status : ValidationStatus
  command : Option Text
  exitCode : Option ℤ
  durationMs : Option ℤ
  summary : Option Text

structure ValidationCheck where
  name : Text
  status : ValidationStatus
  record : ValidationRecord

structure GateFinding where
  kind : Text
  description : Text
  patch : Option Text

inductive GateSinkOutcome where
  | approved
  | skipped
  | parked
  deriving DecidableEq

inductive GateWeightClass where
  | lightCone
  | heavyCone
  | fullWorkspace

/-- The place in `GATE_WEIGHT_CLASSES`. -/
def GateWeightClass.index : GateWeightClass → ℕ
  | .lightCone => 0
  | .heavyCone => 1
  | .fullWorkspace => 2

def runners : List Text :=
  ["claude".toList, "codex".toList, "hermes".toList, "opencode".toList, "claude-minimax".toList]

structure HostCapabilityProfile where
  machineIdHash : Text
  runners : List Text
  maxGateWeight : GateWeightClass
  defaultFleetWidth : ℤ

structure HostGateAdmission where
  admitted : Bool
  required : GateWeightClass
  maximum : GateWeightClass

def isLowerHex (c : Char) : Bool := c.isDigit || ('a' ≤ c && c ≤ 'f')

def isMachineIdHash (t : Text) : Bool := t.length == 12 && t.all isLowerHex

/-- `Number.MAX_SAFE_INTEGER`. -/
def maxSafeInteger : ℤ := 9007199254740991

/-- A profile that is not valid throws. -/
def validateHostCapabilityProfile (profile : HostCapabilityProfile) :
    Option HostCapabilityProfile :=
  if !isMachineIdHash profile.machineIdHash then none
  else if profile.runners.isEmpty || !profile.runners.all Gate.runners.contains then none
  else if profile.defaultFleetWidth ≤ 0 || maxSafeInteger < profile.defaultFleetWidth then none
  else some { profile with runners := profile.runners.eraseDups }

def maxGateWeight : Option HostCapabilityProfile → Option GateWeightClass
  | none => some .fullWorkspace
  | some profile => (validateHostCapabilityProfile profile).map HostCapabilityProfile.maxGateWeight

def evaluateHostGateAdmission (profile : Option HostCapabilityProfile)
    (required : GateWeightClass) : Option HostGateAdmission :=
  (maxGateWeight profile).map fun maximum =>
    ⟨decide (required.index ≤ maximum.index), required, maximum⟩

structure GateInput where
  worktree : Text
  changedFiles : List Text
  layout : ScriptLayout
  graph : WorkspaceGraph
  findings : List GateFinding
  backpressureCommands : List Text
  backpressureTimeoutMs : Option ℤ
  hostProfile : Option HostCapabilityProfile
  gateWeight : Option GateWeightClass
  /-- The outcome of the sink for a finding, by its place. -/
  intentFinding : ℕ → GateFinding → Option GateSinkOutcome
  /-- Whether a mechanical finding was applied without a throw. -/
  applyMechanical : ℕ → GateFinding → Bool
  /-- The answer of a feedback command and the time it took. -/
  feedbackExec : FeedbackCall → Option (ExecResult × ℤ)
  /-- The answer of a backpressure command, by its place, and the time it took. -/
  backpressureExec : ℕ → BackpressureCall → Option (ExecResult × ℤ)

structure CastleGateResult where
  ok : Bool
  validationScope : ValidationScope
  checks : List ValidationCheck
  sinkOutcomes : List GateSinkOutcome
  mechanicalApplied : ℕ
  admission : HostGateAdmission
  calls : List FeedbackCall

def gateWeightForScope : ValidationScope → GateWeightClass
  | .wholeWorkspace _ => .fullWorkspace
  | .cone packages _ => if 1 < packages.length then .heavyCone else .lightCone

def validationResourceClass (scope script : Text) : ValidationResourceClass :=
  if scope = root ∧ (script = "test".toList ∨ script = "typecheck".toList ∨
      script = "build".toList) then .heavy
  else .light

def isMechanical (finding : GateFinding) : Bool := mechanicalKinds.contains finding.kind

def scopeLabel (scope : Text) : Text := if scope = root then "root".toList else scope

def scopeDir (worktree scope : Text) : Text :=
  if scope = root then worktree else worktree ++ '/' :: scope

def outputSummary (status : ValidationStatus) (output : Text) : Text :=
  if status = .passed then "command exited 0".toList
  else
    let trimmed := output.rdropWhile (· == '\n')
    if trimmed = [] then "command exited non-zero".toList
    else Utf8.takeUnits 1000 (List.intercalate [' '] ((trimmed.splitOn '\n').rtake 20))

/-- An empty command or summary is left out of the record. -/
def nonEmpty (t : Text) : Option Text := if t = [] then none else some t

def skippedCheck (name summary : Text) : ValidationCheck where
  name := name
  status := .skipped
  record := ⟨castleValidationSchema, name, .skipped, none, none, none, nonEmpty summary⟩

def ranCheck (name command summary : Text) (status : ValidationStatus) (code durationMs : ℤ) :
    ValidationCheck where
  name := name
  status := status
  record := ⟨castleValidationSchema, name, status, nonEmpty command, some code, some durationMs,
    nonEmpty summary⟩

structure Progress where
  ok : Bool
  checks : List ValidationCheck
  calls : List FeedbackCall

def Progress.skip (p : Progress) (name summary : Text) : Progress :=
  { p with checks := p.checks ++ [skippedCheck name summary] }

def statusOf (result : ExecResult) : ValidationStatus := if result.code = 0 then .passed else .failed

def feedbackCall (worktree scope script : Text) : FeedbackCall :=
  ⟨["pnpm".toList, "-C".toList, scopeDir worktree scope, script],
    validationResourceClass scope script⟩

def feedbackCheck (worktree scope script : Text) (answer : ExecResult × ℤ) : ValidationCheck :=
  let status := statusOf answer.1
  ranCheck (script ++ ':' :: scopeLabel scope)
    ("pnpm -C ".toList ++ scopeDir worktree scope ++ ' ' :: script)
    (outputSummary status (answer.1.stdout ++ answer.1.stderr)) status answer.1.code answer.2

def runScope (input : GateInput) (script : Text) (p : Progress) (scope : Text) : Option Progress :=
  if input.layout.hasScript scope script then
    (input.feedbackExec (feedbackCall input.worktree scope script)).map fun answer =>
      { ok := p.ok && statusOf answer.1 == .passed
        checks := p.checks ++ [feedbackCheck input.worktree scope script answer]
        calls := p.calls ++ [feedbackCall input.worktree scope script] }
  else some (p.skip (script ++ ':' :: scopeLabel scope) "script missing".toList)

def runScript (input : GateInput) (scopes : List Text) (p : Progress) (script : Text) :
    Option Progress :=
  if scopes = [] then some (p.skip (script ++ ":no-package".toList) "no package.json".toList)
  else scopes.foldlM (runScope input script) p

def runFeedbackChecks (input : GateInput) (scopes : List Text) : Option Progress :=
  feedbackScripts.foldlM (runScript input scopes) ⟨true, [], []⟩

def backpressureSummary (timeoutMs : ℤ) (result : ExecResult) : Text :=
  if result.code = killedExitCode then
    "command timed out after ".toList ++ (toString timeoutMs).toList ++ "ms".toList
  else outputSummary (statusOf result) (result.stdout ++ result.stderr)

def runCommand (input : GateInput) (p : Progress) (entry : Text × ℕ) : Option Progress :=
  let command := Text.trim entry.1
  let timeoutMs := input.backpressureTimeoutMs.getD defaultBackpressureTimeoutMs
  if command = [] then some p
  else
    (input.backpressureExec entry.2 ⟨command, input.worktree, timeoutMs, .heavy⟩).map fun answer =>
      { p with
        ok := p.ok && statusOf answer.1 == .passed
        checks := p.checks ++ [ranCheck ("backpressure:".toList ++ command) command
          (backpressureSummary timeoutMs answer.1) (statusOf answer.1) answer.1.code answer.2] }

def runBackpressureChecks (input : GateInput) (p : Progress) : Option Progress :=
  input.backpressureCommands.zipIdx.foldlM (runCommand input) p

structure Findings where
  ok : Bool
  sinkOutcomes : List GateSinkOutcome
  mechanicalApplied : ℕ

def settleFinding (input : GateInput) (f : Findings) (entry : GateFinding × ℕ) : Option Findings :=
  if isMechanical entry.1 then
    if input.applyMechanical entry.2 entry.1 then
      some { f with mechanicalApplied := f.mechanicalApplied + 1 }
    else none
  else
    (input.intentFinding entry.2 entry.1).map fun outcome =>
      { f with
        ok := f.ok && outcome == .approved
        sinkOutcomes := f.sinkOutcomes ++ [outcome] }

/-- The commands run where every script passed and every finding was approved. -/
def runCommands (input : GateInput) (approved : Bool) (feedback : Progress) : Option Progress :=
  if feedback.ok && approved then runBackpressureChecks input feedback else some feedback

def runChecks (input : GateInput) (scope : ValidationScope) (admission : HostGateAdmission) :
    Option CastleGateResult := do
  let findings ← input.findings.zipIdx.foldlM (settleFinding input) ⟨true, [], 0⟩
  let feedback ← runFeedbackChecks input (scopesForValidationScope scope)
  let finished ← runCommands input findings.ok feedback
  some ⟨findings.ok && finished.ok, scope, finished.checks, findings.sinkOutcomes,
    findings.mechanicalApplied, admission, finished.calls⟩

def runCastleGate (input : GateInput) : Option CastleGateResult := do
  let scope := computeValidationScope input.changedFiles input.layout.hasPackage input.graph
  let admission ← evaluateHostGateAdmission input.hostProfile
    (input.gateWeight.getD (gateWeightForScope scope))
  if admission.admitted then runChecks input scope admission
  else some ⟨false, scope, [], [], 0, admission, []⟩

end Redskilled.Gate
