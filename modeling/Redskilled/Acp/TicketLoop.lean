import Mathlib.Data.Rat.Floor
import Redskilled.Acp.RetryPolicy
import Redskilled.Foundation.JsMap
import Redskilled.Foundation.Machine
import Redskilled.Foundation.Utf8

/-!
# The Ticket loop

A Worker takes one Ticket from the claim to the landing. It claims, lets the implementer
work and runs the gate, and a gate that blocks lets the implementer work again in the same
place, as long as the budget of rounds is not spent. A round that fails is retried within
the bounds of the retry policy. Only then the work is published, judged and landed.

The loop asks one thing after the other. A step of the machine is an answer to what was
asked, and may be that it throws. What the loop asked and was answered is kept as the
history of the state. What is narrated to the Worker log is left out.
-/
namespace Redskilled.Acp.TicketLoop
open Foundation Foundation.Text

structure LaneRunModeContract where
  lane : Text
  /-- None where the lane demands no mode. -/
  runMode : Option Text
  why : Text

def laneRunModeContract : List LaneRunModeContract :=
  [⟨"lane:go".toList, none, ("a /go dispatch runs the ordinary ship pipeline; --pre-pr adds ".toList ++
      "no-mistakes as an OPTION, never a requirement".toList)⟩,
    ⟨"lane:scout".toList, some "scout".toList,
      ("a scout-lane issue is a read-only investigation: without run_mode=scout the ".toList ++
        "engine would push, open a PR and land".toList)⟩]

def laneRunModeRefusal (labels : List Text) (runMode : Option Text) : Option Text :=
  laneRunModeContract.findSome? fun contract =>
    contract.runMode.bind fun required =>
      if contract.lane ∉ labels ∨ runMode = some required then none
      else
        some ("lane-to-mode contract: `".toList ++ contract.lane ++ "` requires run_mode=".toList ++
          required ++ ", this worker holds run_mode=".toList ++ runMode.getD "(none)".toList ++
          " — refusing the claim. ".toList ++ contract.why)

inductive VerifyLabel where
  | live | tests | gateOnly

inductive VerifyCountersignClass where
  | typeCheckOnly | testVerified | liveVerified
  deriving DecidableEq

def countersignStrengthOrder : List VerifyCountersignClass :=
  [.typeCheckOnly, .testVerified, .liveVerified]

def countersignStrength (countersign : VerifyCountersignClass) : ℕ :=
  countersignStrengthOrder.idxOf countersign

structure VerifyRequirement where
  label : Option VerifyLabel
  minimum : VerifyCountersignClass
  accepts : List VerifyCountersignClass
  selfSignable : Bool

def acceptedFrom (minimum : VerifyCountersignClass) : List VerifyCountersignClass :=
  countersignStrengthOrder.drop (countersignStrength minimum)

def verifyRequirementFor : VerifyLabel → VerifyRequirement
  | .live => ⟨some .live, .liveVerified, acceptedFrom .liveVerified, false⟩
  | .tests => ⟨some .tests, .testVerified, acceptedFrom .testVerified, false⟩
  | .gateOnly => ⟨some .gateOnly, .typeCheckOnly, acceptedFrom .typeCheckOnly, true⟩

def unlabeledVerifyRequirement : VerifyRequirement :=
  ⟨none, .testVerified, acceptedFrom .testVerified, false⟩

def verifyLabel (label : Text) : Option VerifyLabel :=
  if label = "verify:live".toList then some .live
  else if label = "verify:tests".toList then some .tests
  else if label = "verify:gate-only".toList then some .gateOnly
  else none

/-- Of several labels the strictest one counts. -/
def resolveVerifyRequirement (labels : List Text) : VerifyRequirement :=
  match (labels.filterMap verifyLabel).map verifyRequirementFor with
  | [] => unlabeledVerifyRequirement
  | first :: rest =>
    rest.foldl (fun strictest candidate =>
      if countersignStrength strictest.minimum < countersignStrength candidate.minimum then
        candidate
      else strictest) first

inductive TicketLoopStage where
  | claim | implement | gate | publish | land

structure TicketLoopTicket where
  number : ℕ
  title : Text
  labels : List Text
  base : Text
  handoff : Text
  standingOrders : Option Text := none

structure TicketLoopDeps where
  ticket : TicketLoopTicket
  sessionId : Text
  /-- What the claim is published with. -/
  claimComment : Text
  preclaimed : Bool := false
  runMode : Option Text := none
  reseedBudget : Option ℚ := none
  countersigned : Bool := false
  /-- What the contract of briefs refuses of a handoff. -/
  briefContractStructuralRefusal : Text → Option Text := fun _ => none

inductive StopReason where
  | endTurn | maxTokens | maxTurnRequests | refusal | cancelled
  deriving DecidableEq

structure TicketImplementOutcome where
  stopReason : StopReason
  detail : Option Text := none

structure TicketGateRun where
  stages : List GateStageOutcome
  detail : Option Text := none

structure WorkerPublication where
  branch : Text
  commit : Text

inductive WorkerPublishOutcome where
  | requested (publication : WorkerPublication)
  | refused (publication : WorkerPublication) (detail : Text)

inductive LandCountersignDecision where
  | allowed
  | refused (message : Text)

structure WorktreeDiffStat where
  added : ℕ
  removed : ℕ

structure TicketLoopRecord where
  stage : TicketLoopStage
  ok : Bool
  round : Option ℕ := none
  detail : Option Text := none
  diff : Option WorktreeDiffStat := none

inductive TicketLoopOutcome where
  | landed (publication : WorkerPublication) (pullRequest : ℤ) (rounds : ℕ)
  | refused (stage : TicketLoopStage) (detail : Text)
  | gateBlocked (failedStage : GateStage) (rounds : ℕ) (detail : Option Text)
  | cancelled (rounds : ℕ)
  | nothingToPublish (rounds : ℕ)

structure Thrown where
  message : Text
  failureClass : WorkerFailureRetryClass

structure LandRequest where
  idempotencyKey : Text
  branch : Text
  commit : Text
  base : Text
  title : Text
  body : Text
  ownerTicket : ℕ

section
variable (ticket : TicketLoopTicket)

def normalizeStandingOrders (text : Text) : Option Text :=
  let trimmed := (text.rdropWhile isWhitespace).dropWhile (· == '\n')
  if trim trimmed = [] then none else some trimmed

def briefWithStandingOrders (orders : Option Text) (brief : Text) : Text :=
  match orders.bind normalizeStandingOrders with
  | none => brief
  | some orders =>
    "<standing-orders>\n".toList ++ orders ++ "\n</standing-orders>".toList ++ "\n\n".toList ++ brief

def lines : List Text → Text := ['\n'].intercalate

def reseedHandoff (failedStage : Option GateStage) (detail : Option Text) (round : ℕ) : Text :=
  lines (["The ".toList ++ (failedStage.map GateStage.text).getD "gate".toList ++
      " stage blocked round ".toList ++ Text.number round ++ " of Ticket #".toList ++
      Text.number ticket.number ++ ".".toList] ++
    (detail.filter (· ≠ [])).toList ++
    ["Fix it in this Worktree on this branch and commit; ".toList ++
      "the work already committed stands.".toList])

def landingBody (rounds : ℕ) : Text :=
  lines ["Refs #".toList ++ Text.number ticket.number, [],
    "Gate green after ".toList ++ Text.number rounds ++ " implementing ".toList ++
      (if rounds = 1 then "round".toList else "rounds".toList) ++ ".".toList]

def publicationDetail (publication : WorkerPublication) : Text :=
  publication.branch ++ '@' :: Utf8.takeUnits 12 publication.commit

def retryHandoff (failureClass : WorkerFailureRetryClass) (evidence : Text) (round : ℕ) : Text :=
  lines ["The implementer failed round ".toList ++ Text.number round ++ " of Ticket #".toList ++
      Text.number ticket.number ++ " with ".toList ++ failureClass.text ++ ".".toList,
    (workerFailureRetryTable failureClass).instruction,
    evidence,
    "Retry inside this same Worktree and commit whatever changed.".toList]

def implementationFailureDetail : WorkerFailureRetryDecision → Text
  | .retry failureClass shape retriesUsed _ _ evidence =>
    "worker failure ".toList ++ failureClass.text ++ "; retry ".toList ++ Text.number retriesUsed ++
      "/".toList ++ Text.number workerFailureGlobalRetryLimit ++ " as ".toList ++ shape.text ++
      ": ".toList ++ evidence
  | .park failureClass reason _ _ evidence =>
    "worker failure ".toList ++ failureClass.text ++ "; ".toList ++
      (match reason with
        | .globalBound => "global two-retry bound exhausted".toList
        | .classBound => failureClass.text ++ " retry bound exhausted".toList) ++
      "; parking with evidence: ".toList ++ evidence

def gateDetail (verdict : GateVerdict) (detail : Option Text) : Option Text :=
  if verdict.ok then none
  else
    some ((verdict.failedStage.map GateStage.text).getD "undefined".toList ++ " blocked".toList ++
      match detail with
      | none => []
      | some detail => ": ".toList ++ detail)

end

inductive Call where
  | githubWrite (idempotencyKey : Text) (issue : ℕ) (body : Text)
  | implement (handoff : Text) (round : ℕ)
  | gate (round : ℕ)
  | publishTurn
  | check (headSha : Text) (requirement : VerifyRequirement)
  | land (request : LandRequest)

inductive Answer where
  | claimed (answer : Except Thrown Unit)
  | implemented (answer : Except Thrown TicketImplementOutcome)
  | gated (answer : Except Thrown TicketGateRun)
  | published (answer : Except Thrown (Option WorkerPublishOutcome))
  | judged (answer : Except Thrown LandCountersignDecision)
  /-- The pull request, where the answer has an integer for it. -/
  | landed (answer : Except Thrown (Option ℤ))

inductive Event where
  | asked (call : Call)
  | answered (answer : Answer)

/-- What the loop waits for, or how it ended. -/
inductive Phase where
  | claiming
  | implementing
  | gating
  | publishing
  | judging (publication : WorkerPublication)
  | landing (publication : WorkerPublication)
  | returned (outcome : TicketLoopOutcome) (records : List TicketLoopRecord)
  | rejected (thrown : Thrown)

structure State where
  phase : Phase := .claiming
  handoff : Text
  rounds : ℕ := 0
  failureRetriesUsed : ℕ := 0
  failureRetriesByClass : JsMap WorkerFailureRetryClass ℕ := ∅
  verdict : GateVerdict := gateVerdict []
  records : List TicketLoopRecord := []
  history : List Event := []

/-- An answer, and what the Worktree measures when its stage is noted. -/
structure Step where
  answer : Answer
  diff : Option WorktreeDiffStat := none

/-- `Math.trunc`. -/
def mathTrunc (q : ℚ) : ℤ := if q < 0 then ⌈q⌉ else ⌊q⌋

def TicketLoopDeps.budget (deps : TicketLoopDeps) : ℕ :=
  (max 0 (mathTrunc (deps.reseedBudget.getD 0))).toNat

def TicketLoopDeps.preflightRefusal (deps : TicketLoopDeps) : Option Text :=
  laneRunModeRefusal deps.ticket.labels deps.runMode <|>
    deps.briefContractStructuralRefusal deps.ticket.handoff

namespace State

def ask (s : State) (phase : Phase) (call : Call) : State :=
  { s with phase, history := s.history ++ [Event.asked call] }

def hear (s : State) (answer : Answer) : State :=
  { s with history := s.history ++ [Event.answered answer] }

def note (s : State) (diff : Option WorktreeDiffStat) (record : TicketLoopRecord) : State :=
  { s with records := s.records ++ [{ record with diff }] }

def finish (s : State) (outcome : TicketLoopOutcome) : State :=
  { s with phase := .returned outcome s.records }

def reject (s : State) (thrown : Thrown) : State := { s with phase := .rejected thrown }

def refuse (s : State) (diff : Option WorktreeDiffStat) (stage : TicketLoopStage) (detail : Text) :
    State :=
  (s.note diff { stage, ok := false, detail }).finish (.refused stage detail)

section
variable (deps : TicketLoopDeps)

def startRound (s : State) : State :=
  { s with rounds := s.rounds + 1 }.ask .implementing
    (.implement (briefWithStandingOrders deps.ticket.standingOrders s.handoff) (s.rounds + 1))

def claimed (s : State) (diff : Option WorktreeDiffStat) : State :=
  (s.note diff { stage := .claim, ok := true }).startRound deps

def begin (diff : Option WorktreeDiffStat) : State :=
  match deps.preflightRefusal with
  | some detail => refuse { handoff := deps.ticket.handoff } diff .claim detail
  | none =>
    if deps.preclaimed then claimed deps { handoff := deps.ticket.handoff } diff
    else
      ask { handoff := deps.ticket.handoff } .claiming
        (.githubWrite (deps.sessionId ++ ":claim:".toList ++ Text.number deps.ticket.number)
          deps.ticket.number deps.claimComment)

def claimAnswered (s : State) (diff : Option WorktreeDiffStat) : Except Thrown Unit → State
  | .ok _ => s.claimed deps diff
  | .error thrown => s.refuse diff .claim thrown.message

def noteFailure (s : State) (diff : Option WorktreeDiffStat)
    (decision : WorkerFailureRetryDecision) : State :=
  s.note diff {
    stage := .implement
    ok := false
    round := s.rounds
    detail := implementationFailureDetail decision }

def decide (s : State) (thrown : Thrown) : WorkerFailureRetryDecision :=
  decideWorkerFailureRetry thrown.failureClass s.failureRetriesUsed
    ((s.failureRetriesByClass.lookup thrown.failureClass).getD 0) thrown.message

def retry (s : State) (failureClass : WorkerFailureRetryClass) (retriesUsed classRetriesUsed : ℕ)
    (evidence : Text) : State :=
  { s with
    failureRetriesUsed := retriesUsed
    failureRetriesByClass := s.failureRetriesByClass.set failureClass classRetriesUsed
    handoff := retryHandoff deps.ticket failureClass evidence s.rounds }

/-- A failed round is retried or parked. -/
def implementFailed (s : State) (diff : Option WorktreeDiffStat) (thrown : Thrown) : State :=
  match s.decide thrown with
  | .park failureClass reason retriesUsed classRetriesUsed evidence =>
    (s.noteFailure diff (s.decide thrown)).finish (.gateBlocked .feedback s.rounds
      (some (implementationFailureDetail
        (.park failureClass reason retriesUsed classRetriesUsed evidence))))
  | .retry failureClass _ retriesUsed classRetriesUsed _ evidence =>
    ((s.noteFailure diff (s.decide thrown)).retry deps failureClass retriesUsed classRetriesUsed
      evidence).startRound deps

def noteImplemented (s : State) (diff : Option WorktreeDiffStat)
    (implemented : TicketImplementOutcome) : State :=
  s.note diff {
    stage := .implement
    ok := implemented.stopReason ≠ .cancelled
    round := s.rounds
    detail := implemented.detail }

def implementAnswered (s : State) (diff : Option WorktreeDiffStat) :
    Except Thrown TicketImplementOutcome → State
  | .error thrown => s.implementFailed deps diff thrown
  | .ok implemented =>
    if implemented.stopReason = .cancelled then
      (s.noteImplemented diff implemented).finish (.cancelled s.rounds)
    else (s.noteImplemented diff implemented).ask .gating (.gate s.rounds)

def noteGate (s : State) (diff : Option WorktreeDiffStat) (run : TicketGateRun) : State :=
  { s with verdict := gateVerdict run.stages }.note diff {
    stage := .gate
    ok := (gateVerdict run.stages).ok
    round := s.rounds
    detail := gateDetail (gateVerdict run.stages) run.detail }

def reseed (s : State) (run : TicketGateRun) : State :=
  { s with handoff := reseedHandoff deps.ticket s.verdict.failedStage run.detail s.rounds }

def gateNoted (s : State) (run : TicketGateRun) : State :=
  if s.verdict.ok then s.ask .publishing .publishTurn
  else if deps.budget < s.rounds then
    s.finish (.gateBlocked (s.verdict.failedStage.getD .feedback) s.rounds run.detail)
  else (s.reseed deps run).startRound deps

def gateAnswered (s : State) (diff : Option WorktreeDiffStat) : Except Thrown TicketGateRun → State
  | .error thrown => s.reject thrown
  | .ok run => (s.noteGate diff run).gateNoted deps run

def askLand (s : State) (publication : WorkerPublication) : State :=
  s.ask (.landing publication) (.land {
    idempotencyKey := deps.sessionId ++ ":land:".toList ++ publication.commit
    branch := publication.branch
    commit := publication.commit
    base := deps.ticket.base
    title := deps.ticket.title
    body := landingBody deps.ticket s.rounds
    ownerTicket := deps.ticket.number })

def published (s : State) (publication : WorkerPublication) : State :=
  if deps.countersigned then
    s.ask (.judging publication)
      (.check publication.commit (resolveVerifyRequirement deps.ticket.labels))
  else s.askLand deps publication

def publishAnswered (s : State) (diff : Option WorktreeDiffStat) :
    Except Thrown (Option WorkerPublishOutcome) → State
  | .error thrown => s.reject thrown
  | .ok none =>
    (s.note diff {
      stage := .publish
      ok := false
      detail := some "the Worktree committed nothing to publish".toList }).finish
        (.nothingToPublish s.rounds)
  | .ok (some (.refused _ detail)) => s.refuse diff .publish detail
  | .ok (some (.requested publication)) =>
    (s.note diff {
      stage := .publish
      ok := true
      detail := publicationDetail publication }).published deps publication

def judgeAnswered (s : State) (diff : Option WorktreeDiffStat) (publication : WorkerPublication) :
    Except Thrown LandCountersignDecision → State
  | .error thrown => s.reject thrown
  | .ok (.refused message) => s.refuse diff .land message
  | .ok .allowed => s.askLand deps publication

def pullRequestNumber (answer : Option ℤ) : Except Text ℤ :=
  match answer.filter (0 < ·) with
  | some pullRequest => .ok pullRequest
  | none => .error "the parent's landing answer named no pull request".toList

def landAnswered (s : State) (diff : Option WorktreeDiffStat) (publication : WorkerPublication) :
    Except Thrown (Option ℤ) → State
  | .error thrown => s.refuse diff .land thrown.message
  | .ok answer =>
    match pullRequestNumber answer with
    | .error detail => s.refuse diff .land detail
    | .ok pullRequest =>
      (s.note diff {
        stage := .land
        ok := true
        detail := "pull request ".toList ++ Text.number pullRequest.toNat }).finish
          (.landed publication pullRequest s.rounds)

def next (s : State) (step : Step) : Option State :=
  match s.phase, step.answer with
  | .claiming, .claimed answer =>
    some ((s.hear (.claimed answer)).claimAnswered deps step.diff answer)
  | .implementing, .implemented answer =>
    some ((s.hear (.implemented answer)).implementAnswered deps step.diff answer)
  | .gating, .gated answer => some ((s.hear (.gated answer)).gateAnswered deps step.diff answer)
  | .publishing, .published answer =>
    some ((s.hear (.published answer)).publishAnswered deps step.diff answer)
  | .judging publication, .judged answer =>
    some ((s.hear (.judged answer)).judgeAnswered deps step.diff publication answer)
  | .landing publication, .landed answer =>
    some ((s.hear (.landed answer)).landAnswered step.diff publication answer)
  | _, _ => none

end
end State

def ticketLoop (deps : TicketLoopDeps) : Machine State Step where
  start s := ∃ diff, s = State.begin deps diff
  next := State.next deps

end Redskilled.Acp.TicketLoop
