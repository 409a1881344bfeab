import Mathlib.Data.List.Sort
import Redskilled.Foundation.JsText

/-!
# Retries and verdicts

A failed round of the implementer is retried or parked. There is one bound on all retries,
and one for each class of failure.

The stages of the gate are folded to one verdict, which names the earliest stage that
blocks, in whatever order the stages were run.
-/
namespace Redskilled.Acp
open Foundation

inductive WorkerFailureRetryClass where
  | capHit | oom | networkDrop | toolError | unknown
  deriving DecidableEq

inductive WorkerFailureRetryShape where
  | smallerScope | asIs | differentModel

def WorkerFailureRetryClass.text : WorkerFailureRetryClass → Text
  | .capHit => "cap-hit".toList
  | .oom => "oom".toList
  | .networkDrop => "network-drop".toList
  | .toolError => "tool-error".toList
  | .unknown => "unknown".toList

def WorkerFailureRetryShape.text : WorkerFailureRetryShape → Text
  | .smallerScope => "smaller-scope".toList
  | .asIs => "as-is".toList
  | .differentModel => "different-model".toList

structure WorkerFailureRetryRule where
  shape : WorkerFailureRetryShape
  maxRetries : ℕ
  instruction : Text

def workerFailureGlobalRetryLimit : ℕ := 2

def workerFailureRetryTable : WorkerFailureRetryClass → WorkerFailureRetryRule
  | .capHit => ⟨.smallerScope, 2, ("Retry with smaller scope: narrow the implementation to ".toList ++
      "the smallest independently shippable slice.".toList)⟩
  | .oom => ⟨.smallerScope, 2, ("Retry with smaller scope: reduce the working set and avoid ".toList ++
      "broad scans before continuing.".toList)⟩
  | .networkDrop => ⟨.asIs, 2, ("Retry as-is: the failure was a transient network drop, so keep ".toList ++
      "the same scope.".toList)⟩
  | .toolError => ⟨.differentModel, 2, ("Retry on a different model: keep the task scope, but ".toList ++
      "route the next implementation round away from the failed tool/model.".toList)⟩
  | .unknown => ⟨.asIs, 1, ("Retry once as-is: the failure mode was unknown, so do not loop ".toList ++
      "without new evidence.".toList)⟩

inductive ParkReason where
  | globalBound | classBound

inductive WorkerFailureRetryDecision where
  | retry (failureClass : WorkerFailureRetryClass) (shape : WorkerFailureRetryShape)
      (retriesUsed classRetriesUsed : ℕ) (instruction evidence : Text)
  | park (failureClass : WorkerFailureRetryClass) (reason : ParkReason)
      (retriesUsed classRetriesUsed : ℕ) (evidence : Text)

def decideWorkerFailureRetry (failureClass : WorkerFailureRetryClass)
    (retriesUsed classRetriesUsed : ℕ) (evidence : Text) : WorkerFailureRetryDecision :=
  if workerFailureGlobalRetryLimit ≤ retriesUsed then
    .park failureClass .globalBound retriesUsed classRetriesUsed evidence
  else if (workerFailureRetryTable failureClass).maxRetries ≤ classRetriesUsed then
    .park failureClass .classBound retriesUsed classRetriesUsed evidence
  else
    .retry failureClass (workerFailureRetryTable failureClass).shape (retriesUsed + 1)
      (classRetriesUsed + 1) (workerFailureRetryTable failureClass).instruction evidence

lemma decideWorkerFailureRetry_retry {failureClass failed : WorkerFailureRetryClass}
    {retriesUsed classRetriesUsed used classUsed : ℕ} {evidence instruction told : Text}
    {shape : WorkerFailureRetryShape}
    (h : decideWorkerFailureRetry failureClass retriesUsed classRetriesUsed evidence =
      .retry failed shape used classUsed instruction told) :
    used = retriesUsed + 1 ∧ used ≤ workerFailureGlobalRetryLimit ∧
      classUsed = classRetriesUsed + 1 ∧
      classUsed ≤ (workerFailureRetryTable failureClass).maxRetries := by
  unfold decideWorkerFailureRetry at h
  split_ifs at h with hglob hclass
  injection h with hfail hshape hused hclassUs
  omega

inductive GateStage where
  | feedback | backpressure | review
  deriving DecidableEq

def GateStage.text : GateStage → Text
  | .feedback => "feedback".toList
  | .backpressure => "backpressure".toList
  | .review => "review".toList

def gateStageOrder : List GateStage := [.feedback, .backpressure, .review]

structure GateStageOutcome where
  stage : GateStage
  ok : Bool
  skipped : Bool := false

structure GateVerdict where
  ok : Bool
  failedStage : Option GateStage := none

/-- A skipped stage never blocks. -/
def GateStageOutcome.blocks (outcome : GateStageOutcome) : Bool := !(outcome.skipped || outcome.ok)

def stageBefore (a b : GateStageOutcome) : Bool :=
  gateStageOrder.idxOf a.stage ≤ gateStageOrder.idxOf b.stage

def gateVerdict (outcomes : List GateStageOutcome) : GateVerdict :=
  match (outcomes.mergeSort stageBefore).find? GateStageOutcome.blocks with
  | some outcome => { ok := false, failedStage := some outcome.stage }
  | none => { ok := true }

end Redskilled.Acp
