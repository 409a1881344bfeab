import Redskilled.Foundation.Dialogue
import Redskilled.Tracker.BlockerState
import Redskilled.Tracker.StateTransition

/-!
# Requeue

A parked issue goes back to the queue when its blocker is cleared from the body and its
labels are flipped. The plan is pure; a machine may requeue the kinds of its supported set
and a human any. It is applied by writing the body, a directive and the labels, and each of
these may fail, before or after its effect.
-/
namespace Redskilled.Tracker
open Foundation Foundation.Text

def hostStateTransitionLabels : StateTransitionLabels where
  ready := "ready-for-agent".toList
  running := "running".toList
  human := "ready-for-human".toList
  needsTriage := "needs-triage".toList
  needsInfo := "needs-info".toList
  quarantine := "quarantine".toList
  dependencyBlocked := "blocked:dependency".toList
  blockedPrefix := "blocked:".toList
  reqPrefix := "req:".toList
  hitlTypes := []

lemma hostLabels_proper : hostStateTransitionLabels.Proper where
  distinct := by decide +kernel
  blocked := by decide +kernel
  notEdge := by decide +kernel
  notModifier := by decide +kernel

def mechanicalBlockerKinds : List Text :=
  ["stalled".toList, "crashed".toList, "merge-conflict".toList]

def requeueSupportedKinds : List Text :=
  ["validation".toList, "validation-infra".toList, "spec".toList, "infra".toList,
    "base-stale".toList]

def blockedKindOf (label : Text) : Option Text :=
  if hostStateTransitionLabels.blockedPrefix <+: label then
    some (label.drop hostStateTransitionLabels.blockedPrefix.length)
  else none

def blockedLabelsIn (labels : List Text) : List Text :=
  labels.filter fun label => (blockedKindOf label).isSome

inductive RequeueAuthority where
  | machine | human
  deriving DecidableEq

structure RequeueInput where
  authority : Option RequeueAuthority
  body : Text
  labels : List Text
  guidance : Option Text

structure RequeuePlan where
  requeueable : Bool
  refuseForHitl : Bool
  reason : Option Text
  activeBlocker : Option CurrentBlocker
  body : Text
  bodyChanged : Bool
  addLabels : List Text
  removeLabels : List Text

def formatRequeueDirective (plan : RequeuePlan) (guidance : Text) : Text :=
  joined
    ["<details data-kind=\"directive\">".toList, "<summary>Requeue</summary>".toList, [],
      "Human guidance:".toList,
      if trim guidance ≠ [] then trim guidance else "(none recorded)".toList, [],
      "Disposition:\nrequeued to ready-for-agent".toList ++
        match plan.activeBlocker with
        | some blocker => " (cleared active blocker: ".toList ++ blocker.kind ++ ")".toList
        | none => [],
      "</details>".toList]

def refuse (reason : Text) (refuseForHitl : Bool) (activeBlocker : Option CurrentBlocker)
    (body : Text) : RequeuePlan where
  requeueable := false
  refuseForHitl := refuseForHitl
  reason := some reason
  activeBlocker := activeBlocker
  body := body
  bodyChanged := false
  addLabels := []
  removeLabels := []

def isRequeueComplete (body : Text) (labels : List Text) : Bool :=
  labels.contains hostStateTransitionLabels.ready &&
    match parseCurrentBlocker body with
    | some active => mechanicalBlockerKinds.contains active.kind
    | none => true

namespace RequeueInput
variable (input : RequeueInput)

def authorityOf : RequeueAuthority := input.authority.getD .machine

def activeBlocker : Option CurrentBlocker := parseCurrentBlocker input.body

def isParked : Prop :=
  input.activeBlocker.isSome ∨ blockedLabelsIn input.labels ≠ [] ∨
    hostStateTransitionLabels.human ∈ input.labels

instance : Decidable input.isParked := inferInstanceAs (Decidable (_ ∨ _ ∨ _))

def labelKind : Option Text :=
  match blockedLabelsIn input.labels with
  | [label] => blockedKindOf label
  | _ => none

def unsupported : Text :=
  " is not in the supported set for machine authority (validation, validation-infra, spec, ".toList ++
    "infra, base-stale): use /hitl for human authority".toList

def labelRefusal (kind : Text) : Option Text :=
  if kind ∉ requeueSupportedKinds then some ("blocked:".toList ++ kind ++ unsupported) else none

def activeRefusal (blocker : CurrentBlocker) : Option Text :=
  if blocker.kind ∉ mechanicalBlockerKinds ∧ blocker.kind ∉ requeueSupportedKinds then
    some ("active blocker kind \"".toList ++ blocker.kind ++ "\"".toList ++ unsupported)
  else none

def mismatchRefusal (kind : Text) (blocker : CurrentBlocker) : Option Text :=
  if blocker.kind ≠ kind then
    some ("label/body kind mismatch: label says blocked:".toList ++ kind ++
      " but body blocker kind is \"".toList ++ blocker.kind ++
      "\" — use /hitl to reconcile".toList)
  else none

def machineRefusal : Option Text :=
  let blocked := blockedLabelsIn input.labels
  if 1 < blocked.length then
    some ("mixed blocked:* labels [".toList ++ List.intercalate ", ".toList blocked ++
      "]: label state is ambiguous — use /hitl to reconcile".toList)
  else
    (input.labelKind.bind labelRefusal).or <| (input.activeBlocker.bind activeRefusal).or <|
        input.activeBlocker.bind fun blocker => input.labelKind.bind (mismatchRefusal · blocker)

def resolvedOf (blocker : CurrentBlocker) : ResolvedBlocker where
  summary := blocker.summary
  resolution :=
    let guidance := trim (input.guidance.getD [])
    if guidance ≠ [] then guidance else "Requeued after human guidance.".toList

def requeuedBody : Text :=
  match input.activeBlocker with
  | some blocker => clearCurrentBlocker input.body (some (input.resolvedOf blocker))
  | none => input.body

def hasReqEdges : Prop := ∃ label ∈ input.labels, hostStateTransitionLabels.reqPrefix <+: label

instance : Decidable input.hasReqEdges := List.decidableBEx _ _

def transition : StateTransition ℕ :=
  if input.authorityOf = .human ∧ input.hasReqEdges then .promote else .queue

def planRequeue : RequeuePlan :=
  if ¬ input.isParked then
    refuse ("issue is not parked: no active Current blocker, blocked:* label, ".toList ++
      "or ready-for-human".toList) false none input.body
  else
    match if input.authorityOf = .machine then input.machineRefusal else none with
    | some reason => refuse reason true input.activeBlocker input.body
    | none =>
      match hostStateTransitionLabels.planTransition number input.labels input.transition with
      | .error reason =>
        refuse reason (input.authorityOf = .machine) input.activeBlocker input.body
      | .ok transition =>
        { requeueable := true
          refuseForHitl := false
          reason := none
          activeBlocker := input.activeBlocker
          body := input.requeuedBody
          bodyChanged := input.requeuedBody ≠ input.body
          addLabels := transition.add
          removeLabels := transition.remove }

end RequeueInput

structure RequeueFreshnessResult where
  ok : Bool
  evidence : Text

inductive RequeueOp where
  | verifyBaseFreshness (body : Text)
  | releaseClaims (issue : ℕ)
  | editBody (issue : ℕ) (body : Text)
  | comment (issue : ℕ) (body : Text)
  | editLabels (issue : ℕ) (remove add : List Text)

def RequeueOp.Answer : RequeueOp → Type
  | .verifyBaseFreshness _ => RequeueFreshnessResult
  | .releaseClaims _ => List Text
  | _ => Unit

abbrev Requeuing := Dialogue RequeueOp RequeueOp.Answer

structure ApplyRequeueResult where
  plan : RequeuePlan
  applied : Bool
  reason : Option Text
  releasedClaims : List Text
  freshness : Option RequeueFreshnessResult

open Dialogue

def requeueWrites (issue : ℕ) (plan : RequeuePlan) (guidance : Text)
    (freshness : RequeueFreshnessResult) : Requeuing ApplyRequeueResult := do
  let releasedClaims ← need (RequeueOp.releaseClaims issue)
  if plan.bodyChanged then
    need (RequeueOp.editBody issue plan.body)
  need (RequeueOp.comment issue (formatRequeueDirective plan guidance))
  need (RequeueOp.editLabels issue plan.removeLabels plan.addLabels)
  pure ⟨plan, true, none, releasedClaims, some freshness⟩

def applyRequeue (issue : ℕ) (input : RequeueInput) : Requeuing ApplyRequeueResult :=
  let plan := input.planRequeue
  if ¬ plan.requeueable then pure ⟨plan, false, plan.reason, [], none⟩
  else do
    let freshness ← need (RequeueOp.verifyBaseFreshness input.body)
    if ¬ freshness.ok then
      pure ⟨plan, false,
        some ("base freshness verification failed: ".toList ++ freshness.evidence), [],
        some freshness⟩
    else requeueWrites issue plan (input.guidance.getD []) freshness

structure TrackedIssue where
  body : Text
  labels : List Text
  comments : List Text

namespace TrackedIssue

/-- What a call leaves. A call that fails may have had its effect; the labels may be half
written. -/
def Steps (s : TrackedIssue) : Exchange RequeueOp RequeueOp.Answer → TrackedIssue → Prop
  | ⟨.verifyBaseFreshness _, _⟩, t => t = s
  | ⟨.releaseClaims _, _⟩, t => t.body = s.body ∧ t.labels = s.labels
  | ⟨.editBody _ body, some _⟩, t => t = { s with body := body }
  | ⟨.editBody _ body, none⟩, t => t = s ∨ t = { s with body := body }
  | ⟨.comment _ body, some _⟩, t => t = { s with comments := s.comments ++ [body] }
  | ⟨.comment _ body, none⟩, t => t = s ∨ t = { s with comments := s.comments ++ [body] }
  | ⟨.editLabels _ remove add, some _⟩, t =>
    t.body = s.body ∧ ∀ l, l ∈ t.labels ↔ (l ∈ s.labels ∧ l ∉ remove) ∨ l ∈ add
  | ⟨.editLabels _ remove add, none⟩, t =>
    t.body = s.body ∧ (∀ l ∈ t.labels, l ∈ s.labels ∨ l ∈ add) ∧
      ∀ l ∈ s.labels, l ∉ remove → l ∈ t.labels

end TrackedIssue
end Redskilled.Tracker
